import Nameless.Proofs.Numeral
import Nameless.Raw

/-!
# Nameless terms are told apart by their texts

An abstraction is written `λ.` with its body behind it, an application in parentheses, an index as a
decimal, and a free variable as its bare name. Nothing closes an abstraction, and an index or a name
ends where the next character does not go on with it. Still no term can be taken for another: the
first character tells which kind of term starts there, and where one part ends the next one starts.

Free variables have to be named like variables for that. One that is called `0` would be taken for
an index.

This file defines:
- `Indexed.Lettered`: every free variable has the name of a variable,
- `Indexed.Shape`, `Indexed.Shape.announced`: the kinds of terms, and which one a character starts,
- `Indexed.EndsBefore`: what can follow a term without going on with it.

Main statements:
- `Indexed.chars_append_inj`: a text with something behind it starts with one term only,
- `Indexed.text_inj`: different terms have different texts,
- `Indexed.text?_toRaw_inj`: also where the text of a long index cannot be written.
-/

namespace Nameless

/-! ## Runs of characters -/

theorem not_isDigit_of_isLower {c : Char} (h : isLower c = true) : c.isDigit = false := by
  have hcode := toNat_of_isLower h
  by_contra hdigit
  simp only [Bool.not_eq_false, Char.isDigit, Bool.and_eq_true, decide_eq_true_eq,
    UInt32.le_iff_toNat_le] at hdigit
  have hle : c.toNat ≤ 57 := hdigit.2
  omega

/-- A run of characters of one kind can be told from what follows it. -/
theorem Token.run_append_inj {p : Char → Bool} {run run' rest rest' : List Char}
    (hrun : (!run.isEmpty && run.all p) = true) (hrun' : (!run'.isEmpty && run'.all p) = true)
    (hrest : ∀ c ∈ rest.head?, p c = false) (hrest' : ∀ c ∈ rest'.head?, p c = false)
    (h : run ++ rest = run' ++ rest') : run = run' ∧ rest = rest' := by
  rcases run_iff.1 ⟨rfl, hrun, hrest⟩ with ⟨_, htake, hdrop⟩
  rcases run_iff.1 ⟨h, hrun', hrest'⟩ with ⟨_, htake', hdrop'⟩
  exact ⟨htake.symm.trans htake', hdrop.symm.trans hdrop'⟩

namespace Text

/-- A decimal is a run of digits. -/
theorem run_toString (n : Nat) :
    (!(toString n).toList.isEmpty && (toString n).toList.all Char.isDigit) = true := by
  have hsome : (toString n).toList.isEmpty = false :=
    List.isEmpty_eq_false_iff.2 (toString_ne_nil n)
  have hdigits : (toString n).toList.all Char.isDigit = true :=
    List.all_eq_true.2 fun _ hc => isDigit_of_mem_toString hc
  rw [hsome, hdigits]
  rfl

theorem toList_toString_inj {m n : Nat} (h : (toString m).toList = (toString n).toList) :
    m = n := by
  simp only [Nat.toString_eq_repr, Nat.toList_repr] at h
  calc m
      = Nat.ofDigitChars 10 (Nat.toDigits 10 m) 0 := Nat.ofDigitChars_ten_toDigits.symm
    _ = Nat.ofDigitChars 10 (Nat.toDigits 10 n) 0 := by rw [h]
    _ = n := Nat.ofDigitChars_ten_toDigits

end Text

namespace Indexed

variable {ρ : Type}

/-- Every free variable has the name of a variable. -/
def Lettered (t : Indexed ρ) : Prop :=
  ∀ name ∈ t.freeNames, Named.isVariable name.toList = true

instance (t : Indexed ρ) : Decidable t.Lettered :=
  inferInstanceAs (Decidable (∀ name ∈ t.freeNames, Named.isVariable name.toList = true))

theorem lettered_lam {body : Indexed ρ} : (lam body).Lettered ↔ body.Lettered :=
  Iff.rfl

theorem lettered_app {fn arg : Indexed ρ} :
    (app fn arg).Lettered ↔ fn.Lettered ∧ arg.Lettered :=
  List.forall_mem_append

theorem lettered_free {name : String} :
    (free name : Indexed ρ).Lettered ↔ Named.isVariable name.toList = true :=
  List.forall_mem_singleton

/-! ## How terms start and end -/

/-- The kinds of terms that have a text. -/
inductive Shape where
  | lam
  | app
  | var
  | free
  deriving DecidableEq, Repr

/-- The kind of a term. -/
def shape : Indexed Empty → Shape
  | lam _ => .lam
  | app _ _ => .app
  | var _ => .var
  | free _ => .free

/-- The kind of the term that starts with a character. -/
def Shape.announced (c : Char) : Shape :=
  if c = 'λ' then .lam else if c = '(' then .app else if c.isDigit then .var else .free

/-- A character of a class that holds neither of the two signs starts a variable. -/
theorem Shape.announced_of_class {p : Char → Bool} (hlambda : p 'λ' = false)
    (hopening : p '(' = false) {c : Char} (h : p c = true) :
    announced c = if c.isDigit then .var else .free := by
  have hne : c ≠ 'λ' := by
    rintro rfl
    exact absurd h (by simp [hlambda])
  have hne' : c ≠ '(' := by
    rintro rfl
    exact absurd h (by simp [hopening])
  rw [announced, if_neg hne, if_neg hne']

/-- The first character of a text tells which kind of term it is the text of. -/
theorem exists_cons_chars {t : Indexed Empty} (ht : t.Lettered) :
    ∃ c tail, t.chars = c :: tail ∧ Shape.announced c = t.shape := by
  -- Names and decimals have a first character because they are not empty.
  cases t with
  | lam body => exact ⟨_, _, rfl, rfl⟩
  | app fn arg => exact ⟨_, _, rfl, rfl⟩
  | var index =>
    rcases Token.exists_cons_of_run (Text.run_toString index) with ⟨c, tail, hcons, hc, _⟩
    refine ⟨c, tail, hcons, ?_⟩
    rw [Shape.announced_of_class (p := Char.isDigit) rfl rfl hc, if_pos hc]
    rfl
  | free name =>
    rcases Token.exists_cons_of_run (lettered_free.1 ht) with ⟨c, tail, hcons, hc, _⟩
    refine ⟨c, tail, hcons, ?_⟩
    rw [Shape.announced_of_class (p := isLower) rfl rfl hc, not_isDigit_of_isLower hc]
    rfl
  | leaf x => exact x.elim

theorem shape_eq_of_append_eq {u v : Indexed Empty} (hu : u.Lettered) (hv : v.Lettered)
    {rest rest' : List Char} (h : u.chars ++ rest = v.chars ++ rest') : u.shape = v.shape := by
  rcases exists_cons_chars hu with ⟨c, tail, hcons, hc⟩
  rcases exists_cons_chars hv with ⟨c', tail', hcons', hc'⟩
  rw [hcons, hcons', List.cons_append, List.cons_append] at h
  rw [← hc, ← hc', (List.cons.inj h).1]

/-- What follows goes on neither with a name nor with an index. -/
def EndsBefore (rest : List Char) : Prop :=
  ∀ c ∈ rest.head?, isLower c = false ∧ c.isDigit = false

/-! ## Unique reading -/

/-- A text starts with one term only, and what follows it is determined as well. -/
theorem chars_append_inj {u v : Indexed Empty} (hu : u.Lettered) (hv : v.Lettered)
    {rest rest' : List Char} (hrest : EndsBefore rest) (hrest' : EndsBefore rest')
    (h : u.chars ++ rest = v.chars ++ rest') : u = v ∧ rest = rest' := by
  -- By induction on the first term. The second is of the same kind, since the texts start alike.
  induction u generalizing v rest rest' with
  | lam body ih =>
    have hshape := shape_eq_of_append_eq hu hv h
    cases v with
    | lam body' =>
      have hbody : body.chars ++ rest = body'.chars ++ rest' := by simpa [chars] using h
      rcases ih (lettered_lam.1 hu) (lettered_lam.1 hv) hrest hrest' hbody with ⟨rfl, rfl⟩
      exact ⟨rfl, rfl⟩
    | leaf x => exact x.elim
    | _ => cases hshape
  | app fn arg ihf iha =>
    have hshape := shape_eq_of_append_eq hu hv h
    cases v with
    | app fn' arg' =>
      rcases lettered_app.1 hu with ⟨hufn, huarg⟩
      rcases lettered_app.1 hv with ⟨hvfn, hvarg⟩
      have hparts : fn.chars ++ ' ' :: (arg.chars ++ ')' :: rest) =
          fn'.chars ++ ' ' :: (arg'.chars ++ ')' :: rest') := by
        simpa [chars] using h
      -- The blank ends the function and the parenthesis ends the argument, in both texts.
      have hblank : ∀ s, EndsBefore (' ' :: s) := by simp [EndsBefore, isLower]
      have hclosing : ∀ s, EndsBefore (')' :: s) := by simp [EndsBefore, isLower]
      rcases ihf hufn hvfn (hblank _) (hblank _) hparts with ⟨rfl, hafter⟩
      rcases iha huarg hvarg (hclosing _) (hclosing _) (List.cons.inj hafter).2 with
        ⟨rfl, hafter'⟩
      exact ⟨rfl, (List.cons.inj hafter').2⟩
    | leaf x => exact x.elim
    | _ => cases hshape
  | var index =>
    have hshape := shape_eq_of_append_eq hu hv h
    cases v with
    | var index' =>
      rcases Token.run_append_inj (Text.run_toString index) (Text.run_toString index')
        (fun c hc => (hrest c hc).2) (fun c hc => (hrest' c hc).2) h with ⟨hdigits, rfl⟩
      exact ⟨congrArg var (Text.toList_toString_inj hdigits), rfl⟩
    | leaf x => exact x.elim
    | _ => cases hshape
  | free name =>
    have hshape := shape_eq_of_append_eq hu hv h
    cases v with
    | free name' =>
      rcases Token.run_append_inj (lettered_free.1 hu) (lettered_free.1 hv)
        (fun c hc => (hrest c hc).1) (fun c hc => (hrest' c hc).1) h with ⟨hname, rfl⟩
      exact ⟨congrArg free (String.toList_inj.1 hname), rfl⟩
    | leaf x => exact x.elim
    | _ => cases hshape
  | leaf x => exact x.elim

theorem text_inj {u v : Indexed Empty} (hu : u.Lettered) (hv : v.Lettered) :
    u.text = v.text ↔ u = v := by
  constructor
  · intro h
    have hchars : u.chars ++ [] = v.chars ++ [] := by
      rw [List.append_nil, List.append_nil]
      exact String.ofList_injective h
    exact (chars_append_inj hu hv (by simp [EndsBefore]) (by simp [EndsBefore]) hchars).1
  · rintro rfl
    rfl

/-- A free variable that is no name of a variable may be taken for an index. -/
example : (free "0" : Indexed Empty).text = (var 0).text := by decide

/-! ## Texts that can be written -/

theorem chars_of_chars?_toRaw {t : Indexed Empty} {cs : List Char}
    (h : (t.toRaw Empty.elim).chars? = .ok cs) : cs = t.chars := by
  induction t generalizing cs with
  | lam body ih =>
    rcases Except.bind_eq_ok h with ⟨body', hbody, hdone⟩
    cases hdone
    rw [chars, ih hbody]
  | app fn arg ihf iha =>
    rcases Except.bind_eq_ok h with ⟨fn', hfn, hrest⟩
    rcases Except.bind_eq_ok hrest with ⟨arg', harg, hdone⟩
    cases hdone
    rw [chars, ihf hfn, iha harg]
  | var index =>
    simp only [toRaw, Raw.chars?, Mishap.digits?] at h
    split at h
    · next digits hdigits =>
      split at hdigits
      · cases hdigits
        cases h
        rfl
      · cases hdigits
    · cases h
  | free name =>
    cases h
    rfl
  | leaf x => exact x.elim

/-- What is written of a term is its text. -/
theorem text_of_text?_toRaw {t : Indexed Empty} {w : String}
    (h : (t.toRaw Empty.elim).text? = .ok w) : w = t.text := by
  cases hchars : (t.toRaw Empty.elim).chars? with
  | error failure =>
    rw [Raw.text?, hchars] at h
    cases h
  | ok cs =>
    rw [Raw.text?, hchars] at h
    cases h
    rw [chars_of_chars?_toRaw hchars, text]

/-- Of a text that was written for a term no other term has the text. -/
theorem text?_toRaw_inj {u v : Indexed Empty} (hu : u.Lettered) (hv : v.Lettered) {w : String}
    (h : (u.toRaw Empty.elim).text? = .ok w) :
    (v.toRaw Empty.elim).text? = .ok w ↔ u = v := by
  constructor
  · intro hw
    exact (text_inj hu hv).1 ((text_of_text?_toRaw h).symm.trans (text_of_text?_toRaw hw))
  · rintro rfl
    exact h

end Indexed
end Nameless
