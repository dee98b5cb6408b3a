import Mathlib.Data.List.TakeWhile
import Nameless.Proofs.Named.WellNamed

/-!
# Tokens

A text is made of tokens, with blanks between them: the signs of an abstraction, the period, the two
parentheses, the names of variables and the names of references. Tokens may touch. A name is as long
as it can be, so it ends where no further character of its kind follows; any other character is no
part of a token.

This file defines:
- `Token`, `Token.WrittenAs`: the tokens and how they are written,
- `Token.Leads`: a text that starts with a token, and what is left after it,
- `Token.Scans`: the tokens of a whole text,
- `Token.first?`: the token at the front of a text, as it is found.

Main statements:
- `Token.leads_iff_skipBlanks`: a token stands where the blanks end,
- `Token.Leads.first?_eq`: a text leads with the token that is found,
- `Token.Scans.unique`: a text has at most one sequence of tokens.
-/

namespace Nameless

/-! ## Characters -/

/-- The codes of the characters in names of variables. -/
theorem toNat_of_isLower {c : Char} (h : isLower c = true) : 97 ≤ c.toNat ∧ c.toNat ≤ 122 := by
  simp only [isLower, Bool.and_eq_true, decide_eq_true_eq, Char.le_def, UInt32.le_iff_toNat_le] at h
  exact h

theorem isBlank_of_isLower {c : Char} (h : isLower c = true) : Text.isBlank c = false := by
  have hcode := toNat_of_isLower h
  simp only [Text.isBlank, Bool.or_eq_false_iff, Bool.and_eq_false_iff, decide_eq_false_iff_not,
    beq_eq_false_iff_ne]
  omega

/-- The codes of the characters in names of definitions. -/
theorem toNat_of_isUpperOrDigit {c : Char} (h : isUpperOrDigit c = true) :
    65 ≤ c.toNat ∧ c.toNat ≤ 90 ∨ 48 ≤ c.toNat ∧ c.toNat ≤ 57 := by
  simp only [isUpperOrDigit, Bool.or_eq_true, Bool.and_eq_true, decide_eq_true_eq, Char.le_def,
    UInt32.le_iff_toNat_le] at h
  exact h

theorem isBlank_of_isUpperOrDigit {c : Char} (h : isUpperOrDigit c = true) :
    Text.isBlank c = false := by
  have hcode := toNat_of_isUpperOrDigit h
  simp only [Text.isBlank, Bool.or_eq_false_iff, Bool.and_eq_false_iff, decide_eq_false_iff_not,
    beq_eq_false_iff_ne]
  omega

theorem isLower_of_isUpperOrDigit {c : Char} (h : isUpperOrDigit c = true) :
    isLower c = false := by
  have hcode := toNat_of_isUpperOrDigit h
  simp only [isLower, Bool.and_eq_false_iff, decide_eq_false_iff_not, Char.le_def,
    UInt32.le_iff_toNat_le]
  refine .inl fun hlow => ?_
  have hlow : 97 ≤ c.toNat := hlow
  omega

namespace Named.Parser

/-- A class of characters without the two signs of an abstraction has none that starts one. -/
theorem isLambda_of_class {p : Char → Bool} (hslash : p '\\' = false) (hlambda : p 'λ' = false)
    {c : Char} (h : p c = true) : isLambda c = false := by
  cases hc : isLambda c with
  | false => rfl
  | true =>
    simp only [isLambda, Bool.or_eq_true, beq_iff_eq] at hc
    rcases hc with rfl | rfl
    · exact absurd h (by simp [hslash])
    · exact absurd h (by simp [hlambda])

end Named.Parser

/-! ## Tokens of a text -/

/-- The pieces of which terms are written. -/
inductive Token where
  /-- The sign of an abstraction. -/
  | lambda
  | period
  | opening
  | closing
  /-- The name of a variable or of a binder. -/
  | sym (name : String)
  /-- A name by which a definition is referred to. -/
  | ref (name : String)
  deriving DecidableEq, Repr

namespace Token

open Text (isBlank skipBlanks)
open Named (isVariable)
open Named.Parser (isLambda)

/-- The ways to write a token. -/
def WrittenAs : Token → List Char → Prop
  | lambda, s => s = ['\\'] ∨ s = ['λ']
  | period, s => s = ['.']
  | opening, s => s = ['(']
  | closing, s => s = [')']
  | sym name, s => s = name.toList ∧ isVariable s = true
  | ref name, s => s = name.toList ∧ Line.isName s = true

/-- Whether a character right behind a token would belong to it. -/
def extendedBy : Token → Char → Bool
  | sym _, c => isLower c
  | ref _, c => isUpperOrDigit c
  | _, _ => false

/-- The text is a token with `rest` behind it and any blanks before it, and the token is not cut off
before its end. -/
def Leads (s : List Char) (token : Token) (rest : List Char) : Prop :=
  ∃ blanks written, s = blanks ++ (written ++ rest) ∧ (∀ c ∈ blanks, isBlank c = true) ∧
    token.WrittenAs written ∧ ∀ c ∈ rest.head?, token.extendedBy c = false

/-- The text is a sequence of tokens, with blanks anywhere around them. -/
inductive Scans : List Char → List Token → Prop where
  | blank {s : List Char} : (∀ c ∈ s, isBlank c = true) → Scans s []
  | token {s rest : List Char} {token : Token} {tokens : List Token} :
      Leads s token rest → Scans rest tokens → Scans s (token :: tokens)

/-! ## Where a token stands -/

/-- A run of characters of one kind has a first one. -/
theorem exists_cons_of_run {p : Char → Bool} {run : List Char}
    (h : (!run.isEmpty && run.all p) = true) :
    ∃ c tail, run = c :: tail ∧ p c = true ∧ ∀ d ∈ run, p d = true := by
  cases run with
  | nil => cases h
  | cons c tail =>
    have hall : ∀ d ∈ c :: tail, p d = true := List.all_eq_true.1 (Bool.and_eq_true_iff.1 h).2
    exact ⟨c, tail, rfl, hall c List.mem_cons_self, hall⟩

theorem exists_cons_of_takeWhile {p : Char → Bool} {s run : List Char}
    (hrun : (!run.isEmpty && run.all p) = true) (h : s.takeWhile p = run) :
    ∃ c tail, s = c :: tail ∧ p c = true := by
  rcases exists_cons_of_run hrun with ⟨c, tail, rfl, hc, _⟩
  refine ⟨c, tail ++ s.dropWhile p, ?_, hc⟩
  rw [← List.cons_append, ← h]
  exact List.takeWhile_append_dropWhile.symm

/-- No token starts with a blank. -/
theorem WrittenAs.exists_cons {token : Token} {written : List Char} (h : token.WrittenAs written) :
    ∃ c tail, written = c :: tail ∧ isBlank c = false := by
  cases token with
  | lambda => rcases h with rfl | rfl <;> exact ⟨_, _, rfl, rfl⟩
  | period => exact ⟨_, _, h, rfl⟩
  | opening => exact ⟨_, _, h, rfl⟩
  | closing => exact ⟨_, _, h, rfl⟩
  | sym name =>
    rcases exists_cons_of_run h.2 with ⟨c, tail, hcons, hc, _⟩
    exact ⟨c, tail, hcons, isBlank_of_isLower hc⟩
  | ref name =>
    rcases exists_cons_of_run h.2 with ⟨c, tail, hcons, hc, _⟩
    exact ⟨c, tail, hcons, isBlank_of_isUpperOrDigit hc⟩

/-- A token stands where the blanks end. -/
theorem leads_iff_skipBlanks {s rest : List Char} {token : Token} :
    Leads s token rest ↔ ∃ written, skipBlanks s = written ++ rest ∧ token.WrittenAs written ∧
      ∀ c ∈ rest.head?, token.extendedBy c = false := by
  constructor
  · rintro ⟨blanks, written, rfl, hblanks, hwritten, hrest⟩
    refine ⟨written, ?_, hwritten, hrest⟩
    rcases hwritten.exists_cons with ⟨c, tail, rfl, hc⟩
    rw [skipBlanks, List.dropWhile_append_of_pos hblanks]
    exact List.dropWhile_cons_of_neg (by simp [hc])
  · rintro ⟨written, hs, hwritten, hrest⟩
    refine ⟨s.takeWhile isBlank, written, ?_, ?_, hwritten, hrest⟩
    · rw [← hs]
      exact List.takeWhile_append_dropWhile.symm
    · exact List.all_eq_true.1 List.all_takeWhile

theorem leads_lambda {s rest : List Char} :
    Leads s lambda rest ↔ ∃ c, isLambda c = true ∧ skipBlanks s = c :: rest := by
  simp [leads_iff_skipBlanks, WrittenAs, extendedBy, isLambda, or_and_right, exists_or, and_comm]

theorem leads_period {s rest : List Char} :
    Leads s period rest ↔ skipBlanks s = '.' :: rest := by
  simp [leads_iff_skipBlanks, WrittenAs, extendedBy]

theorem leads_opening {s rest : List Char} :
    Leads s opening rest ↔ skipBlanks s = '(' :: rest := by
  simp [leads_iff_skipBlanks, WrittenAs, extendedBy]

theorem leads_closing {s rest : List Char} :
    Leads s closing rest ↔ skipBlanks s = ')' :: rest := by
  simp [leads_iff_skipBlanks, WrittenAs, extendedBy]

/-- A name is a run of characters of one kind that no character of that kind follows. -/
theorem run_iff {p : Char → Bool} {s run rest : List Char} :
    (s = run ++ rest ∧ (!run.isEmpty && run.all p) = true ∧ ∀ c ∈ rest.head?, p c = false) ↔
      (!run.isEmpty && run.all p) = true ∧ s.takeWhile p = run ∧ s.dropWhile p = rest := by
  constructor
  · rintro ⟨rfl, hrun, hrest⟩
    rcases exists_cons_of_run hrun with ⟨_, _, _, _, hall⟩
    refine ⟨hrun, ?_⟩
    rw [List.takeWhile_append_of_pos hall, List.dropWhile_append_of_pos hall]
    cases rest with
    | nil => simp
    | cons d rest => simp [hrest d rfl]
  · rintro ⟨hrun, rfl, rfl⟩
    refine ⟨List.takeWhile_append_dropWhile.symm, hrun, ?_⟩
    intro c hc
    have hstop := List.head?_dropWhile_not p s
    rw [hc] at hstop
    exact hstop

/-- What the two kinds of names have in common: such a token is a run of its characters, up to the
first other one. -/
theorem leads_name {token : Token} {name : String} {p : Char → Bool}
    (hwritten : ∀ s, token.WrittenAs s ↔ s = name.toList ∧ (!s.isEmpty && s.all p) = true)
    (hextended : ∀ c, token.extendedBy c = p c) {s rest : List Char} :
    Leads s token rest ↔ (!name.toList.isEmpty && name.toList.all p) = true ∧
      (skipBlanks s).takeWhile p = name.toList ∧ (skipBlanks s).dropWhile p = rest := by
  rw [leads_iff_skipBlanks, ← run_iff]
  simp only [hwritten, hextended]
  constructor
  · rintro ⟨_, hs, ⟨rfl, hname⟩, hrest⟩
    exact ⟨hs, hname, hrest⟩
  · rintro ⟨hs, hname, hrest⟩
    exact ⟨_, hs, ⟨rfl, hname⟩, hrest⟩

theorem leads_sym {s rest : List Char} {name : String} :
    Leads s (sym name) rest ↔ isVariable name.toList = true ∧
      (skipBlanks s).takeWhile isLower = name.toList ∧ (skipBlanks s).dropWhile isLower = rest :=
  leads_name (fun _ => Iff.rfl) (fun _ => rfl)

theorem leads_ref {s rest : List Char} {name : String} :
    Leads s (ref name) rest ↔ Line.isName name.toList = true ∧
      (skipBlanks s).takeWhile isUpperOrDigit = name.toList ∧
      (skipBlanks s).dropWhile isUpperOrDigit = rest :=
  leads_name (fun _ => Iff.rfl) (fun _ => rfl)

namespace Leads

theorem length_lt {s rest : List Char} {token : Token} (h : Leads s token rest) :
    rest.length < s.length := by
  rcases h with ⟨blanks, written, rfl, _, hwritten, _⟩
  rcases hwritten.exists_cons with ⟨c, tail, rfl, _⟩
  simp only [List.length_append, List.length_cons]
  omega

theorem of_writtenAs {token : Token} {written rest : List Char} (h : token.WrittenAs written)
    (hrest : ∀ c ∈ rest.head?, token.extendedBy c = false) : Leads (written ++ rest) token rest :=
  ⟨[], written, rfl, by simp, h, hrest⟩

theorem of_variable {name : String} {rest : List Char} (hname : isVariable name.toList = true)
    (hrest : ∀ c ∈ rest.head?, isLower c = false) :
    Leads (name.toList ++ rest) (sym name) rest :=
  .of_writtenAs ⟨rfl, hname⟩ hrest

/-- Blanks may be put in front. -/
theorem blank {s rest : List Char} {token : Token} (h : Leads s token rest) {c : Char}
    (hc : isBlank c = true) : Leads (c :: s) token rest := by
  rcases h with ⟨blanks, written, rfl, hblanks, hwritten, hrest⟩
  exact ⟨c :: blanks, written, rfl, List.forall_mem_cons.2 ⟨hc, hblanks⟩, hwritten, hrest⟩

end Leads

/-! ## Only one sequence of tokens -/

/-- The token at the front of a text without blanks there, and what is left after it. -/
def first? : List Char → Option (Token × List Char)
  | [] => none
  | c :: rest =>
    if isLower c then
      some (sym (String.ofList ((c :: rest).takeWhile isLower)), (c :: rest).dropWhile isLower)
    else if isUpperOrDigit c then
      some (ref (String.ofList ((c :: rest).takeWhile isUpperOrDigit)),
        (c :: rest).dropWhile isUpperOrDigit)
    else
      match c with
      | '\\' => some (lambda, rest)
      | 'λ' => some (lambda, rest)
      | '.' => some (period, rest)
      | '(' => some (opening, rest)
      | ')' => some (closing, rest)
      | _ => none

namespace Leads

theorem first?_eq {s rest : List Char} {token : Token} (h : Leads s token rest) :
    first? (skipBlanks s) = some (token, rest) := by
  cases token with
  | lambda =>
    rcases leads_lambda.1 h with ⟨c, hc, hs⟩
    rw [hs]
    simp only [isLambda, Bool.or_eq_true, beq_iff_eq] at hc
    rcases hc with rfl | rfl <;> rfl
  | period =>
    rw [leads_period.1 h]
    rfl
  | opening =>
    rw [leads_opening.1 h]
    rfl
  | closing =>
    rw [leads_closing.1 h]
    rfl
  | sym name =>
    rcases leads_sym.1 h with ⟨hname, htake, rfl⟩
    rcases exists_cons_of_takeWhile hname htake with ⟨c, tail, hs, hc⟩
    rw [hs] at htake ⊢
    simp only [first?, hc, if_true, htake, String.ofList_toList]
  | ref name =>
    rcases leads_ref.1 h with ⟨hname, htake, rfl⟩
    rcases exists_cons_of_takeWhile hname htake with ⟨c, tail, hs, hc⟩
    rw [hs] at htake ⊢
    simp only [first?, isLower_of_isUpperOrDigit hc, hc, if_true, Bool.false_eq_true, if_false,
      htake, String.ofList_toList]

theorem unique {s rest rest' : List Char} {token token' : Token} (h : Leads s token rest)
    (h' : Leads s token' rest') : token = token' ∧ rest = rest' := by
  have heq : some (token, rest) = some (token', rest') := h.first?_eq.symm.trans h'.first?_eq
  simpa using heq

/-- A text of blanks has no token. -/
theorem not_blank {s rest : List Char} {token : Token} (h : Leads s token rest) :
    ¬ ∀ c ∈ s, isBlank c = true := by
  intro hblank
  rcases h with ⟨blanks, written, rfl, _, hwritten, _⟩
  rcases hwritten.exists_cons with ⟨c, tail, rfl, hc⟩
  rw [hblank c (by simp)] at hc
  cases hc

end Leads

/-- A text without tokens is blank. -/
theorem scans_nil_iff {s : List Char} : Scans s [] ↔ skipBlanks s = [] := by
  rw [skipBlanks, List.dropWhile_eq_nil_iff]
  constructor
  · rintro ⟨hblank⟩
    exact hblank
  · exact .blank

theorem Scans.unique {s : List Char} {tokens tokens' : List Token} (h : Scans s tokens)
    (h' : Scans s tokens') : tokens = tokens' := by
  induction h generalizing tokens' with
  | blank hblank =>
    cases h' with
    | blank _ => rfl
    | token hleads _ => exact absurd hblank hleads.not_blank
  | token hleads _ ih =>
    cases h' with
    | blank hblank => exact absurd hblank hleads.not_blank
    | token hleads' hscans' =>
      -- Both sequences start with the same token, and leave the same text.
      rcases hleads.unique hleads' with ⟨rfl, rfl⟩
      rw [ih hscans']

end Token
end Nameless
