import Nameless.Proofs.Named.Locality

/-!
# Where tokens stand

Each token of a text stands at a place, from one offset to another. A reference is the only token
with upper-case letters and digits in it, and it is as long as it can be, so a name that stands in a
text as a whole word is a token there. The first place at which a name is found is therefore the
place of the first reference by that name.

This file defines:
- `Token.Placed`: a token and its place,
- `Token.Places`: the tokens of a text at their places,
- `Token.Placed.Delimits`: what stands at a place is a given name, and no longer one.

Main statements:
- `Token.Scans.exists_places`, `Token.Places.unique`: tokens stand at one place each,
- `Token.Places.delimits`: what stands where a reference is placed,
- `Line.occurrence?_of_places`: where a name is found in a text.
-/

namespace Nameless
namespace Token

open Text (isBlank skipBlanks Apart)

/-! ## Places -/

/-- A token and the offsets between which it stands. -/
structure Placed where
  token : Token
  start : Nat
  stop : Nat
  deriving DecidableEq, Repr

/-- The text, which starts at an offset, is a sequence of tokens at their places, with blanks
anywhere around them. -/
inductive Places : Nat → List Char → List Placed → Prop where
  | blank {offset : Nat} {s : List Char} : (∀ c ∈ s, isBlank c = true) → Places offset s []
  | token {offset : Nat} {s blanks written rest : List Char} {token : Token}
      {placed : List Placed} :
      s = blanks ++ (written ++ rest) → (∀ c ∈ blanks, isBlank c = true) →
        token.WrittenAs written → (∀ c ∈ rest.head?, token.extendedBy c = false) →
        Places (offset + blanks.length + written.length) rest placed →
        Places offset s
          (⟨token, offset + blanks.length, offset + blanks.length + written.length⟩ :: placed)

theorem Scans.exists_places {s : List Char} {tokens : List Token} (h : Scans s tokens)
    (offset : Nat) : ∃ placed, Places offset s placed ∧ placed.map Placed.token = tokens := by
  induction h generalizing offset with
  | blank hblank => exact ⟨[], .blank hblank, rfl⟩
  | token hleads _ ih =>
    rcases hleads with ⟨blanks, written, hs, hblanks, hwritten, hrest⟩
    rcases ih (offset + blanks.length + written.length) with ⟨placed, hplaced, htokens⟩
    exact ⟨_, .token hs hblanks hwritten hrest hplaced, by simp [htokens]⟩

theorem WrittenAs.takeWhile_isBlank {token : Token} {written : List Char}
    (h : token.WrittenAs written) {blanks : List Char} (hblanks : ∀ c ∈ blanks, isBlank c = true)
    (rest : List Char) : (blanks ++ (written ++ rest)).takeWhile isBlank = blanks := by
  rcases h.exists_cons with ⟨c, tail, rfl, hc⟩
  rw [List.takeWhile_append_of_pos hblanks]
  simp [hc]

namespace Places

theorem unique {offset : Nat} {s : List Char} {placed placed' : List Placed}
    (h : Places offset s placed) (h' : Places offset s placed') : placed = placed' := by
  induction h generalizing placed' with
  | blank hblank =>
    cases h' with
    | blank _ => rfl
    | token hs hblanks hwritten hrest _ =>
      exact absurd hblank (Leads.not_blank ⟨_, _, hs, hblanks, hwritten, hrest⟩)
  | token hs hblanks hwritten hrest _ ih =>
    have hleads : Leads _ _ _ := ⟨_, _, hs, hblanks, hwritten, hrest⟩
    cases h' with
    | blank hblank => exact absurd hblank hleads.not_blank
    | token hs' hblanks' hwritten' hrest' hplaced' =>
      -- The same token comes first and leaves the same text, after the same blanks.
      rcases hleads.unique ⟨_, _, hs', hblanks', hwritten', hrest'⟩ with ⟨rfl, rfl⟩
      have hsame := hs.symm.trans hs'
      have hfront := congrArg (List.takeWhile isBlank) hsame
      rw [hwritten.takeWhile_isBlank hblanks, hwritten'.takeWhile_isBlank hblanks'] at hfront
      subst hfront
      rcases List.append_cancel_right (List.append_cancel_left hsame) with rfl
      rw [ih hplaced']

/-- A text is cut at the places of its tokens, and no name runs on across a cut. -/
theorem exists_cut {offset : Nat} {s : List Char} {placed : List Placed}
    (h : Places offset s placed) {p : Placed} (hp : p ∈ placed) :
    ∃ before written after, s = before ++ (written ++ after) ∧
      p.start = offset + before.length ∧ p.stop = offset + (before ++ written).length ∧
      p.token.WrittenAs written ∧ Apart before (written ++ after) ∧ Apart written after := by
  induction h with
  | blank _ => cases hp
  | token hs hblanks hwritten hrest _ ih =>
    rename_i offset s blanks written rest token placed _
    rcases List.mem_cons.1 hp with rfl | hp
    · refine ⟨blanks, written, rest, hs, rfl, by simp [Nat.add_assoc], hwritten, ?_, ?_⟩
      · intro c hc d _
        rw [Text.joins_comm]
        exact Text.joins_of_isBlank d (hblanks c (List.mem_of_getLast? hc))
      · exact (hwritten.apart_iff [] rest).2 hrest
    · rcases ih hp with ⟨before, written', after, rfl, hstart, hstop, hwritten', hbefore, hafter⟩
      refine ⟨blanks ++ written ++ before, written', after, ?_, ?_, ?_, hwritten', ?_, hafter⟩
      · simp [hs]
      · simp [hstart, Nat.add_assoc]
      · simp [hstop, Nat.add_assoc]
      · -- What stands right before the place is the end of the token before it, or a blank.
        cases before with
        | nil =>
          rw [List.append_nil]
          exact (hwritten.apart_iff blanks _).2 hrest
        | cons b before => exact (Text.apart_append (List.cons_ne_nil b before)).2 hbefore

end Places

/-! ## References -/

/-- The name stands at the place, with no character before or behind it that could belong to it. -/
structure Placed.Delimits (p : Placed) (s : List Char) (name : String) : Prop where
  stop_eq : p.stop = p.start + name.length
  stop_le : p.stop ≤ s.length
  between_eq : Text.between s p.start p.stop = name.toList
  before_not : ∀ c ∈ (Text.before s p.start).getLast?, isUpperOrDigit c = false
  after_not : ∀ c ∈ (Text.after s p.stop).head?, isUpperOrDigit c = false

theorem Places.delimits {s : List Char} {placed : List Placed} (h : Places 0 s placed)
    {p : Placed} (hp : p ∈ placed) {name : String} (htoken : p.token = .ref name) :
    p.Delimits s name := by
  rcases h.exists_cut hp with ⟨before, written, after, rfl, hstart, hstop, hwritten, hfront, hback⟩
  rw [htoken] at hwritten
  rcases hwritten with ⟨rfl, hname⟩
  rw [Nat.zero_add] at hstart hstop
  have hafter : Text.after (before ++ (name.toList ++ after)) p.stop = after := by
    rw [hstop, ← List.append_assoc]
    exact Text.after_append _ after
  constructor
  · rw [hstart, hstop, List.length_append, String.length_toList]
  · simp [hstop]
  · rw [hstart, hstop]
    exact Text.between_append before name.toList after
  · intro c hc
    rw [hstart, Text.before_append] at hc
    rcases exists_cons_of_run hname with ⟨d, tail, hcons, hd, _⟩
    have hjoins := hfront c hc d (by simp [hcons])
    simpa [Text.joins, hd, isLower_of_isUpperOrDigit hd] using hjoins
  · intro d hd
    rw [hafter] at hd
    rcases exists_last_of_run hname with ⟨c, hlast, hc⟩
    have hjoins := hback c hlast d hd
    simpa [Text.joins, hc, isLower_of_isUpperOrDigit hc] using hjoins

end Token

/-! ## Whole words -/

namespace Line

open Token (Placed Places)

variable {word : List Char} {previous : Option Char} {offset : Nat}

theorem last_cons (c : Char) (run : List Char) (previous : Option Char) :
    (c :: run).getLast?.or previous = run.getLast?.or (some c) := by
  rw [List.getLast?_cons]
  cases run.getLast? <;> rfl

/-- A word is not found inside a longer name, nor where a character stands that is in no name. -/
theorem occurrenceFrom_cons (hword : isName word = true) {c : Char}
    (h : previous.any isUpperOrDigit = true ∨ isUpperOrDigit c = false) (rest : List Char) :
    occurrenceFrom word previous offset (c :: rest) =
      occurrenceFrom word (some c) (offset + 1) rest := by
  refine if_neg ?_
  rcases Token.exists_cons_of_run hword with ⟨d, tail, rfl, hd, _⟩
  rcases h with hprevious | hc
  · simp [hprevious]
  · have hne : d ≠ c := by
      rintro rfl
      simp [hd] at hc
    simp [startsWord, hne]

/-- Characters that are in no name are passed over, and so is the rest of a name. -/
theorem occurrenceFrom_append (hword : isName word = true) {run : List Char}
    (hrun : (∀ c ∈ run, isUpperOrDigit c = false) ∨
      previous.any isUpperOrDigit = true ∧ ∀ c ∈ run, isUpperOrDigit c = true)
    (rest : List Char) :
    occurrenceFrom word previous offset (run ++ rest) =
      occurrenceFrom word (run.getLast?.or previous) (offset + run.length) rest := by
  induction run generalizing previous offset with
  | nil => rfl
  | cons c run ih =>
    have hlength : offset + (c :: run).length = offset + 1 + run.length := by
      rw [List.length_cons]
      omega
    rw [last_cons, hlength]
    rcases hrun with hrun | ⟨hprevious, hrun⟩
    · rcases List.forall_mem_cons.1 hrun with ⟨hc, hrun⟩
      exact (occurrenceFrom_cons hword (.inr hc) _).trans (ih (.inl hrun))
    · rcases List.forall_mem_cons.1 hrun with ⟨hc, hrun⟩
      exact (occurrenceFrom_cons hword (.inl hprevious) _).trans (ih (.inr ⟨hc, hrun⟩))

/-- At the start of a name only that name is found as a whole word. -/
theorem startsWord_iff (hword : isName word = true) {name rest : List Char}
    (hname : isName name = true) (hrest : ∀ c ∈ rest.head?, isUpperOrDigit c = false) :
    startsWord word (name ++ rest) = true ↔ word = name := by
  have htake : (name ++ rest).takeWhile isUpperOrDigit = name :=
    (Token.run_iff.1 ⟨rfl, hname, hrest⟩).2.1
  constructor
  · intro h
    simp only [startsWord, Bool.and_eq_true, List.isPrefixOf_iff_prefix, Bool.not_eq_true'] at h
    rcases h with ⟨⟨tail, htail⟩, hnext⟩
    rw [← htail, List.drop_left] at hnext
    have hstop : ∀ c ∈ tail.head?, isUpperOrDigit c = false := by
      intro c hc
      rw [hc] at hnext
      exact hnext
    rw [← htail] at htake
    exact (Token.run_iff.1 ⟨rfl, hword, hstop⟩).2.1.symm.trans htake
  · rintro rfl
    have hnext : rest.head?.any isUpperOrDigit = false := by
      cases hhead : rest.head? with
      | none => rfl
      | some c => exact hrest c hhead
    simp [startsWord, hnext]

/-- The characters of tokens other than references are in no name of a definition. -/
theorem not_isUpperOrDigit_of_writtenAs {token : Token} {written : List Char}
    (h : token.WrittenAs written) (hne : ∀ name, token ≠ .ref name) :
    ∀ c ∈ written, isUpperOrDigit c = false := by
  have hsign : ∀ sign, isUpperOrDigit sign = false → ∀ c ∈ [sign], isUpperOrDigit c = false := by
    intro sign hsign c hc
    rcases List.mem_singleton.1 hc with rfl
    exact hsign
  cases token with
  | lambda =>
    rcases h with rfl | rfl
    · exact hsign _ rfl
    · exact hsign _ rfl
  | period =>
    rcases h with rfl
    exact hsign _ rfl
  | opening =>
    rcases h with rfl
    exact hsign _ rfl
  | closing =>
    rcases h with rfl
    exact hsign _ rfl
  | sym name =>
    intro c hc
    rcases Token.exists_cons_of_run h.2 with ⟨_, _, _, _, hlower⟩
    cases hupper : isUpperOrDigit c with
    | false => rfl
    | true => exact absurd (hlower c hc) (by simp [isLower_of_isUpperOrDigit hupper])
  | ref name => exact absurd rfl (hne name)

theorem not_isUpperOrDigit_of_isBlank {c : Char} (h : Text.isBlank c = true) :
    isUpperOrDigit c = false := by
  cases hupper : isUpperOrDigit c with
  | false => rfl
  | true => exact absurd h (by simp [isBlank_of_isUpperOrDigit hupper])

theorem occurrenceFrom_nil (hword : isName word = true) :
    occurrenceFrom word previous offset [] = none := by
  rcases Token.exists_cons_of_run hword with ⟨c, tail, rfl, _, _⟩
  simp [occurrenceFrom, startsWord]

/-- At the start of another name a word is not found before that name ends. -/
theorem occurrenceFrom_name (hword : isName word = true) {name rest : List Char}
    (hname : isName name = true) (hrest : ∀ c ∈ rest.head?, isUpperOrDigit c = false)
    (hprevious : previous.any isUpperOrDigit = false) :
    occurrenceFrom word previous offset (name ++ rest) =
      if word = name then some offset
      else occurrenceFrom word (name.getLast?.or previous) (offset + name.length) rest := by
  rcases Token.exists_cons_of_run hname with ⟨c, tail, rfl, hc, hall⟩
  have hstarts := startsWord_iff hword hname hrest
  rw [List.cons_append, occurrenceFrom]
  by_cases hsame : word = c :: tail
  · rw [if_pos hsame, if_pos]
    simpa [hprevious] using hstarts.2 hsame
  · rw [if_neg hsame, if_neg]
    · have htail : ∀ d ∈ tail, isUpperOrDigit d = true := fun d hd => hall d (.tail c hd)
      have hsome : (some c).any isUpperOrDigit = true := hc
      rw [occurrenceFrom_append hword (.inr ⟨hsome, htail⟩), last_cons, List.length_cons,
        Nat.add_assoc, Nat.add_comm 1]
    · have hnot := mt hstarts.1 hsame
      simpa [hprevious] using hnot

/-- In a text of tokens a name is found where the first reference by it stands. -/
theorem occurrenceFrom_of_places {name : String} (hname : isName name.toList = true)
    {s : List Char} {placed : List Placed} (h : Places offset s placed)
    (hprevious : ∀ d ∈ s.head?, isUpperOrDigit d = true → previous.any isUpperOrDigit = false) :
    occurrenceFrom name.toList previous offset s =
      (placed.find? fun p => decide (p.token = .ref name)).map Placed.start := by
  induction h generalizing previous with
  | blank hblank =>
    rename_i offset s
    have hplain : ∀ c ∈ s, isUpperOrDigit c = false :=
      fun c hc => not_isUpperOrDigit_of_isBlank (hblank c hc)
    calc
      occurrenceFrom name.toList previous offset s
        = occurrenceFrom name.toList previous offset (s ++ []) := by rw [List.append_nil]
      _ = occurrenceFrom name.toList (s.getLast?.or previous) (offset + s.length) [] :=
        occurrenceFrom_append hname (.inl hplain) []
      _ = none := occurrenceFrom_nil hname
  | token hs hblanks hwritten hrest _ ih =>
    rename_i offset s blanks written rest token placed _
    subst hs
    have hblank : ∀ c ∈ blanks, isUpperOrDigit c = false :=
      fun c hc => not_isUpperOrDigit_of_isBlank (hblanks c hc)
    rw [occurrenceFrom_append hname (.inl hblank)]
    by_cases href : ∃ other, token = .ref other
    · rcases href with ⟨other, rfl⟩
      rcases hwritten with ⟨rfl, hother⟩
      have hfree : (blanks.getLast?.or previous).any isUpperOrDigit = false := by
        cases blanks with
        | nil =>
          rcases Token.exists_cons_of_run hother with ⟨d, tail, hcons, hd, _⟩
          exact hprevious d (by simp [hcons]) hd
        | cons b blanks =>
          rw [List.getLast?_eq_some_getLast (List.cons_ne_nil b blanks)]
          exact hblank _ (List.getLast_mem _)
      rw [occurrenceFrom_name hname hother hrest hfree]
      by_cases hsame : name = other
      · subst hsame
        simp
      · have hne : name.toList ≠ other.toList := fun heq => hsame (String.toList_inj.1 heq)
        rw [if_neg hne, ih]
        · simp [Ne.symm hsame]
        · intro d hd hupper
          exact absurd hupper (by simp [show isUpperOrDigit d = false from hrest d hd])
    · have hplain := not_isUpperOrDigit_of_writtenAs hwritten (not_exists.1 href)
      rw [occurrenceFrom_append hname (.inl hplain), ih]
      · have hne : token ≠ .ref name := fun hother => href ⟨name, hother⟩
        simp [hne]
      · intro d _ _
        rw [List.getLast?_eq_some_getLast hwritten.ne_nil]
        exact hplain _ (List.getLast_mem _)

theorem occurrence?_of_places {name : String} (hname : isName name.toList = true)
    {s : List Char} {placed : List Placed} (h : Places 0 s placed) :
    occurrence? name.toList s =
      (placed.find? fun p => decide (p.token = .ref name)).map Placed.start :=
  occurrenceFrom_of_places hname h fun _ _ _ => rfl

end Line
end Nameless
