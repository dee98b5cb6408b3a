import Nameless.Proofs.Results
import Nameless.Text.Layout

/-!
# Braces in texts

Braces are counted by giving either kind of brace a number and adding up the numbers over a text.
Digits, quoted texts and the signs of a layout are no braces, so a layout that a text can be set in
has no brace but the one that it may fill up with.

This file defines:
- `Text.BraceFree`: texts without braces,
- `Text.Weight`: a number for either brace, and the sum over a text.

Main statements:
- `Text.BraceFree.quoted`, `Text.BraceFree.quotedAscii`: quoting adds no braces,
- `Layout.text_of_read`: the braces in a layout,
- `Layout.mem_of_place`: what stands around a text that is set.
-/

namespace Nameless

/-! ## Weights -/

namespace Text

/-- The text has no braces in it. -/
def BraceFree (s : List Char) : Prop :=
  ∀ c ∈ s, c ≠ '\x7b' ∧ c ≠ '\x7d'

theorem all_iff_braceFree {s : List Char} :
    (s.all fun c => c != '\x7b' && c != '\x7d') = true ↔ BraceFree s := by
  simp [BraceFree]

instance (s : List Char) : Decidable (BraceFree s) :=
  decidable_of_iff _ all_iff_braceFree

theorem braceFree_nil : BraceFree [] := by decide

theorem braceFree_cons {c : Char} {s : List Char} :
    BraceFree (c :: s) ↔ (c ≠ '\x7b' ∧ c ≠ '\x7d') ∧ BraceFree s :=
  List.forall_mem_cons

theorem braceFree_append {s t : List Char} : BraceFree (s ++ t) ↔ BraceFree s ∧ BraceFree t :=
  List.forall_mem_append

theorem BraceFree.mono {s t : List Char} (h : BraceFree t) (hsub : ∀ c ∈ s, c ∈ t) :
    BraceFree s :=
  fun c hc => h c (hsub c hc)

/-- A number for either brace. -/
structure Weight where
  opening : Int
  closing : Int

namespace Weight

/-- The weight of a character. Only braces have one. -/
def char (w : Weight) (c : Char) : Int :=
  if c = '\x7b' then w.opening else if c = '\x7d' then w.closing else 0

/-- The weight of a text. -/
def text (w : Weight) : List Char → Int
  | [] => 0
  | c :: s => w.char c + w.text s

/-- The number of braces. -/
def count : Weight := ⟨1, 1⟩

/-- How many more opening braces there are than closing ones. -/
def excess : Weight := ⟨1, -1⟩

@[simp] theorem excess_opening : excess.opening = 1 := rfl

@[simp] theorem excess_closing : excess.closing = -1 := rfl

/-- How many more closing braces there are than opening ones. -/
def deficit : Weight := ⟨-1, 1⟩

variable (w : Weight)

@[simp] theorem char_opening : w.char '\x7b' = w.opening := rfl

@[simp] theorem char_closing : w.char '\x7d' = w.closing := rfl

theorem char_of_ne {c : Char} (h : c ≠ '\x7b' ∧ c ≠ '\x7d') : w.char c = 0 := by
  simp [char, h.1, h.2]

@[simp] theorem text_nil : w.text [] = 0 := rfl

@[simp] theorem text_cons (c : Char) (s : List Char) : w.text (c :: s) = w.char c + w.text s := rfl

@[simp] theorem text_append (s t : List Char) : w.text (s ++ t) = w.text s + w.text t := by
  induction s with
  | nil => exact (Int.zero_add _).symm
  | cons c s ih => rw [List.cons_append, text_cons, text_cons, ih, Int.add_assoc]

theorem text_of_braceFree {s : List Char} (h : BraceFree s) : w.text s = 0 := by
  induction s with
  | nil => rfl
  | cons c s ih =>
    rcases braceFree_cons.1 h with ⟨hc, hs⟩
    rw [text_cons, w.char_of_ne hc, ih hs, Int.add_zero]

theorem text_deficit (s : List Char) : deficit.text s = -excess.text s := by
  induction s with
  | nil => rfl
  | cons c s ih =>
    have hc : deficit.char c = -excess.char c := by
      simp only [char, deficit, excess]
      split
      · rfl
      · split <;> rfl
    rw [text_cons, text_cons, hc, ih, Int.neg_add]

theorem char_count_cases (c : Char) :
    (c ≠ '\x7b' ∧ c ≠ '\x7d') ∧ count.char c = 0 ∨ count.char c = 1 := by
  by_cases hopening : c = '\x7b'
  · exact .inr (by rw [hopening]; rfl)
  · by_cases hclosing : c = '\x7d'
    · exact .inr (by rw [hclosing]; rfl)
    · exact .inl ⟨⟨hopening, hclosing⟩, char_of_ne _ ⟨hopening, hclosing⟩⟩

theorem count_nonneg (s : List Char) : 0 ≤ count.text s := by
  induction s with
  | nil => exact Int.le_refl 0
  | cons c s ih =>
    rw [text_cons]
    rcases char_count_cases c with ⟨_, hc⟩ | hc <;> omega

theorem braceFree_of_count {s : List Char} (h : count.text s ≤ 0) : BraceFree s := by
  induction s with
  | nil => exact braceFree_nil
  | cons c s ih =>
    have hs := count_nonneg s
    rw [text_cons] at h
    rcases char_count_cases c with ⟨hne, hc⟩ | hc
    · exact braceFree_cons.2 ⟨hne, ih (by omega)⟩
    · omega

end Weight

/-! ## Digits and quoted texts -/

theorem ne_brace_of_decimalValue? {c : Char} {n : Nat} (h : decimalValue? c = some n) :
    c ≠ '\x7b' ∧ c ≠ '\x7d' := by
  have hopening : decimalValue? '\x7b' = none := by decide
  have hclosing : decimalValue? '\x7d' = none := by decide
  constructor
  · rintro rfl
    simp [hopening] at h
  · rintro rfl
    simp [hclosing] at h

/-- What is split off as a number has no braces in it. -/
theorem leadingDecimalFrom_eq_some {limit : Nat} {value? number? : Option Nat}
    {s rest : List Char} (h : leadingDecimalFrom limit value? s = some (number?, rest)) :
    ∃ digits, s = digits ++ rest ∧ BraceFree digits := by
  induction s generalizing value? with
  | nil =>
    cases h
    exact ⟨[], rfl, braceFree_nil⟩
  | cons c s ih =>
    unfold leadingDecimalFrom at h
    split at h
    · cases h
      exact ⟨[], rfl, braceFree_nil⟩
    · next hdigit =>
      simp only at h
      split at h
      · rcases ih h with ⟨digits, rfl, hdigits⟩
        exact ⟨c :: digits, rfl, braceFree_cons.2 ⟨ne_brace_of_decimalValue? hdigit, hdigits⟩⟩
      · cases h

theorem braceFree_hexDigits (width n : Nat) : BraceFree (hexDigits width n) := by
  have hdigit : ∀ d < 16, Nat.digitChar d ≠ '\x7b' ∧ Nat.digitChar d ≠ '\x7d' := by decide
  induction width generalizing n with
  | zero => exact braceFree_nil
  | succ width ih =>
    have hlast := hdigit (n % 16) (Nat.mod_lt n (by decide))
    exact braceFree_append.2 ⟨ih (n / 16), braceFree_cons.2 ⟨hlast, braceFree_nil⟩⟩

theorem braceFree_codeEscape (c : Char) : BraceFree (codeEscape c) := by
  have hmarks : ∀ mark : Char, (mark ≠ '\x7b' ∧ mark ≠ '\x7d') → ∀ width n,
      BraceFree ('\\' :: mark :: hexDigits width n) := by
    intro mark hmark width n
    exact braceFree_cons.2 ⟨by decide, braceFree_cons.2 ⟨hmark, braceFree_hexDigits width n⟩⟩
  unfold codeEscape
  simp only
  split
  · exact hmarks 'x' (by decide) 2 _
  · split
    · exact hmarks 'u' (by decide) 4 _
    · exact hmarks 'U' (by decide) 8 _

theorem braceFree_escapeChar (mark : Char) {c : Char} (h : c ≠ '\x7b' ∧ c ≠ '\x7d') :
    BraceFree (escapeChar mark c) := by
  have hsingle : BraceFree [c] := braceFree_cons.2 ⟨h, braceFree_nil⟩
  unfold escapeChar
  split
  · exact braceFree_cons.2 ⟨by decide, hsingle⟩
  · split
    · decide
    · split
      · decide
      · split
        · decide
        · split
          · exact hsingle
          · exact braceFree_codeEscape c

theorem ne_brace_quoteMark (s : List Char) : quoteMark s ≠ '\x7b' ∧ quoteMark s ≠ '\x7d' := by
  unfold quoteMark
  split <;> decide

theorem BraceFree.flatMap {s : List Char} {f : Char → List Char} (h : ∀ c ∈ s, BraceFree (f c)) :
    BraceFree (s.flatMap f) := by
  intro d hd
  rcases List.mem_flatMap.1 hd with ⟨c, hc, hdc⟩
  exact h c hc d hdc

theorem BraceFree.quoted {s : List Char} (h : BraceFree s) : BraceFree (quoted s) := by
  have hmark := ne_brace_quoteMark s
  have hbody : BraceFree (s.flatMap (escapeChar (quoteMark s))) :=
    .flatMap fun c hc => braceFree_escapeChar _ (h c hc)
  exact braceFree_append.2
    ⟨braceFree_cons.2 ⟨hmark, hbody⟩, braceFree_cons.2 ⟨hmark, braceFree_nil⟩⟩

theorem BraceFree.quotedAscii {s : List Char} (h : BraceFree s) : BraceFree (quotedAscii s) := by
  refine .flatMap ?_
  intro c hc
  split
  · exact braceFree_cons.2 ⟨h.quoted c hc, braceFree_nil⟩
  · exact braceFree_codeEscape c

end Text

open Text (Weight)

/-! ## Layouts -/

namespace Layout

variable (w : Weight)

theorem char_of_ofChar? {c : Char} {alignment : Alignment}
    (h : Alignment.ofChar? c = some alignment) : w.char c = 0 := by
  refine w.char_of_ne ⟨?_, ?_⟩
  · rintro rfl
    cases h
  · rintro rfl
    cases h

theorem text_readAlignment (s : List Char) :
    w.text s = w.char ((readAlignment s).1.getD ' ') + w.text (readAlignment s).2.2 := by
  have hblank : w.char ' ' = 0 := w.char_of_ne (by decide)
  unfold readAlignment
  split
  · simp [hblank]
  · split
    · next halignment => simp [hblank, char_of_ofChar? w halignment]
    · simp [hblank]
  · split
    · next halignment => simp [char_of_ofChar? w halignment]
    · next halignment => simp [hblank, char_of_ofChar? w halignment]
    · simp [hblank]

theorem text_readSign (s : List Char) : w.text (readSign s).2 = w.text s := by
  unfold readSign
  split <;> simp [w.char_of_ne]

theorem text_readMark {mark : Char} (hmark : mark ≠ '\x7b' ∧ mark ≠ '\x7d') (s : List Char) :
    w.text (readMark mark s).2 = w.text s := by
  unfold readMark
  split
  · rfl
  · split
    · next hc => simp [hc, w.char_of_ne hmark]
    · rfl

theorem text_of_readNumber {s rest : List Char} {number? : Option Nat}
    (h : readNumber s = .ok (number?, rest)) : w.text s = w.text rest := by
  unfold readNumber at h
  split at h
  · next hsplit =>
    cases h
    rcases Text.leadingDecimalFrom_eq_some hsplit with ⟨digits, rfl, hdigits⟩
    rw [w.text_append, w.text_of_braceFree hdigits, Int.zero_add]
  · cases h

theorem text_of_readSeparator {s rest : List Char} {separator? : Option Char}
    (h : readSeparator s = .ok (separator?, rest)) : w.text s = w.text rest := by
  unfold readSeparator at h
  split at h <;> cases h <;> simp [w.char_of_ne]

theorem text_of_readPrecision {s rest : List Char} {precision? : Option Nat}
    (h : readPrecision s = .ok (precision?, rest)) : w.text s = w.text rest := by
  unfold readPrecision at h
  split at h
  · rcases Except.bind_eq_ok h with ⟨⟨number?, after⟩, hnumber, hrest⟩
    cases number? with
    | none => cases hrest
    | some precision =>
      cases hrest
      simp [w.char_of_ne, text_of_readNumber w hnumber]
  · cases h
    rfl

theorem text_readMarks (filled : Bool) (s : List Char) :
    w.text (readMarks filled s).2 = w.text s := by
  have hmarks : w.text (readMark '#' (readMark 'z' (readSign s).2).2).2 = w.text s := by
    rw [text_readMark w (by decide), text_readMark w (by decide), text_readSign]
  unfold readMarks
  cases filled with
  | true => exact hmarks
  | false => exact (text_readMark w (by decide) _).trans hmarks

theorem text_of_readForm {layout rest : List Char} {form : Char}
    (h : readForm layout rest = .ok form) (hform : form = 's') : w.text rest = 0 := by
  unfold readForm at h
  split at h
  · rfl
  · cases h
    simp [hform, w.char_of_ne]
  · cases h

/-- In a layout that a text can be set in, only the filler can be a brace. -/
theorem text_of_read {s : List Char} {layout : Layout} (h : read s = .ok layout)
    (hform : layout.form = 's') : w.text s = w.char layout.filler := by
  simp only [read] at h
  rcases Except.bind_eq_ok h with ⟨⟨width, afterWidth⟩, hwidth, h⟩
  rcases Except.bind_eq_ok h with ⟨⟨separator, afterSeparator⟩, hseparator, h⟩
  rcases Except.bind_eq_ok h with ⟨⟨precision, rest⟩, hprecision, h⟩
  rcases Except.bind_eq_ok h with ⟨form, hread, h⟩
  rcases Except.bind_eq_ok h with ⟨_, _, h⟩
  cases h
  -- Zeros and blanks are no braces.
  have hfiller : ∀ (filler? : Option Char) (zeros : Bool),
      w.char (filler?.getD (if zeros then '0' else ' ')) = w.char (filler?.getD ' ') := by
    intro filler? zeros
    cases filler? with
    | some c => rfl
    | none => cases zeros <;> simp [w.char_of_ne]
  rw [hfiller]
  calc
    w.text s = w.char ((readAlignment s).1.getD ' ') + w.text (readAlignment s).2.2 :=
      text_readAlignment w s
    _ = w.char ((readAlignment s).1.getD ' ') + w.text rest := by
      rw [← text_readMarks w, text_of_readNumber w hwidth, text_of_readSeparator w hseparator,
        text_of_readPrecision w hprecision]
    _ = w.char ((readAlignment s).1.getD ' ') := by
      rw [text_of_readForm w hread hform, Int.add_zero]

theorem form_of_place {layout : Layout} {text out : List Char} (h : layout.place text = .ok out) :
    layout.form = 's' := by
  by_cases hform : layout.form = 's'
  · exact hform
  · simp [place, refusal?, hform] at h

theorem mem_fillUp {layout : Layout} {room : Nat} {text : List Char} {c : Char}
    (h : c ∈ layout.fillUp room text) : c ∈ text ∨ c = layout.filler := by
  simp only [fillUp, List.mem_append, List.mem_replicate] at h
  rcases h with (⟨_, hfiller⟩ | htext) | ⟨_, hfiller⟩
  · exact .inr hfiller
  · exact .inl htext
  · exact .inr hfiller

/-- A text that is set has nothing but the filler around it. -/
theorem mem_of_place {layout : Layout} {text out : List Char} (h : layout.place text = .ok out)
    {c : Char} (hc : c ∈ out) : c ∈ text ∨ c = layout.filler := by
  unfold place at h
  split at h
  · cases h
  · simp only at h
    split at h
    · split at h
      · cases h
        exact (mem_fillUp hc).imp_left List.mem_of_mem_take
      · cases h
    · split at h
      · cases h
        exact mem_fillUp hc
      · cases h

end Layout

end Nameless
