import Nameless.Proofs.Text.Brace
import Nameless.Text.Template.Fill

/-!
# Braces in templates

A template that holds a brace does not come out as it stands. A brace of the result comes from a
doubled brace of the template, because a slot leaves no brace behind: the snippets have none here,
and a column is not filled up with braces. For that its layout would have to hold more braces of one
kind than of the other, but the braces in a layout are balanced, before and after its own slots are
filled in. So the result has at most half as many braces as the template.

This file defines:
- `Slot.written`, `Template.Reading.written`: what has been read of a slot, and of any piece,
- `Slot.Regular`, `Template.Reading.Regular`: what holds of slots, and while pieces are read.

Main statements:
- `Template.braceFree_of_select`: selectors that mean something have no braces,
- `Template.Reading.Regular.next`: what a character does to the weight of what was read,
- `Template.two_mul_text_le`: the weight of a result,
- `Template.fill_eq_self_iff`: which templates come out as they stand.
-/

namespace Nameless

open Text (BraceFree Weight braceFree_nil braceFree_cons braceFree_append)

/-! ## What stands in a slot -/

namespace Template

/-- A text set in a layout with balanced braces has no braces around it. -/
theorem braceFree_of_place {layout text out : List Char} (h : place layout text = .ok out)
    (hlayout : Weight.excess.text layout = 0) (htext : BraceFree text) : BraceFree out := by
  unfold place at h
  split at h
  · next hplace =>
    cases h
    rcases Except.bind_eq_ok hplace with ⟨read, hread, hset⟩
    have hfiller : Weight.excess.char read.filler = 0 := by
      rw [← Layout.text_of_read _ hread (Layout.form_of_place hset), hlayout]
    have hne : read.filler ≠ '\x7b' ∧ read.filler ≠ '\x7d' := by
      constructor
      · intro hbrace
        rw [hbrace] at hfiller
        cases hfiller
      · intro hbrace
        rw [hbrace] at hfiller
        cases hfiller
    intro c hc
    rcases Layout.mem_of_place hset hc with hmem | rfl
    · exact htext c hmem
    · exact hne
  · cases h

theorem braceFree_of_convert {text out : List Char} {conversion : Option Char}
    (h : convert text conversion = .ok out) (htext : BraceFree text) :
    BraceFree out ∧ BraceFree conversion.toList := by
  unfold convert at h
  split at h
  · cases h
    exact ⟨htext, braceFree_nil⟩
  · split at h
    · next hplain =>
      cases h
      refine ⟨htext, ?_⟩
      rcases hplain with rfl | rfl <;> decide
    · split at h
      · next hquoted =>
        cases h
        subst hquoted
        exact ⟨htext.quoted, by decide⟩
      · split at h
        · next hascii =>
          cases h
          subst hascii
          exact ⟨htext.quotedAscii, by decide⟩
        · cases h

/-! ## Selectors -/

theorem braceFree_of_number? {s : List Char} {n : Nat} (h : number? s = .ok (some n)) :
    BraceFree s := by
  unfold number? at h
  split at h
  · cases h
  · next hsplit =>
    rcases Text.leadingDecimalFrom_eq_some hsplit with ⟨digits, rfl, hdigits⟩
    rw [List.append_nil]
    exact hdigits
  · cases h

/-- A key that means a snippet is empty or a number. -/
theorem braceFree_of_key {s : List Char} {key : Key} {numbering after : Numbering} {n : Nat}
    (hread : Key.read s = .ok key) (hnumber : numbering.number key = .ok (n, after)) :
    BraceFree s := by
  rcases Except.bind_eq_ok hread with ⟨number, hnumber?, hkey⟩
  cases s with
  | nil => exact braceFree_nil
  | cons c rest =>
    cases number with
    | some m => exact braceFree_of_number? hnumber?
    | none =>
      cases hkey
      cases numbering <;> cases hnumber

namespace Access

/-- What has been read of an access. -/
def Reading.pending : Reading → List Char
  | between => []
  | part name => name
  | bracket name => name

/-- Of the accesses only a character at a number can be followed. -/
theorem follow_eq_ok {text out : List Char} {access : Access} (h : follow text access = .ok out) :
    ∃ n, access = .character n ∧ ∀ c ∈ out, c ∈ text := by
  cases access with
  | character n =>
    refine ⟨n, rfl, ?_⟩
    unfold follow at h
    simp only at h
    split at h
    · next hget =>
      cases h
      intro d hd
      rcases List.mem_singleton.1 hd with rfl
      exact List.mem_of_getElem? hget
    · cases h
  | part name => cases h
  | named name => cases h
  | fault cause => cases h

theorem braceFree_of_ofBracket {name : List Char} {n : Nat} (h : ofBracket name = .character n) :
    BraceFree name := by
  unfold ofBracket at h
  split at h
  · cases h
  · next hnumber => exact braceFree_of_number? hnumber
  · split at h <;> cases h

theorem not_follow_ofPart {text out name : List Char} : follow text (ofPart name) ≠ .ok out := by
  intro h
  rcases follow_eq_ok h with ⟨n, hn, _⟩
  unfold ofPart at hn
  split at hn <;> cases hn

/-- Accesses that can be followed are written without braces, and lead to a part of the text. -/
theorem braceFree_of_follow {reading : Reading} {s text out : List Char}
    (h : (splitFrom reading s).foldlM follow text = .ok out) :
    BraceFree (reading.pending ++ s) ∧ ∀ c ∈ out, c ∈ text := by
  induction s generalizing reading text with
  | nil =>
    cases reading with
    | between =>
      cases h
      exact ⟨braceFree_nil, fun c hc => hc⟩
    | part name =>
      rcases Except.bind_eq_ok h with ⟨_, hfollow, _⟩
      exact absurd hfollow not_follow_ofPart
    | bracket name => cases h
  | cons c s ih =>
    cases reading with
    | between =>
      unfold splitFrom at h
      split at h
      · next hc =>
        rcases ih h with ⟨hs, hout⟩
        exact ⟨braceFree_cons.2 ⟨by simp [hc], hs⟩, hout⟩
      · split at h
        · next hc =>
          rcases ih h with ⟨hs, hout⟩
          exact ⟨braceFree_cons.2 ⟨by simp [hc], hs⟩, hout⟩
        · cases h
    | part name =>
      unfold splitFrom at h
      split at h
      · rcases Except.bind_eq_ok h with ⟨_, hfollow, _⟩
        exact absurd hfollow not_follow_ofPart
      · split at h
        · rcases Except.bind_eq_ok h with ⟨_, hfollow, _⟩
          exact absurd hfollow not_follow_ofPart
        · rcases ih h with ⟨hs, hout⟩
          exact ⟨by simpa [Reading.pending] using hs, hout⟩
    | bracket name =>
      unfold splitFrom at h
      split at h
      · next hc =>
        rcases Except.bind_eq_ok h with ⟨next, hfollow, hrest⟩
        rcases follow_eq_ok hfollow with ⟨n, hn, hnext⟩
        rcases ih hrest with ⟨hs, hout⟩
        have hname : BraceFree name := braceFree_of_ofBracket hn
        exact ⟨braceFree_append.2 ⟨hname, braceFree_cons.2 ⟨by simp [hc], hs⟩⟩,
          fun d hd => hnext d (hout d hd)⟩
      · rcases ih h with ⟨hs, hout⟩
        exact ⟨by simpa [Reading.pending] using hs, hout⟩

end Access

/-- A selector that means something is written without braces. -/
theorem braceFree_of_select {snippets : List String}
    (hsnippets : ∀ t ∈ snippets, BraceFree t.toList) {numbering after : Numbering}
    {selector text : List Char} (h : select snippets numbering selector = .ok (text, after)) :
    BraceFree selector ∧ BraceFree text := by
  rcases Except.bind_eq_ok h with ⟨key, hkey, h⟩
  rcases Except.bind_eq_ok h with ⟨⟨n, numbered⟩, hnumber, h⟩
  simp only at h
  split at h
  · cases h
  · next snippet hget =>
    rcases Except.bind_eq_ok h with ⟨out, hfollow, hdone⟩
    cases hdone
    rcases Access.braceFree_of_follow hfollow with ⟨haccesses, hout⟩
    have hfront := braceFree_of_key hkey hnumber
    have hsnippet := hsnippets snippet (List.mem_of_getElem? hget)
    refine ⟨?_, hsnippet.mono hout⟩
    have hparts : selector.takeWhile (!startsAccess ·) ++ selector.dropWhile (!startsAccess ·) =
        selector := List.takeWhile_append_dropWhile
    rw [← hparts]
    exact braceFree_append.2 ⟨hfront, haccesses⟩

end Template

/-! ## Slots -/

/-- What is written in a slot, less the signs between its parts. -/
def Slot.written (slot : Slot) : List Char :=
  slot.selector ++ (slot.conversion.toList ++ slot.layout)

/-- The braces in the layout of a slot are balanced, and there are none if it holds no slots. -/
structure Slot.Regular (slot : Slot) : Prop where
  balanced : Weight.excess.text slot.layout = 0
  braceFree : slot.nested = false → BraceFree slot.layout

theorem Slot.regular_of_layout {slot : Slot} (h : slot.layout = []) : slot.Regular := by
  constructor
  · rw [h]
    rfl
  · intro _
    rw [h]
    exact braceFree_nil

theorem Slot.text_longer_selector (w : Weight) (slot : Slot) (c : Char) :
    w.text ({ slot with selector := slot.selector ++ [c] } : Slot).written =
      w.text slot.written + w.char c := by
  simp only [written, Weight.text_append, Weight.text_cons, Weight.text_nil]
  omega

theorem Slot.text_longer_layout (w : Weight) (slot : Slot) (c : Char) (nested : Bool) :
    w.text ({ slot with layout := slot.layout ++ [c], nested := nested } : Slot).written =
      w.text slot.written + w.char c := by
  simp only [written, Weight.text_append, Weight.text_cons, Weight.text_nil]
  omega

namespace Template

/-- The parts of a slot that is filled in. -/
theorem fillSlot_eq_ok {expand : Filling} {snippets : List String} {numbering after : Numbering}
    {slot : Slot} {out : List Char}
    (h : fillSlot expand snippets numbering slot = .ok (out, after)) :
    ∃ taken selected converted layout,
      select snippets numbering slot.selector = .ok (taken, selected) ∧
      convert taken slot.conversion = .ok converted ∧
      (slot.nested = true ∧ expand selected slot.layout = .ok (layout, after) ∨
        slot.nested = false ∧ layout = slot.layout) ∧
      place layout converted = .ok out := by
  rcases Except.bind_eq_ok h with ⟨⟨taken, selected⟩, hselect, h⟩
  rcases Except.bind_eq_ok h with ⟨converted, hconvert, h⟩
  cases hnested : slot.nested with
  | true =>
    rw [hnested] at h
    rcases Except.bind_eq_ok h with ⟨⟨layout, numbered⟩, hlayout, h⟩
    rcases Except.bind_eq_ok h with ⟨placed, hplace, hdone⟩
    cases hdone
    exact ⟨taken, selected, converted, layout, hselect, hconvert, .inl ⟨rfl, hlayout⟩, hplace⟩
  | false =>
    rw [hnested] at h
    rcases Except.bind_eq_ok h with ⟨_, hlayout, h⟩
    cases hlayout
    rcases Except.bind_eq_ok h with ⟨placed, hplace, hdone⟩
    cases hdone
    exact ⟨taken, _, converted, _, hselect, hconvert, .inr ⟨rfl, rfl⟩, hplace⟩

section Slots

variable {expand : Filling} {snippets : List String} {numbering after : Numbering} {slot : Slot}
  {out : List Char}

/-- A slot leaves no braces behind if filling in keeps layouts balanced. -/
theorem braceFree_of_fillSlot (hsnippets : ∀ t ∈ snippets, BraceFree t.toList)
    (hexpand : ∀ {numbering after layout out}, expand numbering layout = .ok (out, after) →
      Weight.excess.text layout = 0 → Weight.excess.text out = 0)
    (hslot : slot.Regular) (h : fillSlot expand snippets numbering slot = .ok (out, after)) :
    BraceFree out := by
  rcases fillSlot_eq_ok h with ⟨_, _, _, _, hselect, hconvert, hlayout, hplace⟩
  have htaken := (braceFree_of_select hsnippets hselect).2
  have hconverted := (braceFree_of_convert hconvert htaken).1
  refine braceFree_of_place hplace ?_ hconverted
  rcases hlayout with ⟨_, hlayout⟩ | ⟨_, rfl⟩
  · exact hexpand hlayout hslot.balanced
  · exact hslot.balanced

/-- A slot whose layout may hold no slots has no braces inside. -/
theorem braceFree_written (hsnippets : ∀ t ∈ snippets, BraceFree t.toList) (hslot : slot.Regular)
    (h : fillSlot (fillTo snippets 0) snippets numbering slot = .ok (out, after)) :
    BraceFree slot.written := by
  rcases fillSlot_eq_ok h with ⟨_, _, _, _, hselect, hconvert, hlayout, _⟩
  rcases braceFree_of_select hsnippets hselect with ⟨hselector, htaken⟩
  have hconversion := (braceFree_of_convert hconvert htaken).2
  rcases hlayout with ⟨_, hdeep⟩ | ⟨hplain, _⟩
  · cases hdeep
  · exact braceFree_append.2
      ⟨hselector, braceFree_append.2 ⟨hconversion, hslot.braceFree hplain⟩⟩

end Slots

/-! ## Reading a template -/

/-- What has been read of a piece, less the signs between the parts of a slot. -/
def Reading.written : Reading → List Char
  | text => []
  | opened => ['\x7b']
  | closed => ['\x7d']
  | selector slot => '\x7b' :: slot.written
  | bracket slot => '\x7b' :: slot.written
  | conversion slot => '\x7b' :: slot.written
  | converted slot => '\x7b' :: slot.written
  | layout slot _ => '\x7b' :: slot.written

/-- The parts of a slot are read one after the other, and in its layout as many slots are open as
there are braces to close. -/
def Reading.Regular : Reading → Prop
  | text => True
  | opened => True
  | closed => True
  | selector slot => slot.conversion = none ∧ slot.layout = []
  | bracket slot => slot.conversion = none ∧ slot.layout = []
  | conversion slot => slot.conversion = none ∧ slot.layout = []
  | converted slot => slot.layout = []
  | layout slot depth =>
    Weight.excess.text slot.layout = depth ∧ (slot.nested = false → BraceFree slot.layout)

theorem Reading.regular_text : Reading.text.Regular :=
  trivial

/-- What was read before a character, and the character, is what comes out of it: it is part of a
piece, or makes a literal of half its weight, or a slot of the weight that stands in the slot. -/
def Advance.Keeps (before : List Char) : Advance → Prop
  | within reading => reading.Regular ∧ ∀ w : Weight, w.text reading.written = w.text before
  | completes (.literal c) => ∀ w : Weight, 2 * w.char c = w.text before
  | completes (.slot slot) =>
    slot.Regular ∧ ∀ w : Weight, w.opening + w.text slot.written + w.closing = w.text before
  | completes (.fault _) => True

theorem keeps_nextInSelector {slot : Slot} (hconversion : slot.conversion = none)
    (hlayout : slot.layout = []) (c : Char) :
    (nextInSelector slot c).Keeps ('\x7b' :: slot.written ++ [c]) := by
  have hregular := Slot.regular_of_layout hlayout
  have hlonger := fun w => Slot.text_longer_selector w slot c
  unfold nextInSelector
  simp only
  split
  · trivial
  · split
    · -- A closing brace completes the slot.
      next hc => exact ⟨hregular, fun w => by simp [hc, Int.add_assoc]⟩
    · split
      · -- The signs in front of a layout and of a conversion have no weight.
        next hc =>
        refine ⟨⟨hregular.balanced, hregular.braceFree⟩, ?_⟩
        intro w
        simp [Reading.written, hc, w.char_of_ne]
      · split
        · next hc =>
          refine ⟨⟨hconversion, hlayout⟩, ?_⟩
          intro w
          simp [Reading.written, hc, w.char_of_ne]
        · split
          · exact ⟨⟨hconversion, hlayout⟩, fun w => by simp [Reading.written, hlonger w]⟩
          · exact ⟨⟨hconversion, hlayout⟩, fun w => by simp [Reading.written, hlonger w]⟩

theorem keeps_nextInLayout {slot : Slot} {depth : Nat}
    (hexcess : Weight.excess.text slot.layout = depth)
    (hplain : slot.nested = false → BraceFree slot.layout) (c : Char) :
    (nextInLayout slot depth c).Keeps ('\x7b' :: slot.written ++ [c]) := by
  have hlonger := fun w => Slot.text_longer_layout w slot c
  unfold nextInLayout
  simp only
  split
  · next hc =>
    refine ⟨⟨?_, nofun⟩, fun w => by simp [Reading.written, hlonger w]⟩
    simp [hexcess, hc]
  · next hopening =>
    split
    · next hc =>
      split
      · exact ⟨⟨hexcess, hplain⟩, fun w => by simp [hc, Int.add_assoc]⟩
      · refine ⟨⟨?_, ?_⟩, fun w => by simp [Reading.written, hlonger w]⟩
        · simp only [Weight.text_append, Weight.text_cons, Weight.text_nil, hexcess, hc,
            Weight.char_closing, Weight.excess_closing]
          omega
        · -- A slot is open in the layout, so the layout has a brace in it.
          intro hnested
          have hzero := Weight.excess.text_of_braceFree (hplain hnested)
          omega
    · next hclosing =>
      have hc := And.intro hopening hclosing
      refine ⟨⟨?_, ?_⟩, fun w => by simp [Reading.written, hlonger w]⟩
      · simp [hexcess, Weight.excess.char_of_ne hc]
      · intro hnested
        exact braceFree_append.2 ⟨hplain hnested, braceFree_cons.2 ⟨hc, braceFree_nil⟩⟩

/-- Reading a character keeps the weight of what was read. -/
theorem Reading.Regular.next {reading : Reading} (h : reading.Regular) (c : Char) :
    (reading.next c).Keeps (reading.written ++ [c]) := by
  cases reading with
  | text =>
    simp only [Reading.next]
    split
    · next hc => exact ⟨trivial, fun w => by simp [Reading.written, hc]⟩
    · next hopening =>
      split
      · next hc => exact ⟨trivial, fun w => by simp [Reading.written, hc]⟩
      · next hclosing =>
        intro w
        simp [Reading.written, w.char_of_ne ⟨hopening, hclosing⟩]
  | opened =>
    simp only [Reading.next]
    split
    · -- The doubled brace has the weight of two, and stands for one.
      next hc =>
      intro w
      simp [Reading.written, hc, Int.two_mul]
    · exact keeps_nextInSelector rfl rfl c
  | closed =>
    simp only [Reading.next]
    split
    · next hc =>
      intro w
      simp [Reading.written, hc, Int.two_mul]
    · trivial
  | selector slot => exact keeps_nextInSelector h.1 h.2 c
  | bracket slot =>
    rcases h with ⟨hconversion, hlayout⟩
    have hlonger := fun w => Slot.text_longer_selector w slot c
    simp only [Reading.next]
    split
    · exact ⟨⟨hconversion, hlayout⟩, fun w => by simp [Reading.written, hlonger w]⟩
    · exact ⟨⟨hconversion, hlayout⟩, fun w => by simp [Reading.written, hlonger w]⟩
  | conversion slot =>
    rcases h with ⟨hconversion, hlayout⟩
    refine ⟨hlayout, ?_⟩
    intro w
    simp [Reading.written, Slot.written, hconversion, hlayout]
  | converted slot =>
    have hregular := Slot.regular_of_layout h
    simp only [Reading.next]
    split
    · next hc => exact ⟨hregular, fun w => by simp [Reading.written, hc, Int.add_assoc]⟩
    · split
      · next hc =>
        refine ⟨⟨hregular.balanced, hregular.braceFree⟩, ?_⟩
        intro w
        simp [Reading.written, hc, w.char_of_ne]
      · trivial
  | layout slot depth => exact keeps_nextInLayout h.1 h.2 c

/-! ## Filling in -/

/-- A result has at most half the weight of its template, if slots leave nothing behind and what
they are made of has no less than no weight. -/
theorem two_mul_text_le {expand : Filling} {snippets : List String} {w : Weight}
    (hslot : ∀ {slot numbering after out}, slot.Regular →
      fillSlot expand snippets numbering slot = .ok (out, after) →
      w.text out = 0 ∧ 0 ≤ w.opening + w.text slot.written + w.closing)
    {s : List Char} {reading : Reading} (hreading : reading.Regular) {numbering after : Numbering}
    {out : List Char}
    (h : fillPieces expand snippets numbering (piecesFrom reading s) = .ok (out, after)) :
    2 * w.text out ≤ w.text reading.written + w.text s := by
  induction s generalizing reading numbering out with
  | nil =>
    cases reading with
    | text =>
      cases h
      exact Int.le_refl 0
    | _ => cases h
  | cons c s ih =>
    have hkeeps := hreading.next c
    have hbefore : w.text (reading.written ++ [c]) = w.text reading.written + w.char c := by simp
    rw [Weight.text_cons]
    unfold piecesFrom at h
    cases hnext : reading.next c with
    | within inside =>
      rw [hnext] at h hkeeps
      rcases hkeeps with ⟨hregular, hweight⟩
      have hrest := ih hregular h
      rw [hweight, hbefore] at hrest
      omega
    | completes piece =>
      rw [hnext] at h hkeeps
      cases piece with
      | literal d =>
        have hweight := hkeeps w
        rcases Except.bind_eq_ok h with ⟨⟨rest, numbered⟩, hrest, hdone⟩
        cases hdone
        have hle := ih Reading.regular_text hrest
        simp only [Reading.written, Weight.text_nil] at hle
        rw [Weight.text_cons]
        omega
      | slot slot =>
        rcases hkeeps with ⟨hregular, hweight⟩
        rcases Except.bind_eq_ok h with ⟨⟨first, numbered⟩, hfirst, h⟩
        rcases Except.bind_eq_ok h with ⟨⟨rest, numbered'⟩, hrest, hdone⟩
        cases hdone
        have hle := ih Reading.regular_text hrest
        simp only [Reading.written, Weight.text_nil] at hle
        rcases hslot hregular hfirst with ⟨hnone, hwritten⟩
        rw [hweight w] at hwritten
        rw [Weight.text_append]
        omega
      | fault fault => cases h

section Snippets

variable {snippets : List String} (hsnippets : ∀ t ∈ snippets, BraceFree t.toList)
include hsnippets

/-- Filling in the slots of a layout keeps its braces balanced. -/
theorem excess_of_fillTo_one {numbering after : Numbering} {layout out : List Char}
    (h : fillTo snippets 1 numbering layout = .ok (out, after))
    (hbalanced : Weight.excess.text layout = 0) : Weight.excess.text out = 0 := by
  have hslot : ∀ (w : Weight), w.opening + w.closing = 0 →
      ∀ {slot numbering after out}, slot.Regular →
        fillSlot (fillTo snippets 0) snippets numbering slot = .ok (out, after) →
        w.text out = 0 ∧ 0 ≤ w.opening + w.text slot.written + w.closing := by
    intro w hw slot numbering after out hregular hfill
    have hwritten := w.text_of_braceFree (braceFree_written hsnippets hregular hfill)
    have hdeep : ∀ {numbering after layout out},
        fillTo snippets 0 numbering layout = .ok (out, after) →
        Weight.excess.text layout = 0 → Weight.excess.text out = 0 := by
      intro _ _ _ _ hfailed
      cases hfailed
    have hout := braceFree_of_fillSlot hsnippets hdeep hregular hfill
    exact ⟨w.text_of_braceFree hout, by omega⟩
  -- Neither kind of brace can be in excess.
  have hexcess := two_mul_text_le (hslot .excess rfl) Reading.regular_text h
  have hdeficit := two_mul_text_le (hslot .deficit rfl) Reading.regular_text h
  simp only [Reading.written, Weight.text_nil, Weight.text_deficit] at hexcess hdeficit
  omega

/-- A result has at most half as many braces as its template. -/
theorem two_mul_count_le {numbering after : Numbering} {template out : List Char}
    (h : fillTo snippets maxDepth numbering template = .ok (out, after)) :
    2 * Weight.count.text out ≤ Weight.count.text template := by
  refine Int.le_trans (two_mul_text_le ?_ Reading.regular_text h) ?_
  · intro slot numbering after out hregular hfill
    have hexpand : ∀ {numbering after layout out},
        fillTo snippets 1 numbering layout = .ok (out, after) →
        Weight.excess.text layout = 0 → Weight.excess.text out = 0 :=
      excess_of_fillTo_one hsnippets
    have hout := braceFree_of_fillSlot hsnippets hexpand hregular hfill
    have hwritten := Weight.count_nonneg slot.written
    refine ⟨Weight.count.text_of_braceFree hout, ?_⟩
    change 0 ≤ 1 + Weight.count.text slot.written + 1
    omega
  · simp [Reading.written]

/-- A template comes out as it stands just if it has no braces. -/
theorem fill_eq_self_iff {template : String} :
    fill template snippets = .ok template ↔ BraceFree template.toList := by
  constructor
  · intro h
    rcases Except.bind_eq_ok h with ⟨⟨out, after⟩, hfill, hdone⟩
    have hout : out = template.toList := by
      cases hdone
      rw [String.toList_ofList]
    subst hout
    have hle := two_mul_count_le hsnippets hfill
    exact Weight.braceFree_of_count (by omega)
  · intro h
    exact fill_of_no_brace snippets h

end Snippets

end Template
end Nameless
