/-!
# Slices with signed bounds

A bound of a slice is an integer. A negative bound counts from the end, a bound outside the text is
moved to the nearest end, and a slice whose bounds are inverted is empty.

This file provides:
- `cut`: the position in a text of a given length that a bound stands for,
- `before`, `between`, `after`: the three slices that two bounds leave,
- `fill`: a run of one character, with `Misfit` and `misfit?` for runs that cannot be written.
-/

namespace Nameless
namespace Text

/-- The position that a signed bound denotes in a text of length `n`. -/
def cut (n : Nat) (i : Int) : Nat :=
  if i < 0 then (n + i).toNat else min i.toNat n

/-- The part before a bound. -/
def before (s : List Char) (i : Int) : List Char :=
  s.take (cut s.length i)

/-- The part from one bound up to another. -/
def between (s : List Char) (i j : Int) : List Char :=
  (s.take (cut s.length j)).drop (cut s.length i)

/-- The part from a bound on. -/
def after (s : List Char) (i : Int) : List Char :=
  s.drop (cut s.length i)

/-- A bound that does not count from the end denotes itself, or the end of the text. -/
theorem cut_eq_min (n k : Nat) : cut n k = min k n := by
  unfold cut
  split <;> omega

/-- A bound that is a position of the text denotes itself. -/
theorem cut_natCast {n k : Nat} (h : k ≤ n) : cut n k = k := by
  rw [cut_eq_min, Nat.min_eq_left h]

/-! A text that is put together from parts is cut where they meet. -/

theorem before_append (s t : List Char) : before (s ++ t) s.length = s := by
  rw [before, cut_natCast (by simp)]
  exact List.take_left

theorem after_append (s t : List Char) : after (s ++ t) s.length = t := by
  rw [after, cut_natCast (by simp)]
  exact List.drop_left

theorem between_append (s t u : List Char) :
    between (s ++ (t ++ u)) s.length (s ++ t).length = t := by
  rw [between, cut_natCast (by simp), cut_natCast (by simp), ← List.append_assoc, List.take_left]
  exact List.drop_left

/-- Repeats a character; a count that is not positive gives nothing. -/
def fill (c : Char) (count : Int) : List Char :=
  List.replicate count.toNat c

/-- The greatest index. -/
def maxIndex : Nat := 0x7fffffffffffffff

/-- The longest run of one character that is kept in memory. -/
def maxRun : Nat := 1000000000

/-- Why a run of one character cannot be written. -/
inductive Misfit where
  /-- Its length is no index, on either side of zero. -/
  | beyondIndex
  | beyondMemory
  deriving DecidableEq, Repr

/-- Why a run of `count` times one character cannot be written, if so. -/
def misfit? (count : Int) : Option Misfit :=
  if count < -maxIndex - 1 ∨ maxIndex < count then some .beyondIndex
  else if maxRun < count then some .beyondMemory
  else none

end Text
end Nameless
