/-!
# Identifiers in order

Bound variables need names. The lower-case identifiers are numbered by length and then
alphabetically: `a`, `b`, …, `z`, `aa`, `ab`, … Binders that lost their names take them from this
numbering, leaving out the names that are spoken for.

This file provides:
- `isLower`, `isUpperOrDigit`: the characters of the names of variables, and of definitions,
- `Identifier.nth`: the identifier with a given number,
- `Identifier.firstFresh`: the least number, from a given one on, whose identifier is not reserved.
-/

namespace Nameless

/-- The characters of the names of variables. -/
def isLower (c : Char) : Bool :=
  'a' ≤ c && c ≤ 'z'

/-- The characters of the names of definitions. -/
def isUpperOrDigit (c : Char) : Bool :=
  ('A' ≤ c && c ≤ 'Z') || ('0' ≤ c && c ≤ '9')

namespace Identifier

/-- The letter with a number below twenty-six. -/
def letter (n : Nat) : Char :=
  Char.ofNat ('a'.toNat + n)

/-- The letters of the identifier numbered `n`, in front of the letters `tail`. The last letter is
the remainder of `n` by twenty-six, and what stands before it is numbered by the quotient less
one. -/
def spell (n : Nat) (tail : List Char) : List Char :=
  if n < 26 then letter n :: tail else spell (n / 26 - 1) (letter (n % 26) :: tail)
termination_by n
decreasing_by omega

/-- Letters are lower-case. -/
theorem isLower_letter : ∀ n < 26, isLower (letter n) = true := by
  decide

/-- Identifiers are spelled with lower-case letters. -/
theorem isLower_of_mem_spell {n : Nat} {tail : List Char} (h : ∀ c ∈ tail, isLower c = true) :
    ∀ c ∈ spell n tail, isLower c = true := by
  fun_induction spell n tail with
  | case1 n tail hn =>
    intro c hc
    rcases List.mem_cons.1 hc with rfl | hc
    · exact isLower_letter n hn
    · exact h c hc
  | case2 n tail hn ih =>
    apply ih
    intro c hc
    rcases List.mem_cons.1 hc with rfl | hc
    · exact isLower_letter (n % 26) (Nat.mod_lt n (by decide))
    · exact h c hc

/-- No identifier is empty. -/
theorem spell_ne_nil (n : Nat) (tail : List Char) : spell n tail ≠ [] := by
  fun_induction spell n tail with
  | case1 n tail hn => exact List.cons_ne_nil _ _
  | case2 n tail hn ih => exact ih

/-- The identifier numbered `n`. -/
def nth (n : Nat) : String :=
  String.ofList (spell n [])

/-- The least number from `n` on whose identifier is not reserved, looking at no more than `fuel`
identifiers. -/
def search (reserved : List String) : (fuel : Nat) → Nat → Nat
  | 0, n => n
  | fuel + 1, n => if nth n ∈ reserved then search reserved fuel (n + 1) else n

/-- A search never goes back. -/
theorem le_search (reserved : List String) (fuel n : Nat) : n ≤ search reserved fuel n := by
  induction fuel generalizing n with
  | zero => exact Nat.le_refl n
  | succ fuel ih =>
    simp only [search]
    split
    · exact Nat.le_trans (Nat.le_succ n) (ih (n + 1))
    · exact Nat.le_refl n

/-- The least number from `n` on whose identifier is not reserved. Distinct numbers have distinct
identifiers, so as many looks as there are reserved names suffice. -/
def firstFresh (reserved : List String) (n : Nat) : Nat :=
  search reserved reserved.length n

end Identifier
end Nameless
