import Mathlib.Data.List.Nodup
import Mathlib.Data.List.Perm.Subperm
import Nameless.Identifier

/-!
# Fresh identifiers

An identifier can be read back as its number, so distinct numbers have distinct identifiers. Then
the search for an identifier that is not reserved, which looks at no more identifiers than there are
reserved names and takes the next one unseen, never ends at a reserved one.

Main statements:
- `Identifier.nth_injective`: distinct numbers have distinct identifiers,
- `Identifier.nth_firstFresh_not_mem`: the identifier that is found is not reserved.
-/

namespace Nameless
namespace Identifier

/-! ## Reading identifiers -/

/-- The place of a letter in the alphabet, counted from one. -/
def letterRank (c : Char) : Nat :=
  c.toNat - 'a'.toNat + 1

/-- Appends a letter to the letters read so far, where the identifiers read so far are `v`. -/
def extendRank (v : Nat) (c : Char) : Nat :=
  26 * v + letterRank c

/-- How many identifiers there are up to the one that some letters spell. -/
def rank (cs : List Char) : Nat :=
  cs.foldl extendRank 0

theorem letterRank_letter : ∀ n < 26, letterRank (letter n) = n + 1 := by
  decide

theorem rank_spell (n : Nat) (tail : List Char) :
    rank (spell n tail) = tail.foldl extendRank (n + 1) := by
  fun_induction spell n tail with
  | case1 n tail hn =>
    have hrank : extendRank 0 (letter n) = n + 1 := by
      simp [extendRank, letterRank_letter n hn]
    rw [rank, List.foldl_cons, hrank]
  | case2 n tail hn ih =>
    have hlast : n % 26 < 26 := Nat.mod_lt n (by decide)
    -- What stands before the last letter is numbered one less than the quotient.
    have hrank : extendRank (n / 26 - 1 + 1) (letter (n % 26)) = n + 1 := by
      rw [extendRank, letterRank_letter (n % 26) hlast]
      omega
    rw [ih, List.foldl_cons, hrank]

theorem rank_nth (n : Nat) : rank (nth n).toList = n + 1 := by
  rw [nth, String.toList_ofList, rank_spell]
  rfl

theorem nth_injective {m n : Nat} (h : nth m = nth n) : m = n := by
  have hrank : rank (nth m).toList = rank (nth n).toList := by rw [h]
  rw [rank_nth, rank_nth] at hrank
  exact Nat.succ.inj hrank

/-! ## Searching -/

/-- A search that ends at a reserved identifier has met nothing but reserved ones. -/
theorem nth_mem_of_search_mem {reserved : List String} {fuel n : Nat}
    (h : nth (search reserved fuel n) ∈ reserved) : ∀ k ≤ fuel, nth (n + k) ∈ reserved := by
  induction fuel generalizing n with
  | zero =>
    intro k hk
    have hzero : k = 0 := Nat.le_zero.1 hk
    subst hzero
    exact h
  | succ fuel ih =>
    intro k hk
    by_cases hn : nth n ∈ reserved
    · have hrest : nth (search reserved fuel (n + 1)) ∈ reserved := by
        simpa [search, hn] using h
      cases k with
      | zero => exact hn
      | succ k =>
        have hk' := ih hrest k (Nat.le_of_succ_le_succ hk)
        rwa [Nat.add_assoc, Nat.add_comm 1 k] at hk'
    · have hstop : search reserved (fuel + 1) n = n := by simp [search, hn]
      rw [hstop] at h
      exact absurd h hn

theorem nth_firstFresh_not_mem (reserved : List String) (n : Nat) :
    nth (firstFresh reserved n) ∉ reserved := by
  intro h
  have hall := nth_mem_of_search_mem h
  -- One more identifier than there are reserved names would be reserved.
  have hnodup : ((List.range (reserved.length + 1)).map fun k => nth (n + k)).Nodup := by
    refine List.Nodup.map ?_ List.nodup_range
    intro k l hkl
    have hsum := nth_injective hkl
    omega
  have hsubset : ((List.range (reserved.length + 1)).map fun k => nth (n + k)) ⊆ reserved := by
    intro name hname
    rcases List.mem_map.1 hname with ⟨k, hk, rfl⟩
    exact hall k (Nat.le_of_lt_succ (List.mem_range.1 hk))
  have hlength := (List.subperm_of_subset hnodup hsubset).length_le
  rw [List.length_map, List.length_range] at hlength
  omega

end Identifier
end Nameless
