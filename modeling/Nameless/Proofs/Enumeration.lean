import Mathlib.Data.Char
import Mathlib.Data.List.Induction
import Mathlib.Data.List.Shortlex
import Nameless.Proofs.Identifier
import Nameless.Proofs.Named.Token

/-!
# The identifiers in order

The numbering of identifiers passes through all the names that a variable can have, each of them
once, shorter ones first and names of one length alphabetically.

Names are compared by reading them as numbers. Each letter stands for one to twenty-six, so there is
no digit zero: a number that is one ahead of another stays ahead, whatever letters are read after
the two. This settles names of one length at the first letter in which they differ, and a longer
name against a shorter one at the letters that it has in excess.

Main statements:
- `Identifier.spell_rank`: a name is spelled from the number that it is read as,
- `Identifier.foldl_extendRank_lt`: a lead is not lost while letters are read,
- `Identifier.rank_lt_of_shortlex`: reading keeps the order,
- `Identifier.nth_enumerates_variables`: identifiers are numbered in order and without gaps.
-/

namespace Nameless
namespace Identifier

/-! ## Letters -/

theorem letterRank_eq {c : Char} (h : isLower c = true) : letterRank c + 96 = c.toNat := by
  have hcode := toNat_of_isLower h
  have hfirst : 'a'.toNat = 97 := rfl
  rw [letterRank, hfirst]
  omega

theorem letterRank_bounds {c : Char} (h : isLower c = true) :
    1 ≤ letterRank c ∧ letterRank c ≤ 26 := by
  have hcode := toNat_of_isLower h
  have hrank := letterRank_eq h
  omega

theorem letter_letterRank {c : Char} (h : isLower c = true) : letter (letterRank c - 1) = c := by
  have hcode : 'a'.toNat + (letterRank c - 1) = c.toNat := by
    have hrank := letterRank_eq h
    have hbounds := letterRank_bounds h
    have hfirst : 'a'.toNat = 97 := rfl
    omega
  rw [letter, hcode, Char.ofNat_toNat]

theorem letterRank_lt_letterRank {c d : Char} (hc : isLower c = true) (hd : isLower d = true)
    (h : c < d) : letterRank c < letterRank d := by
  have hcode : c.toNat < d.toNat := h
  have hrank := letterRank_eq hc
  have hrank' := letterRank_eq hd
  omega

/-! ## Spelling what was read -/

theorem rank_concat (cs : List Char) (c : Char) :
    rank (cs ++ [c]) = 26 * rank cs + letterRank c := by
  rw [rank, List.foldl_append]
  rfl

theorem rank_pos {cs : List Char} (hne : cs ≠ []) : 0 < rank cs := by
  rcases List.eq_nil_or_concat cs with rfl | ⟨front, c, rfl⟩
  · exact absurd rfl hne
  · rw [List.concat_eq_append, rank_concat, letterRank]
    omega

/-- The identifier whose number is one less than what some letters are read as has these letters. -/
theorem spell_rank {cs : List Char} (hne : cs ≠ []) (hlower : ∀ c ∈ cs, isLower c = true)
    (tail : List Char) : spell (rank cs - 1) tail = cs ++ tail := by
  -- Spelling starts at the last letter, so the induction takes letters off there.
  induction cs using List.reverseRecOn generalizing tail with
  | nil => exact absurd rfl hne
  | append_singleton cs c ih =>
    have hc : isLower c = true := hlower c (by simp)
    have hbounds := letterRank_bounds hc
    rw [rank_concat]
    by_cases hcs : cs = []
    · subst hcs
      have hsmall : 26 * rank [] + letterRank c - 1 = letterRank c - 1 := by
        simp [rank]
      rw [hsmall, spell, if_pos (by omega), letter_letterRank hc]
      rfl
    · have hfront := ih hcs (fun d hd => hlower d (by simp [hd])) (c :: tail)
      have hpos := rank_pos hcs
      have hquotient : (26 * rank cs + letterRank c - 1) / 26 - 1 = rank cs - 1 := by omega
      have hlast : (26 * rank cs + letterRank c - 1) % 26 = letterRank c - 1 := by omega
      rw [spell, if_neg (by omega), hquotient, hlast, letter_letterRank hc, hfront,
        List.append_assoc, List.singleton_append]

/-! ## Reading in order -/

/-- A number that is ahead stays ahead, whatever letters are read after it and after the other. -/
theorem foldl_extendRank_lt {u v : Nat} (h : u < v) {xs ys : List Char}
    (hlength : xs.length = ys.length) (hx : ∀ c ∈ xs, isLower c = true) :
    xs.foldl extendRank u < ys.foldl extendRank v := by
  induction xs generalizing u v ys with
  | nil =>
    cases ys with
    | nil => exact h
    | cons d ys => cases hlength
  | cons c xs ih =>
    cases ys with
    | nil => cases hlength
    | cons d ys =>
      rcases List.forall_mem_cons.1 hx with ⟨hc, hx⟩
      -- At most twenty-six is added to the one, and at least one to the other.
      have hstep : extendRank u c < extendRank v d := by
        have hbounds := letterRank_bounds hc
        have hpos : 0 < letterRank d := Nat.succ_pos _
        rw [extendRank, extendRank]
        omega
      exact ih hstep (Nat.succ.inj hlength) hx

theorem foldl_extendRank_lt_of_lex {xs ys : List Char} (h : List.Lex (· < ·) xs ys)
    (hlength : xs.length = ys.length) (hx : ∀ c ∈ xs, isLower c = true)
    (hy : ∀ c ∈ ys, isLower c = true) (v : Nat) :
    xs.foldl extendRank v < ys.foldl extendRank v := by
  -- Letters that agree change both numbers alike, and the first difference is a lead.
  induction h generalizing v with
  | nil => cases hlength
  | cons _ ih =>
    exact ih (Nat.succ.inj hlength) (List.forall_mem_cons.1 hx).2 (List.forall_mem_cons.1 hy).2 _
  | rel hlt =>
    rcases List.forall_mem_cons.1 hx with ⟨hc, hx⟩
    rcases List.forall_mem_cons.1 hy with ⟨hd, _⟩
    have hrank := letterRank_lt_letterRank hc hd hlt
    have hstep : extendRank v _ < extendRank v _ := Nat.add_lt_add_left hrank (26 * v)
    exact foldl_extendRank_lt hstep (Nat.succ.inj hlength) hx

theorem rank_lt_of_length_lt {xs ys : List Char} (h : xs.length < ys.length)
    (hx : ∀ c ∈ xs, isLower c = true) : rank xs < rank ys := by
  -- The letters in excess stand in front, where the shorter name has nothing.
  let excess := ys.length - xs.length
  have hne : ys.take excess ≠ [] := by
    rw [← List.length_pos_iff, List.length_take]
    omega
  have hlength : xs.length = (ys.drop excess).length := by
    rw [List.length_drop]
    omega
  calc rank xs
      < (ys.drop excess).foldl extendRank (rank (ys.take excess)) :=
        foldl_extendRank_lt (rank_pos hne) hlength hx
    _ = rank ys := by rw [rank, ← List.foldl_append, List.take_append_drop, rank]

theorem rank_lt_of_shortlex {xs ys : List Char} (h : List.Shortlex (· < ·) xs ys)
    (hx : ∀ c ∈ xs, isLower c = true) (hy : ∀ c ∈ ys, isLower c = true) : rank xs < rank ys := by
  rcases List.shortlex_def.1 h with hlength | ⟨hlength, hlex⟩
  · exact rank_lt_of_length_lt hlength hx
  · exact foldl_extendRank_lt_of_lex hlex hlength hx hy 0

/-! ## The numbering -/

theorem isLower_of_mem_nth (n : Nat) : ∀ c ∈ (nth n).toList, isLower c = true := by
  rw [nth, String.toList_ofList]
  exact isLower_of_mem_spell (by simp)

theorem lt_of_shortlex_nth {m n : Nat}
    (h : List.Shortlex (· < ·) (nth m).toList (nth n).toList) : m < n := by
  have hrank := rank_lt_of_shortlex h (isLower_of_mem_nth m) (isLower_of_mem_nth n)
  rw [rank_nth, rank_nth] at hrank
  exact Nat.lt_of_succ_lt_succ hrank

theorem isVariable_nth (n : Nat) : Named.isVariable (nth n).toList = true := by
  rw [Named.isVariable, Bool.and_eq_true, List.all_eq_true]
  constructor
  · simp [nth, spell_ne_nil]
  · exact isLower_of_mem_nth n

theorem exists_nth_eq {name : String} (h : Named.isVariable name.toList = true) :
    ∃ n, nth n = name := by
  simp only [Named.isVariable, Bool.and_eq_true, Bool.not_eq_true', List.isEmpty_eq_false_iff,
    List.all_eq_true] at h
  refine ⟨rank name.toList - 1, ?_⟩
  rw [nth, spell_rank h.1 h.2, List.append_nil, String.ofList_toList]

/-- The identifiers are the names that a variable can have. Each of these names has one number, and
smaller numbers belong to names that come first: shorter ones, and among names of one length those
that come first in the alphabet. -/
theorem nth_enumerates_variables :
    (∀ n, Named.isVariable (nth n).toList = true) ∧
      (∀ name : String, Named.isVariable name.toList = true → ∃! n, nth n = name) ∧
      ∀ m n, m < n ↔ List.Shortlex (· < ·) (nth m).toList (nth n).toList := by
  refine ⟨isVariable_nth, ?_, ?_⟩
  · intro name hname
    rcases exists_nth_eq hname with ⟨n, hn⟩
    exact ⟨n, hn, fun m hm => nth_injective (hm.trans hn.symm)⟩
  · intro m n
    refine ⟨?_, lt_of_shortlex_nth⟩
    intro hlt
    -- Of two different names one comes first, and it is not the one with the greater number.
    rcases trichotomous_of (List.Shortlex (· < ·)) (nth m).toList (nth n).toList with
      hfirst | hsame | hlast
    · exact hfirst
    · have heq := nth_injective (String.toList_inj.1 hsame)
      omega
    · have hgt := lt_of_shortlex_nth hlast
      omega

/-- After `zz` the names become longer: it is numbered just before `aaa`. -/
theorem nth_enumerates_variables_carries :
    Named.isVariable "zz".toList = true ∧ (∃! n, nth n = "zz") ∧ nth 701 = "zz" ∧
      nth 702 = "aaa" ∧ List.Shortlex (· < ·) "zz".toList "aaa".toList := by
  have hvariable : Named.isVariable "zz".toList = true := by decide
  have hlast : nth 701 = "zz" := by decide +kernel
  have hnext : nth 702 = "aaa" := by decide +kernel
  have horder := (nth_enumerates_variables.2.2 701 702).1 (by decide)
  rw [hlast, hnext] at horder
  exact ⟨hvariable, nth_enumerates_variables.2.1 "zz" hvariable, hlast, hnext, horder⟩

end Identifier
end Nameless
