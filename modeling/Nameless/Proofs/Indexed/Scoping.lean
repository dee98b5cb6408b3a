import Nameless.Proofs.Indexed.Beta

/-!
# Indices stay inside their terms

An index is good as long as it is below the number of binders around it. Moving a term under a
binder and putting a term in the place of a variable keep all indices good, so every contraction
does, wherever it is made. Nor does a contraction bring in a free variable that was not there.

This file defines `Indexed.Scoped`: all indices are below the number of binders around them, with
some binders outside of the term counted.

Main statements:
- `Indexed.Scoped.substitute`, `Indexed.mem_freeNames_substitute`: what a substitution keeps,
- `Indexed.ContractsAt.scoped`, `Indexed.ContractsAt.mem_freeNames`: what a contraction keeps,
- `Indexed.scoped_of_betas`, `Indexed.freeNames_of_betas`: what any reduction keeps.
-/

namespace Nameless
namespace Indexed

variable {ρ : Type}

/-- Every index is below the number of binders around it, where `depth` more of them are outside of
the term. -/
def Scoped (depth : Nat) : Indexed ρ → Prop
  | lam body => body.Scoped (depth + 1)
  | app fn arg => fn.Scoped depth ∧ arg.Scoped depth
  | var index => index < depth
  | free _ => True
  | leaf _ => True

/-! ## Substitution -/

theorem Scoped.shift {depth : Nat} {t : Indexed ρ} (h : t.Scoped depth) (cutoff : Int) :
    (t.shift cutoff).Scoped (depth + 1) := by
  induction t generalizing depth cutoff with
  | lam body ih => exact ih h (cutoff + 1)
  | app fn arg ihf iha => exact ⟨ihf h.1 cutoff, iha h.2 cutoff⟩
  | var index =>
    have hlt : index < depth := h
    simp only [Indexed.shift]
    split
    · exact Nat.succ_lt_succ hlt
    · exact Nat.lt_succ_of_lt hlt
  | free name => trivial
  | leaf x => trivial

/-- The binder whose variable is replaced goes away, so one binder less is around the term. -/
theorem Scoped.substitute {depth : Nat} {t a : Indexed ρ} (ht : t.Scoped (depth + 1))
    (ha : a.Scoped depth) {index : Int} (hindex : 0 ≤ index) (hle : index ≤ depth) :
    (t.substitute index a).Scoped depth := by
  induction t generalizing depth a index with
  | lam body ih => exact ih ht (ha.shift 0) (by omega) (by push_cast; omega)
  | app fn arg ihf iha => exact ⟨ihf ht.1 ha hindex hle, iha ht.2 ha hindex hle⟩
  | var i =>
    have hlt : i < depth + 1 := ht
    simp only [Indexed.substitute]
    split
    · exact ha
    · split
      · show i - 1 < depth
        omega
      · show i < depth
        omega
  | free name => trivial
  | leaf x => trivial

@[simp] theorem freeNames_shift (cutoff : Int) (t : Indexed ρ) :
    (t.shift cutoff).freeNames = t.freeNames := by
  induction t generalizing cutoff with
  | lam body ih => exact ih (cutoff + 1)
  | app fn arg ihf iha => simp only [shift, freeNames, ihf, iha]
  | var index =>
    simp only [shift]
    split <;> rfl
  | free name => rfl
  | leaf x => rfl

theorem mem_freeNames_substitute {index : Int} {t a : Indexed ρ} {name : String}
    (h : name ∈ (t.substitute index a).freeNames) : name ∈ t.freeNames ∨ name ∈ a.freeNames := by
  induction t generalizing index a with
  | lam body ih =>
    have hbody : name ∈ body.freeNames ∨ name ∈ (a.shift 0).freeNames := ih h
    rwa [freeNames_shift] at hbody
  | app fn arg ihf iha =>
    rcases List.mem_append.1 h with hfn | harg
    · exact (ihf hfn).imp_left (List.mem_append_left _)
    · exact (iha harg).imp_left (List.mem_append_right _)
  | var i =>
    simp only [substitute] at h
    split at h
    · exact .inr h
    · split at h <;> cases h
  | free _ => exact .inl h
  | leaf _ => exact .inl h

/-! ## Contraction -/

theorem ContractsAt.scoped {t r u : Indexed ρ} {p : Place} (h : ContractsAt t p r u) {depth : Nat}
    (ht : t.Scoped depth) : u.Scoped depth := by
  induction h generalizing depth with
  | here body arg => exact ht.1.substitute ht.2 (Int.le_refl 0) (Int.natCast_nonneg depth)
  | body _ ih => exact ih ht
  | fn a _ ih => exact ⟨ih ht.1, ht.2⟩
  | arg f _ ih => exact ⟨ht.1, ih ht.2⟩

theorem ContractsAt.mem_freeNames {t r u : Indexed ρ} {p : Place} (h : ContractsAt t p r u)
    {name : String} (hname : name ∈ u.freeNames) : name ∈ t.freeNames := by
  induction h with
  | here body arg =>
    have hparts : name ∈ body.freeNames ∨ name ∈ arg.freeNames := mem_freeNames_substitute hname
    exact List.mem_append.2 hparts
  | body _ ih => exact ih hname
  | fn a _ ih => exact List.mem_append.2 ((List.mem_append.1 hname).imp_left ih)
  | arg f _ ih => exact List.mem_append.2 ((List.mem_append.1 hname).imp_right ih)

theorem scoped_of_betas {t u : Indexed ρ} (h : Relation.ReflTransGen Beta t u) {depth : Nat}
    (ht : t.Scoped depth) : u.Scoped depth := by
  induction h with
  | refl => exact ht
  | tail _ hstep ih =>
    rcases hstep with ⟨p, r, hp⟩
    exact hp.scoped ih

theorem freeNames_of_betas {t u : Indexed ρ} (h : Relation.ReflTransGen Beta t u) :
    u.freeNames ⊆ t.freeNames := by
  induction h with
  | refl => exact List.Subset.refl _
  | tail _ hstep ih =>
    rcases hstep with ⟨p, r, hp⟩
    intro name hname
    exact ih (hp.mem_freeNames hname)

end Indexed
end Nameless
