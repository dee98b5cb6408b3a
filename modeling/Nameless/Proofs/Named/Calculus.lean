import Mathlib.Logic.Relation
import Nameless.Named.Basic
import Nameless.Proofs.Identifier

/-!
# The calculus of named terms

The λ-calculus on named terms, as it is done by hand: substitution gives a bound variable a new name
where it would capture a free variable of the replacement, terms that differ in the names of bound
variables only are equivalent, and a redex contracts to the body with the argument put in.

This file defines:
- `Named.rename`: another name for a free variable,
- `Named.fresh`: a name that is none of some given ones,
- `Named.subst`: substitution without capture,
- `Named.Alpha`: terms up to the names of bound variables,
- `Named.Beta`, `Named.Normal`: contracting one redex, and terms without redexes.

Main statements: renaming, and substituting a variable, keep the size of a term
(`Named.size_rename`, `Named.size_subst_sym`), so that both may be used in recursions.
-/

namespace Nameless
namespace Named

/-! ## Renaming and substitution -/

def size : Named Empty → Nat
  | abs _ body => body.size + 1
  | app fn arg => fn.size + arg.size + 1
  | sym _ => 1

/-- All names in a term, of free and of bound variables. -/
def names : Named Empty → List String
  | abs name body => name :: body.names
  | app fn arg => fn.names ++ arg.names
  | sym name => [name]

theorem freeNames_subset_names (t : Named Empty) : t.freeNames ⊆ t.names := by
  induction t with
  | abs name body ih =>
    intro x hx
    have hbody : x ∈ body.freeNames := (List.mem_filter.1 hx).1
    exact List.mem_cons_of_mem name (ih hbody)
  | app fn arg ihf iha =>
    intro x hx
    rcases List.mem_append.1 hx with hfn | harg
    · exact List.mem_append_left _ (ihf hfn)
    · exact List.mem_append_right _ (iha harg)
  | sym name => exact List.Subset.refl _
  | leaf x => exact x.elim

/-- Calls the free variable `y` by the name `z`, which has to occur nowhere in the term. -/
def rename (y z : String) : Named Empty → Named Empty
  | abs name body => if name = y then abs name body else abs name (body.rename y z)
  | app fn arg => app (fn.rename y z) (arg.rename y z)
  | sym name => if name = y then sym z else sym name

@[simp] theorem size_rename (y z : String) (t : Named Empty) : (t.rename y z).size = t.size := by
  induction t with
  | abs name body ih =>
    by_cases hname : name = y
    · simp [rename, hname]
    · simp [rename, hname, size, ih]
  | app fn arg ihf iha => simp [rename, size, ihf, iha]
  | sym name =>
    by_cases hname : name = y
    · simp [rename, hname, size]
    · simp [rename, hname]
  | leaf x => exact x.elim

/-- A name that is none of the given ones. -/
def fresh (avoided : List String) : String :=
  Identifier.nth (Identifier.firstFresh avoided 0)

theorem fresh_not_mem (avoided : List String) : fresh avoided ∉ avoided :=
  Identifier.nth_firstFresh_not_mem avoided 0

/-- Puts `a` in the place of the free variable `x`. A binder that would capture a free variable of
`a` takes a name that occurs in neither term. -/
def subst (x : String) (t a : Named Empty) : Named Empty :=
  match t with
  | abs y body =>
    -- Below a binder of its own name the variable is not free.
    if y = x then abs y body
    else if y ∈ a.freeNames ∧ x ∈ body.freeNames then
      abs (fresh (x :: a.freeNames ++ body.names))
        ((body.rename y (fresh (x :: a.freeNames ++ body.names))).subst x a)
    else abs y (body.subst x a)
  | app fn arg => app (fn.subst x a) (arg.subst x a)
  | sym y => if y = x then a else sym y
termination_by t.size
decreasing_by all_goals simp only [size_rename, size]; omega

/-- Putting a variable in the place of another one changes no size. -/
theorem size_subst_sym (x z : String) (t : Named Empty) : (t.subst x (sym z)).size = t.size := by
  fun_induction subst x t (sym z) with
  | case1 body => rfl
  -- Here the binder takes a new name first, which keeps the size as well.
  | case2 y body hne hcapture ih => simpa [size] using ih
  | case3 y body hne hfree ih => simpa [size] using ih
  | case4 fn arg ihf iha => simp [size, ihf, iha]
  | case5 => rfl
  | case6 y hne => rfl

/-! ## Equivalence and contraction -/

/-- Equivalence up to the names of bound variables. -/
inductive Alpha : Named Empty → Named Empty → Prop where
  | refl (t : Named Empty) : Alpha t t
  | symm {t u : Named Empty} : Alpha t u → Alpha u t
  | trans {t u v : Named Empty} : Alpha t u → Alpha u v → Alpha t v
  | abs (name : String) {b b' : Named Empty} : Alpha b b' → Alpha (abs name b) (abs name b')
  | app {f f' a a' : Named Empty} : Alpha f f' → Alpha a a' → Alpha (app f a) (app f' a')
  | rename (x : String) {y : String} {b : Named Empty} :
      y ∉ b.freeNames → Alpha (abs x b) (abs y (b.subst x (sym y)))

/-- Contracting any one redex. -/
inductive Beta : Named Empty → Named Empty → Prop where
  | here (x : String) (b a : Named Empty) : Beta (app (abs x b) a) (b.subst x a)
  | abs (name : String) {b b' : Named Empty} : Beta b b' → Beta (abs name b) (abs name b')
  | fn {f f' : Named Empty} (a : Named Empty) : Beta f f' → Beta (app f a) (app f' a)
  | arg (f : Named Empty) {a a' : Named Empty} : Beta a a' → Beta (app f a) (app f a')

def subterms : Named Empty → List (Named Empty)
  | abs name body => abs name body :: body.subterms
  | app fn arg => app fn arg :: (fn.subterms ++ arg.subterms)
  | sym name => [sym name]

def isRedex : Named Empty → Bool
  | app (abs _ _) _ => true
  | _ => false

/-- No subterm is a redex. -/
def Normal (t : Named Empty) : Prop :=
  ∀ u ∈ t.subterms, u.isRedex = false

instance (t : Named Empty) : Decidable t.Normal :=
  inferInstanceAs (Decidable (∀ u ∈ t.subterms, u.isRedex = false))

end Named
end Nameless
