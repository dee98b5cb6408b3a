import Mathlib.Logic.Relation
import Nameless.Indexed.Substitution

/-!
# Contraction of redexes

A redex is an abstraction applied to an argument, and it may stand anywhere in a term. Places in a
term are the turns that lead to them from the root. Reading a term from left to right meets its
places in an order: a place comes before those inside it, and what is in a function comes before
what is in its argument. The leftmost outermost redex is the one whose place comes first.

This file defines:
- `Indexed.Turn`, `Indexed.Place`, `Indexed.Place.Precedes`: places and their order,
- `Indexed.ContractsAt`: contracting the redex at a place, and `Indexed.Beta` at any place,
- `Indexed.Normal`: terms without redexes,
- `Indexed.Neutral`: terms whose head is no abstraction,
- `Indexed.Leftmost`, `Indexed.LeftmostRun`: contracting the leftmost outermost redex once, and
  time after time with the list of the redexes.

Main statements: a leftmost step inside a part of a term is one of the whole term if nothing before
that part can be contracted (`Leftmost.body`, `Leftmost.fn`, `Leftmost.arg`, and the same for
runs), and there is at most one leftmost run to a normal form (`LeftmostRun.unique`).
-/

namespace Nameless
namespace Indexed

/-! ## Places -/

/-- One turn on the way from the root of a term to a place in it. -/
inductive Turn where
  | body
  | fn
  | arg
  deriving DecidableEq, Repr

abbrev Place := List Turn

namespace Place

/-- The order in which places are met, reading from left to right. -/
inductive Precedes : Place → Place → Prop where
  | outside (q : Place) : Precedes [] q
  | left (p q : Place) : Precedes (.fn :: p) (.arg :: q)
  | within (turn : Turn) {p q : Place} : Precedes p q → Precedes (turn :: p) (turn :: q)

theorem Precedes.antisymm {p q : Place} (hpq : Precedes p q) (hqp : Precedes q p) : p = q := by
  induction hpq with
  | outside q =>
    cases hqp
    rfl
  | left p q => cases hqp
  | within turn _ ih =>
    cases hqp with
    | within _ hqp => rw [ih hqp]

end Place

variable {ρ : Type}

/-! ## Redexes and normal forms -/

/-- The subterms of a term, itself included. -/
def subterms : Indexed ρ → List (Indexed ρ)
  | lam body => lam body :: body.subterms
  | app fn arg => app fn arg :: (fn.subterms ++ arg.subterms)
  | t => [t]

def isRedex : Indexed ρ → Bool
  | app (lam _) _ => true
  | _ => false

/-- No subterm is a redex. -/
def Normal (t : Indexed ρ) : Prop :=
  ∀ u ∈ t.subterms, u.isRedex = false

instance (t : Indexed ρ) : Decidable t.Normal :=
  inferInstanceAs (Decidable (∀ u ∈ t.subterms, u.isRedex = false))

/-- The head of the term, below all arguments, is no abstraction. -/
def Neutral : Indexed ρ → Prop
  | app fn _ => fn.Neutral
  | lam _ => False
  | _ => True

@[simp] theorem normal_var (index : Nat) : (var index : Indexed ρ).Normal := by
  simp [Normal, subterms, isRedex]

@[simp] theorem normal_free (name : String) : (free name : Indexed ρ).Normal := by
  simp [Normal, subterms, isRedex]

@[simp] theorem normal_leaf (x : ρ) : (leaf x).Normal := by
  simp [Normal, subterms, isRedex]

@[simp] theorem normal_lam {body : Indexed ρ} : (lam body).Normal ↔ body.Normal := by
  simp [Normal, subterms, isRedex]

theorem normal_app {fn arg : Indexed ρ} :
    (app fn arg).Normal ↔ (∀ body, fn ≠ lam body) ∧ fn.Normal ∧ arg.Normal := by
  have hroot : (app fn arg).isRedex = false ↔ ∀ body, fn ≠ lam body := by
    cases fn <;> simp [isRedex]
  simp only [Normal, subterms, List.mem_cons, List.mem_append, forall_eq_or_imp, hroot]
  constructor
  · rintro ⟨hne, hrest⟩
    exact ⟨hne, fun u hu => hrest u (.inl hu), fun u hu => hrest u (.inr hu)⟩
  · rintro ⟨hne, hfn, harg⟩
    exact ⟨hne, fun u hu => hu.elim (hfn u) (harg u)⟩

theorem Neutral.ne_lam {t : Indexed ρ} (h : t.Neutral) (body : Indexed ρ) : t ≠ lam body := by
  rintro rfl
  exact h

/-- A normal form that is no abstraction has a head that is none. -/
theorem Normal.neutral {t : Indexed ρ} (h : t.Normal) (hne : ∀ body, t ≠ lam body) :
    t.Neutral := by
  induction t with
  | lam body => exact absurd rfl (hne body)
  | app fn arg ihf _ =>
    have happ := normal_app.1 h
    exact ihf happ.2.1 happ.1
  | var index => trivial
  | free name => trivial
  | leaf x => trivial

/-! ## Contraction at a place -/

/-- Contracting the redex `r` that stands at a place turns one term into another. -/
inductive ContractsAt : Indexed ρ → Place → (r : Indexed ρ) → Indexed ρ → Prop where
  | here (body arg : Indexed ρ) :
      ContractsAt (app (lam body) arg) [] (app (lam body) arg) (body.contract arg)
  | body {b b' r : Indexed ρ} {p : Place} :
      ContractsAt b p r b' → ContractsAt (lam b) (.body :: p) r (lam b')
  | fn {f f' r : Indexed ρ} {p : Place} (a : Indexed ρ) :
      ContractsAt f p r f' → ContractsAt (app f a) (.fn :: p) r (app f' a)
  | arg {a a' r : Indexed ρ} {p : Place} (f : Indexed ρ) :
      ContractsAt a p r a' → ContractsAt (app f a) (.arg :: p) r (app f a')

/-- Contracting any one redex. -/
def Beta (t u : Indexed ρ) : Prop :=
  ∃ p r, ContractsAt t p r u

theorem ContractsAt.unique {t r s u v : Indexed ρ} {p : Place} (h : ContractsAt t p r u)
    (h' : ContractsAt t p s v) : r = s ∧ u = v := by
  induction h generalizing s v with
  | here body arg =>
    cases h'
    exact ⟨rfl, rfl⟩
  | body _ ih =>
    cases h' with
    | body h' =>
      rcases ih h' with ⟨rfl, rfl⟩
      exact ⟨rfl, rfl⟩
  | fn a _ ih =>
    cases h' with
    | fn _ h' =>
      rcases ih h' with ⟨rfl, rfl⟩
      exact ⟨rfl, rfl⟩
  | arg f _ ih =>
    cases h' with
    | arg _ h' =>
      rcases ih h' with ⟨rfl, rfl⟩
      exact ⟨rfl, rfl⟩

theorem Normal.not_contractsAt {t r u : Indexed ρ} {p : Place} (h : t.Normal) :
    ¬ ContractsAt t p r u := by
  intro hc
  induction hc with
  | here body arg => exact (normal_app.1 h).1 body rfl
  | body _ ih => exact ih (normal_lam.1 h)
  | fn a _ ih => exact ih (normal_app.1 h).2.1
  | arg f _ ih => exact ih (normal_app.1 h).2.2

/-- No contraction puts an abstraction at the head of a neutral term. -/
theorem Neutral.contractsAt {t r u : Indexed ρ} {p : Place} (h : t.Neutral)
    (hc : ContractsAt t p r u) : u.Neutral := by
  induction hc with
  | here body arg => exact h.elim
  | body _ _ => exact h
  | fn a _ ih => exact ih h
  | arg f _ _ => exact h

/-! ## The leftmost outermost redex -/

/-- Contracting the redex whose place comes before those of all others. -/
def Leftmost (t r u : Indexed ρ) : Prop :=
  ∃ p, ContractsAt t p r u ∧ ∀ q s v, ContractsAt t q s v → p.Precedes q

namespace Leftmost

theorem beta {t r u : Indexed ρ} (h : Leftmost t r u) : Beta t u := by
  rcases h with ⟨p, hp, _⟩
  exact ⟨p, r, hp⟩

theorem unique {t r s u v : Indexed ρ} (h : Leftmost t r u) (h' : Leftmost t s v) :
    r = s ∧ u = v := by
  rcases h with ⟨p, hp, hfirst⟩
  rcases h' with ⟨q, hq, hfirst'⟩
  -- Each of the two places comes before the other.
  rcases (hfirst q s v hq).antisymm (hfirst' p r u hp) with rfl
  exact hp.unique hq

theorem neutral {t r u : Indexed ρ} (h : Leftmost t r u) (ht : t.Neutral) : u.Neutral := by
  rcases h with ⟨p, hp, _⟩
  exact ht.contractsAt hp

theorem not_normal {t r u : Indexed ρ} (h : Leftmost t r u) : ¬ t.Normal := by
  rcases h with ⟨p, hp, _⟩
  exact fun ht => ht.not_contractsAt hp

theorem here (body arg : Indexed ρ) :
    Leftmost (app (lam body) arg) (app (lam body) arg) (body.contract arg) :=
  ⟨[], .here body arg, fun q _ _ _ => .outside q⟩

theorem body {b b' r : Indexed ρ} (h : Leftmost b r b') : Leftmost (lam b) r (lam b') := by
  rcases h with ⟨p, hp, hfirst⟩
  refine ⟨.body :: p, .body hp, ?_⟩
  intro q s v hq
  cases hq with
  | body hq => exact .within _ (hfirst _ _ _ hq)

theorem fn {f f' r : Indexed ρ} (a : Indexed ρ) (hne : ∀ body, f ≠ lam body)
    (h : Leftmost f r f') : Leftmost (app f a) r (app f' a) := by
  rcases h with ⟨p, hp, hfirst⟩
  refine ⟨.fn :: p, .fn a hp, ?_⟩
  intro q s v hq
  cases hq with
  | here body _ => exact absurd rfl (hne body)
  | fn _ hq => exact .within _ (hfirst _ _ _ hq)
  | arg _ _ => exact .left _ _

theorem arg {f a a' r : Indexed ρ} (hne : ∀ body, f ≠ lam body) (hf : f.Normal)
    (h : Leftmost a r a') : Leftmost (app f a) r (app f a') := by
  rcases h with ⟨p, hp, hfirst⟩
  refine ⟨.arg :: p, .arg f hp, ?_⟩
  intro q s v hq
  cases hq with
  | here body _ => exact absurd rfl (hne body)
  -- Places in the function would come before, but there is nothing to contract in it.
  | fn _ hq => exact absurd hq hf.not_contractsAt
  | arg _ hq => exact .within _ (hfirst _ _ _ hq)

end Leftmost

/-! ## Leftmost runs -/

/-- Contracting leftmost outermost redexes one after the other, with the list of the redexes. -/
inductive LeftmostRun : Indexed ρ → List (Indexed ρ) → Indexed ρ → Prop where
  | done (t : Indexed ρ) : LeftmostRun t [] t
  | step {t r u v : Indexed ρ} {rs : List (Indexed ρ)} :
      Leftmost t r u → LeftmostRun u rs v → LeftmostRun t (r :: rs) v

namespace LeftmostRun

theorem betas {t u : Indexed ρ} {rs : List (Indexed ρ)} (h : LeftmostRun t rs u) :
    Relation.ReflTransGen Beta t u := by
  induction h with
  | done t => exact .refl
  | step hstep _ ih => exact .head hstep.beta ih

theorem trans {t u v : Indexed ρ} {rs rs' : List (Indexed ρ)} (h : LeftmostRun t rs u)
    (h' : LeftmostRun u rs' v) : LeftmostRun t (rs ++ rs') v := by
  induction h with
  | done t => exact h'
  | step hstep _ ih => exact .step hstep (ih h')

theorem body {b b' : Indexed ρ} {rs : List (Indexed ρ)} (h : LeftmostRun b rs b') :
    LeftmostRun (lam b) rs (lam b') := by
  induction h with
  | done b => exact .done (lam b)
  | step hstep _ ih => exact .step hstep.body ih

theorem fn {f f' : Indexed ρ} {rs : List (Indexed ρ)} (a : Indexed ρ) (hf : f.Neutral)
    (h : LeftmostRun f rs f') : LeftmostRun (app f a) rs (app f' a) := by
  -- The function stays neutral on the way, so the application itself never becomes a redex.
  induction h with
  | done f => exact .done (app f a)
  | step hstep _ ih => exact .step (.fn a hf.ne_lam hstep) (ih (hstep.neutral hf))

theorem arg {f a a' : Indexed ρ} {rs : List (Indexed ρ)} (hf : f.Neutral) (hn : f.Normal)
    (h : LeftmostRun a rs a') : LeftmostRun (app f a) rs (app f a') := by
  induction h with
  | done a => exact .done (app f a)
  | step hstep _ ih => exact .step (.arg hf.ne_lam hn hstep) ih

theorem neutral {t u : Indexed ρ} {rs : List (Indexed ρ)} (h : LeftmostRun t rs u)
    (ht : t.Neutral) : u.Neutral := by
  induction h with
  | done t => exact ht
  | step hstep _ ih => exact ih (hstep.neutral ht)

/-- A normal form has no run but the empty one. -/
theorem of_normal {t u : Indexed ρ} {rs : List (Indexed ρ)} (h : LeftmostRun t rs u)
    (ht : t.Normal) : rs = [] ∧ u = t := by
  cases h with
  | done t => exact ⟨rfl, rfl⟩
  | step hstep _ => exact absurd ht hstep.not_normal

/-- Two runs from one term that end in normal forms are the same run. -/
theorem unique {t u v : Indexed ρ} {rs rs' : List (Indexed ρ)} (h : LeftmostRun t rs u)
    (hu : u.Normal) (h' : LeftmostRun t rs' v) (hv : v.Normal) : rs = rs' ∧ u = v := by
  induction h generalizing rs' with
  | done t =>
    rcases h'.of_normal hu with ⟨rfl, rfl⟩
    exact ⟨rfl, rfl⟩
  | step hstep hrun ih =>
    cases h' with
    | done t => exact absurd hv hstep.not_normal
    | step hstep' hrun' =>
      -- There is one leftmost redex, so both runs start with it and go on from the same term.
      rcases hstep.unique hstep' with ⟨rfl, rfl⟩
      rcases ih hu hrun' with ⟨rfl, rfl⟩
      exact ⟨rfl, rfl⟩

end LeftmostRun
end Indexed
end Nameless
