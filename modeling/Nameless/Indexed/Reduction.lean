import Nameless.Indexed.Substitution

/-!
# Normal-order reduction

A term is reduced in two layers. `whnf` contracts the leftmost outermost redex until the term is an
abstraction or has a head that is none; arguments are passed on unreduced. `nf` continues under the
abstraction, or with the two sides of the application, and so reaches the normal form.

Every redex is recorded right before it is contracted. The record survives a failure: a reduction is
a list of redexes together with a result or the reason why there is none. Reduction need not end, so
it is given limits; a run that stays within them does not depend on them.

Both layers are written for any way of contracting a redex, which may refuse some redexes and may
depend on how deep in the term they stand.

This file provides:
- `Limits`: how deep terms may nest and how often one head may be contracted,
- `Reduction`: the redexes and the result, with its monad operations,
- `Indexed.unwind`, `Indexed.rewind`: a term as a head with its arguments,
- `Indexed.Contraction`, `Indexed.whnfFrom`, `Indexed.nfBy`: the two layers for any contraction,
- `Indexed.whnf`, `Indexed.nf`: the two layers for the contraction that refuses nothing but defects.
-/

namespace Nameless

/-- Bounds on the work that is put into a reduction. -/
structure Limits where
  /-- How deep terms may nest. -/
  nesting : Nat
  /-- How many contractions may bring one head to its final form. -/
  contractions : Nat
  deriving DecidableEq, Repr

namespace Limits

/-- The limits of the interpreter. -/
def standard : Limits where
  nesting := 9980
  contractions := 1000000000000000000

end Limits

/-! ## Reductions -/

/-- The redexes that were contracted, oldest first, and what came out of it. -/
structure Reduction (ρ α : Type) where
  redexes : List (Indexed ρ)
  result : Except Failure α

namespace Reduction

variable {ρ α β : Type}

/-- A result that took no contraction. -/
def done (a : α) : Reduction ρ α :=
  ⟨[], .ok a⟩

/-- A failure before any contraction. -/
def fail (failure : Failure) : Reduction ρ α :=
  ⟨[], .error failure⟩

/-- What an operation that may fail gives without a contraction. -/
def ofExcept (result : Except Failure α) : Reduction ρ α :=
  ⟨[], result⟩

/-- Continues with the result, if there is one. -/
def andThen (r : Reduction ρ α) (next : α → Reduction ρ β) : Reduction ρ β :=
  match r.result with
  | .error failure => ⟨r.redexes, .error failure⟩
  | .ok a =>
    let s := next a
    ⟨r.redexes ++ s.redexes, s.result⟩

instance : Monad (Reduction ρ) where
  pure := done
  bind := andThen

@[simp] theorem pure_eq_done (a : α) : (pure a : Reduction ρ α) = done a := rfl

@[simp] theorem bind_eq_andThen (r : Reduction ρ α) (next : α → Reduction ρ β) :
    (r >>= next) = r.andThen next := rfl

@[simp] theorem andThen_done (r : Reduction ρ α) : r.andThen done = r := by
  rcases r with ⟨redexes, _ | a⟩ <;> simp [andThen, done]

@[simp] theorem done_andThen (a : α) (next : α → Reduction ρ β) :
    (done a).andThen next = next a := rfl

@[simp] theorem fail_andThen (failure : Failure) (next : α → Reduction ρ β) :
    (fail failure : Reduction ρ α).andThen next = fail failure := rfl

end Reduction

/-! ## Heads and arguments -/

namespace Indexed

variable {ρ : Type}

/-- Takes the arguments off the left spine of a term, in front of the arguments it has already. -/
def unwind : Indexed ρ → List (Indexed ρ) → Indexed ρ × List (Indexed ρ)
  | app fn arg, args => fn.unwind (arg :: args)
  | t, args => (t, args)

/-- Applies a head to its arguments. -/
def rewind (head : Indexed ρ) (args : List (Indexed ρ)) : Indexed ρ :=
  args.foldl app head

@[simp] theorem rewind_nil (head : Indexed ρ) : head.rewind [] = head := rfl

@[simp] theorem rewind_cons (head arg : Indexed ρ) (args : List (Indexed ρ)) :
    head.rewind (arg :: args) = (app head arg).rewind args := rfl

/-! ## Any contraction -/

/-- A way of contracting: what becomes of an abstraction with a given body and its argument. -/
abbrev Contraction (ρ : Type) := Indexed ρ → Indexed ρ → Except Failure (Indexed ρ)

/-- Reduces a term applied to arguments until its head is final, where `seen` are the redexes
contracted so far, newest first. -/
def whnfFrom (contract : Contraction ρ) : (contractions : Nat) → (seen : List (Indexed ρ)) →
    Indexed ρ → List (Indexed ρ) → Reduction ρ (Indexed ρ)
  | contractions, seen, t, args =>
    match t.unwind args with
    | (lam body, arg :: rest) =>
      match contractions with
      | 0 => ⟨seen.reverse, .error .tooDeep⟩
      | contractions + 1 =>
        match contract body arg with
        | .error failure => ⟨(app (lam body) arg :: seen).reverse, .error failure⟩
        | .ok u => whnfFrom contract contractions (app (lam body) arg :: seen) u rest
    | (head, rest) => ⟨seen.reverse, .ok (head.rewind rest)⟩

section

variable (contract : Contraction ρ) (contractions : Nat) (seen : List (Indexed ρ))

theorem whnfFrom_app (fn arg : Indexed ρ) (args : List (Indexed ρ)) :
    whnfFrom contract contractions seen (app fn arg) args =
      whnfFrom contract contractions seen fn (arg :: args) := by
  unfold whnfFrom
  rfl

@[simp] theorem whnfFrom_lam_nil (body : Indexed ρ) :
    whnfFrom contract contractions seen (lam body) [] = ⟨seen.reverse, .ok (lam body)⟩ := by
  unfold whnfFrom
  rfl

theorem whnfFrom_lam_cons (body arg : Indexed ρ) (args : List (Indexed ρ)) :
    whnfFrom contract (contractions + 1) seen (lam body) (arg :: args) =
      match contract body arg with
      | .error failure => ⟨(app (lam body) arg :: seen).reverse, .error failure⟩
      | .ok u => whnfFrom contract contractions (app (lam body) arg :: seen) u args := by
  rw [whnfFrom]
  rfl

@[simp] theorem whnfFrom_var (index : Nat) (args : List (Indexed ρ)) :
    whnfFrom contract contractions seen (var index) args =
      ⟨seen.reverse, .ok ((var index).rewind args)⟩ := by
  unfold whnfFrom
  rfl

@[simp] theorem whnfFrom_free (name : String) (args : List (Indexed ρ)) :
    whnfFrom contract contractions seen (free name) args =
      ⟨seen.reverse, .ok ((free name).rewind args)⟩ := by
  unfold whnfFrom
  rfl

end

/-- Reduces a term to normal form, down to a given depth. The contraction is told how many levels
are left below the redex. -/
def nfBy (contract : Nat → Contraction ρ) (contractions : Nat) :
    (depth : Nat) → Indexed ρ → Reduction ρ (Indexed ρ)
  | 0, _ => .fail .tooDeep
  | depth + 1, t => do
    match ← whnfFrom (contract depth) contractions [] t [] with
    | lam body => return lam (← nfBy contract contractions depth body)
    | app fn arg =>
      let fn ← nfBy contract contractions depth fn
      let arg ← nfBy contract contractions depth arg
      return app fn arg
    | u => return u

/-! ## Reduction to normal form -/

variable [Leaf ρ]

/-- Reduces a term to an abstraction or to a head that is none with its arguments. -/
def whnf (contractions : Nat) (t : Indexed ρ) : Reduction ρ (Indexed ρ) :=
  whnfFrom contract? contractions [] t []

/-- Reduces a term to normal form, down to a given depth. -/
def nfWithin (contractions depth : Nat) (t : Indexed ρ) : Reduction ρ (Indexed ρ) :=
  nfBy (fun _ => contract?) contractions depth t

@[simp] theorem nfWithin_zero (contractions : Nat) (t : Indexed ρ) :
    nfWithin contractions 0 t = .fail .tooDeep := rfl

theorem nfWithin_succ (contractions depth : Nat) (t : Indexed ρ) :
    nfWithin contractions (depth + 1) t = (do
      match ← t.whnf contractions with
      | lam body => return lam (← nfWithin contractions depth body)
      | app fn arg =>
        let fn ← nfWithin contractions depth fn
        let arg ← nfWithin contractions depth arg
        return app fn arg
      | u => return u) := rfl

/-- Reduces a term to normal form. -/
def nf (limits : Limits) (t : Indexed ρ) : Reduction ρ (Indexed ρ) :=
  nfWithin limits.contractions limits.nesting t

end Indexed
end Nameless
