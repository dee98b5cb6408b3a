import Nameless.Conversion

/-!
# Results of computations in several parts

A computation in several parts comes to a result only if each part does, and it fails only if one
of its parts fails. These inversions take such a computation apart, so that proofs about it speak of
its parts and need not open it.

Main statements:
- `Except.bind_eq_ok`, `Except.bind_eq_error`: a result or a failure of two parts that may fail,
- `Reduction.andThen_eq_ok`, `Reduction.andThen_eq_error`: the same for reductions, with the redexes
  of each part.
-/

namespace Nameless

namespace Except

theorem bind_eq_ok {ε α β : Type} {first : Except ε α} {next : α → Except ε β} {result : β}
    (h : first >>= next = .ok result) : ∃ a, first = .ok a ∧ next a = .ok result := by
  rcases first with failure | a
  · exact absurd h (by simp [bind, Except.bind])
  · exact ⟨a, rfl, h⟩

theorem bind_eq_error {ε α β : Type} {first : Except ε α} {next : α → Except ε β} {failure : ε}
    (h : first >>= next = .error failure) :
    first = .error failure ∨ ∃ a, first = .ok a ∧ next a = .error failure := by
  rcases first with failure' | a
  · exact .inl (by simpa [bind, Except.bind] using h)
  · exact .inr ⟨a, rfl, h⟩

end Except

namespace Reduction

variable {ρ α β : Type}

theorem eq_of_result {r : Reduction ρ α} {result : Except Failure α} (h : r.result = result) :
    r = ⟨r.redexes, result⟩ := by
  rw [← h]

/-- A reduction in two parts that comes to a result has one in its first part. -/
theorem andThen_eq_ok {r : Reduction ρ α} {next : α → Reduction ρ β} {rs : List (Indexed ρ)}
    {b : β} (h : r.andThen next = ⟨rs, .ok b⟩) :
    ∃ rs₁ a rs₂, r = ⟨rs₁, .ok a⟩ ∧ next a = ⟨rs₂, .ok b⟩ ∧ rs = rs₁ ++ rs₂ := by
  rcases r with ⟨rs₁, failure | a⟩
  · simp [andThen] at h
  · rcases hnext : next a with ⟨rs₂, result⟩
    simp only [andThen, hnext, mk.injEq] at h
    rcases h with ⟨rfl, rfl⟩
    exact ⟨rs₁, a, rs₂, rfl, hnext, rfl⟩

theorem andThen_eq_error {r : Reduction ρ α} {next : α → Reduction ρ β} {failure : Failure}
    (h : (r.andThen next).result = .error failure) :
    r.result = .error failure ∨ ∃ a, (next a).result = .error failure := by
  rcases r with ⟨rs, failure' | a⟩
  · exact .inl (by simpa [andThen] using h)
  · exact .inr ⟨a, by simpa [andThen] using h⟩

theorem ofExcept_eq_ok {rs : List (Indexed ρ)} {result : Except Failure α} {a : α}
    (h : (ofExcept result : Reduction ρ α) = ⟨rs, .ok a⟩) : rs = [] ∧ result = .ok a := by
  simp only [ofExcept, mk.injEq] at h
  exact ⟨h.1.symm, h.2⟩

theorem done_eq_ok {rs : List (Indexed ρ)} {a b : α}
    (h : (done a : Reduction ρ α) = ⟨rs, .ok b⟩) : rs = [] ∧ b = a := by
  simp only [done, mk.injEq, Except.ok.injEq] at h
  exact ⟨h.1.symm, h.2.symm⟩

end Reduction

theorem Failure.ofFault_eq_ok {α : Type} {result : Except Fault α} {a : α}
    (h : Failure.ofFault result = .ok a) : result = .ok a := by
  cases result with
  | error cause => simp [Failure.ofFault] at h
  | ok b => simpa [Failure.ofFault] using h

end Nameless
