import Nameless.Proofs.Height
import Nameless.Proofs.Indexed.Bounded
import Nameless.Proofs.Reduction

/-!
# Reducing named terms within bounds

A term that is no higher than the bound on nesting has the nameless form that it has without bounds,
and any other term is too deep, unless an obstacle stands in front of what is too deep. Together
with what bounds change about the reduction of nameless terms, this tells what they change about the
reduction of named ones: it ends early or it is the same, and it is the same within all bounds that
are large enough.

Main statements:
- `Named.toIndexedIn?_cases`, `Named.toIndexedIn?_of_height_le`: nameless forms within a depth,
- `Named.reduceIn?_eq_ok_iff`: when reduction comes to a result,
- `Named.reduceIn?_within`, `Named.reduceIn?_of_comesTo`: reducing within bounds and without them,
- `Named.reduceIn?_traced_within`, `Named.reduceIn?_traced_of_height_le`: with a trace and without,
- `Named.reduceIn?_of_nameless_eq`: a result is its own result within the same bounds, and so is
  what differs from it in the names of binders only.
-/

namespace Nameless

theorem Reduction.Within.ofExcept {ρ α : Type} {result result' : Except Failure α}
    (h : result = result' ∨ result = .error .tooDeep) :
    (Reduction.ofExcept result : Reduction ρ α).Within (.ofExcept result') := by
  rcases h with rfl | rfl
  · exact .refl _
  · exact .inr ⟨rfl, List.prefix_refl _⟩

namespace Named

variable {ρ : Type} [Leaf ρ]

/-! ## Nameless forms -/

/-- A nameless form is refused for the same reason as without bounds, or because the term is too
high. -/
theorem toIndexedIn?_cases (allowFree : Bool) (depth : Nat) (scope : List String) (t : Named ρ) :
    (t.toIndexedIn? allowFree depth scope = Failure.ofFault (t.toIndexed? allowFree scope) ∧
        ∀ u, t.toIndexed? allowFree scope = .ok u → t.height ≤ depth) ∨
      t.toIndexedIn? allowFree depth scope = .error .tooDeep ∧ depth < t.height := by
  induction t generalizing depth scope with
  | abs name body ih =>
    cases depth with
    | zero => exact .inr ⟨rfl, Nat.succ_pos _⟩
    | succ depth =>
      simp only [toIndexedIn?, toIndexed?]
      rcases ih depth (name :: scope) with ⟨heq, hheight⟩ | ⟨hdeep, hheight⟩
      · rw [heq]
        cases hbody : body.toIndexed? allowFree (name :: scope) with
        | error fault => exact .inl ⟨rfl, fun _ hok => by cases hok⟩
        | ok u => exact .inl ⟨rfl, fun _ _ => Nat.succ_le_succ (hheight u hbody)⟩
      · rw [hdeep]
        exact .inr ⟨rfl, Nat.succ_lt_succ hheight⟩
  | app fn arg ihf iha =>
    cases depth with
    | zero => exact .inr ⟨rfl, Nat.succ_pos _⟩
    | succ depth =>
      simp only [toIndexedIn?, toIndexed?]
      rcases ihf depth scope with ⟨hfn, hfnHeight⟩ | ⟨hdeep, hheight⟩
      · rw [hfn]
        cases hu : fn.toIndexed? allowFree scope with
        | error fault => exact .inl ⟨rfl, fun _ hok => by cases hok⟩
        | ok u =>
          -- The argument is looked at once the function has a nameless form.
          rcases iha depth scope with ⟨harg, hargHeight⟩ | ⟨hdeep, hheight⟩
          · rw [harg]
            cases hv : arg.toIndexed? allowFree scope with
            | error fault => exact .inl ⟨rfl, fun _ hok => by cases hok⟩
            | ok v =>
              have hmax := Nat.max_le.2 ⟨hfnHeight u hu, hargHeight v hv⟩
              exact .inl ⟨rfl, fun _ _ => Nat.succ_le_succ hmax⟩
          · rw [hdeep]
            exact .inr ⟨rfl, Nat.succ_lt_succ (Nat.lt_of_lt_of_le hheight (Nat.le_max_right _ _))⟩
      · rw [hdeep]
        exact .inr ⟨rfl, Nat.succ_lt_succ (Nat.lt_of_lt_of_le hheight (Nat.le_max_left _ _))⟩
  | sym name =>
    cases depth with
    | zero => exact .inr ⟨rfl, Nat.one_pos⟩
    | succ depth => exact .inl ⟨rfl, fun _ _ => Nat.succ_le_succ (Nat.zero_le depth)⟩
  | leaf x =>
    cases depth with
    | zero => exact .inr ⟨rfl, Nat.one_pos⟩
    | succ depth => exact .inl ⟨rfl, fun _ _ => Nat.succ_le_succ (Nat.zero_le depth)⟩

theorem toIndexedIn?_of_height_le {t : Named ρ} {depth : Nat} (h : t.height ≤ depth)
    (allowFree : Bool) (scope : List String) :
    t.toIndexedIn? allowFree depth scope = Failure.ofFault (t.toIndexed? allowFree scope) := by
  rcases toIndexedIn?_cases allowFree depth scope t with ⟨heq, _⟩ | ⟨_, hheight⟩
  · exact heq
  · exact absurd h (Nat.not_le_of_lt hheight)

theorem toIndexedIn?_eq_ok {t : Named ρ} {allowFree : Bool} {depth : Nat} {scope : List String}
    {u : Indexed Empty} (h : t.toIndexedIn? allowFree depth scope = .ok u) :
    t.toIndexed? allowFree scope = .ok u ∧ t.height ≤ depth := by
  rcases toIndexedIn?_cases allowFree depth scope t with ⟨heq, hheight⟩ | ⟨hdeep, _⟩
  · have hok := Failure.ofFault_eq_ok (heq.symm.trans h)
    exact ⟨hok, hheight u hok⟩
  · rw [hdeep] at h
    cases h

theorem freeNames_eq_of_nameless_eq {t u : Named Empty} (h : t.nameless [] = u.nameless []) :
    t.freeNames = u.freeNames := by
  have hfree : (t.nameless []).freeNames = (u.nameless []).freeNames := by rw [h]
  simpa [freeNames_nameless] using hfree

/-! ## Reduction -/

/-- What is left of a reduction once the term is nameless. -/
def finish (bounds : Bounds) (traced : Bool) (u : Indexed Empty) :
    Reduction Empty (Named Empty) :=
  (u.nfIn bounds traced).andThen fun v => .ofExcept (Failure.ofFault v.toNamed?)

theorem reduceIn?_eq (bounds : Bounds) (traced allowFree : Bool) (t : Named ρ) :
    t.reduceIn? bounds traced allowFree =
      (Reduction.ofExcept (t.toIndexedIn? allowFree bounds.nesting [])).andThen
        (finish bounds traced) := rfl

/-- Within bounds a reduction ends early, or it is the reduction without them. -/
theorem reduceIn?_within (bounds : Bounds) (traced allowFree : Bool) (t : Named ρ) :
    (t.reduceIn? bounds traced allowFree).Within (t.reduce? bounds.toLimits allowFree) := by
  refine Reduction.Within.andThen (.ofExcept ?_) fun u => ?_
  · rcases toIndexedIn?_cases allowFree bounds.nesting [] t with ⟨heq, _⟩ | ⟨hdeep, _⟩
    · exact .inl heq
    · exact .inr hdeep
  · exact (Indexed.nfIn_within bounds traced u).andThen fun _ => .refl _

theorem reduce?_of_reduceIn? {bounds : Bounds} {traced allowFree : Bool} {t : Named ρ}
    {r : Named Empty} {rs : List (Indexed Empty)}
    (h : t.reduceIn? bounds traced allowFree = ⟨rs, .ok r⟩) :
    t.reduce? bounds.toLimits allowFree = ⟨rs, .ok r⟩ := by
  have hwithin := reduceIn?_within bounds traced allowFree t
  rw [h] at hwithin
  exact (hwithin.eq_of_ok rfl).symm

/-- With a trace a reduction ends early, or it is the reduction without one. -/
theorem reduceIn?_traced_within (bounds : Bounds) (allowFree : Bool) (t : Named ρ) :
    (t.reduceIn? bounds true allowFree).Within (t.reduceIn? bounds false allowFree) := by
  refine Reduction.Within.andThen (.refl _) fun u => ?_
  exact (Indexed.nfIn_traced_within bounds u).andThen fun _ => .refl _

/-- What is found with a trace is found without one. -/
theorem reduceIn?_untraced {bounds : Bounds} {traced allowFree : Bool} {t : Named ρ}
    {r : Named Empty} {rs : List (Indexed Empty)}
    (h : t.reduceIn? bounds traced allowFree = ⟨rs, .ok r⟩) :
    t.reduceIn? bounds false allowFree = ⟨rs, .ok r⟩ := by
  cases traced with
  | false => exact h
  | true =>
    have hwithin := reduceIn?_traced_within bounds allowFree t
    rw [h] at hwithin
    exact (hwithin.eq_of_ok rfl).symm

/-- A result of a reduction is the named form of a nameless result. -/
theorem reduceIn?_eq_ok {bounds : Bounds} {traced allowFree : Bool} {t : Named ρ} {r : Named Empty}
    {rs : List (Indexed Empty)} (h : t.reduceIn? bounds traced allowFree = ⟨rs, .ok r⟩) :
    ∃ u v, t.toIndexed? allowFree [] = .ok u ∧ t.height ≤ bounds.nesting ∧
      u.nfIn bounds traced = ⟨rs, .ok v⟩ ∧ v.toNamed? = .ok r := by
  rw [reduceIn?_eq] at h
  rcases Reduction.andThen_eq_ok h with ⟨rs₁, u, rs₂, hu, hrest, rfl⟩
  rcases Reduction.ofExcept_eq_ok hu with ⟨rfl, hindexed⟩
  rcases Reduction.andThen_eq_ok hrest with ⟨rs₃, v, rs₄, hnf, hr, rfl⟩
  rcases Reduction.ofExcept_eq_ok hr with ⟨rfl, hnamed⟩
  rcases toIndexedIn?_eq_ok hindexed with ⟨htoIndexed, hheight⟩
  rw [List.append_nil]
  exact ⟨u, v, htoIndexed, hheight, hnf, Failure.ofFault_eq_ok hnamed⟩

theorem reduceIn?_of_nfIn {bounds : Bounds} {traced allowFree : Bool} {t : Named ρ}
    {r : Named Empty} {rs : List (Indexed Empty)} {u v : Indexed Empty}
    (hindexed : t.toIndexed? allowFree [] = .ok u) (hheight : t.height ≤ bounds.nesting)
    (hnf : u.nfIn bounds traced = ⟨rs, .ok v⟩) (hr : v.toNamed? = .ok r) :
    t.reduceIn? bounds traced allowFree = ⟨rs, .ok r⟩ := by
  rw [reduceIn?_eq, toIndexedIn?_of_height_le hheight, hindexed]
  change finish bounds traced u = _
  rw [finish, hnf]
  simp [Reduction.andThen, hr, Reduction.ofExcept, Failure.ofFault]

theorem toIndexed?_eq_ok_of_free {t : Named Empty} {allowFree : Bool}
    (h : allowFree = true ∨ t.freeNames = []) :
    t.toIndexed? allowFree [] = .ok (t.nameless []) := by
  rcases h with rfl | hclosed
  · exact toIndexed?_true [] t
  · exact toIndexed?_of_closed hclosed allowFree

/-- Reduction comes to a result just if no variable is free that must not be, the term is no higher
than terms may be, and a normal form of the nameless term is found. -/
theorem reduceIn?_eq_ok_iff {bounds : Bounds} {traced allowFree : Bool} {t u : Named Empty}
    {redexes : List (Indexed Empty)} :
    t.reduceIn? bounds traced allowFree = ⟨redexes, .ok u⟩ ↔
      (allowFree = true ∨ t.freeNames = []) ∧ t.height ≤ bounds.nesting ∧
        ∃ v, (t.nameless []).nfIn bounds traced = ⟨redexes, .ok v⟩ ∧ v.toNamed? = .ok u := by
  constructor
  · intro h
    rcases reduceIn?_eq_ok h with ⟨w, v, hindexed, hheight, hnf, hnamed⟩
    rcases toIndexed?_eq_ok hindexed with ⟨rfl, hbound⟩
    refine ⟨?_, hheight, v, hnf, hnamed⟩
    cases allowFree with
    | true => exact .inl rfl
    | false =>
      refine .inr (List.eq_nil_iff_forall_not_mem.2 ?_)
      intro x hx
      rcases mem_freeNames_iff.1 hx with ⟨p, hp⟩
      exact List.not_mem_nil (hbound rfl p x hp)
  · rintro ⟨hfree, hheight, v, hnf, hnamed⟩
    exact reduceIn?_of_nfIn (toIndexed?_eq_ok_of_free hfree) hheight hnf hnamed

/-- With a trace a reduction has the same result, if none of its redexes is too high to be written
down. -/
theorem reduceIn?_traced_of_height_le {bounds : Bounds} {allowFree : Bool} {t : Named ρ}
    {r : Named Empty} {rs : List (Indexed Empty)}
    (h : t.reduceIn? bounds false allowFree = ⟨rs, .ok r⟩)
    (hrs : ∀ redex ∈ rs, redex.height ≤ bounds.tracing) :
    t.reduceIn? bounds true allowFree = ⟨rs, .ok r⟩ := by
  rcases reduceIn?_eq_ok h with ⟨u, v, hindexed, hheight, hnf, hr⟩
  exact reduceIn?_of_nfIn hindexed hheight (Indexed.nfIn_traced_of_height_le hnf hrs) hr

/-- All redexes of a reduction with a trace can be written down, but for the one that may end it. -/
theorem reduceIn?_allButLast (bounds : Bounds) (allowFree : Bool) (t : Named ρ) :
    (t.reduceIn? bounds true allowFree).AllButLast
      fun redex => redex.height ≤ bounds.tracing := by
  refine Reduction.AllButLast.andThen (.inl (by simp [Reduction.ofExcept])) fun u => ?_
  exact (Indexed.nfIn_allButLast bounds u).andThen fun v => .inl (by simp [Reduction.ofExcept])

theorem height_le_of_reduceIn? {bounds : Bounds} {allowFree : Bool} {t : Named ρ} {r : Named Empty}
    {rs : List (Indexed Empty)} (h : t.reduceIn? bounds true allowFree = ⟨rs, .ok r⟩) :
    ∀ redex ∈ rs, redex.height ≤ bounds.tracing := by
  have hlast := reduceIn?_allButLast bounds allowFree t
  rw [h] at hlast
  exact hlast.of_ok rfl

/-- A result is found within all bounds that are large enough, with the same redexes. -/
theorem reduceIn?_of_reduce? {limits : Limits} {allowFree : Bool} {t r : Named Empty}
    {rs : List (Indexed Empty)} (h : t.reduce? limits allowFree = ⟨rs, .ok r⟩) :
    ∃ enough, ∀ (bounds : Bounds) traced, enough ≤ bounds.contractions → enough ≤ bounds.nesting →
      (traced = true → enough ≤ bounds.tracing) →
      t.reduceIn? bounds traced allowFree = ⟨rs, .ok r⟩ := by
  rcases reduce?_eq_ok h with ⟨u, v, hindexed, hnf, hr⟩
  rcases Indexed.exists_height_le rs with ⟨highest, hrs⟩
  refine ⟨limits.contractions + limits.nesting + 2 * highest + t.height, ?_⟩
  intro bounds traced hcontractions hnesting htracing
  refine reduceIn?_of_nfIn hindexed (by omega) ?_ hr
  refine Indexed.nfIn_of_nf hnf hrs (by omega) (by omega) fun htraced => ?_
  have htrace := htracing htraced
  omega

/-- What large enough limits let a term come to is what large enough bounds let it come to. -/
theorem reduceIn?_of_comesTo {allowFree : Bool} {t r : Named Empty}
    (h : Reduction.ComesTo (fun limits => t.reduce? limits allowFree) r) :
    (∃ enough, ∀ (bounds : Bounds) traced, enough ≤ bounds.contractions →
      enough ≤ bounds.nesting → (traced = true → enough ≤ bounds.tracing) →
      (t.reduceIn? bounds traced allowFree).result = .ok r) ∧
      ∀ bounds traced, (t.reduceIn? bounds traced allowFree).result = .ok r ∨
        (t.reduceIn? bounds traced allowFree).result = .error .tooDeep := by
  rcases h with ⟨⟨limits, hlimits⟩, hresult⟩
  constructor
  · have hok := hlimits limits (Nat.le_refl _) (Nat.le_refl _)
    rcases reduceIn?_of_reduce? (Reduction.eq_of_result hok) with ⟨enough, henough⟩
    refine ⟨enough, fun bounds traced hcontractions hnesting htracing => ?_⟩
    rw [henough bounds traced hcontractions hnesting htracing]
  · intro bounds traced
    rcases (reduceIn?_within bounds traced allowFree t).result_eq with heq | hdeep
    · rw [heq]
      exact hresult bounds.toLimits
    · exact .inr hdeep

/-- A term that differs from a result in the names of its binders only has the same result within
the same bounds, without a contraction. -/
theorem reduceIn?_of_nameless_eq {bounds : Bounds} {traced allowFree : Bool} {t r u : Named Empty}
    {rs : List (Indexed Empty)} (h : t.reduceIn? bounds traced allowFree = ⟨rs, .ok r⟩)
    (hu : u.nameless [] = r.nameless []) (traced' : Bool) :
    u.reduceIn? bounds traced' allowFree = .done r := by
  rcases reduceIn?_eq_ok h with ⟨w, v, hindexed, _, hnf, hr⟩
  rcases (toIndexed?_eq_ok hindexed).1 with rfl
  -- Both have the nameless form that was found, which is its own normal form within the bounds.
  have hback : u.nameless [] = v := hu.trans (Indexed.nameless_toNamed? hr)
  have hsubset : u.freeNames ⊆ t.freeNames := by
    rw [freeNames_eq_of_nameless_eq hu, freeNames_of_toNamed? hr]
    exact freeNames_of_nf (by rw [Indexed.nf_of_nfIn hnf])
  have hagain : u.toIndexed? allowFree [] = .ok v := by
    rw [← hback]
    exact toIndexed?_of_subset hindexed hsubset
  have hheight : u.height ≤ bounds.nesting := by
    calc u.height
        = r.height := by rw [← height_nameless u [], hu, height_nameless]
      _ ≤ bounds.nesting := height_le_of_reduce? (by rw [reduce?_of_reduceIn? h])
  exact reduceIn?_of_nfIn hagain hheight (Indexed.nfIn_result hnf traced') hr

/-- A normal term without free variables is its own result, up to the names of its binders, if it is
no higher than terms may be. -/
theorem exists_reduceIn?_of_normal {t : Named Empty} (hclosed : t.freeNames = [])
    (hnormal : (t.nameless []).Normal) {bounds : Bounds} (hheight : t.height ≤ bounds.nesting)
    (allowFree : Bool) :
    ∃ u, u.nameless [] = t.nameless [] ∧ ∀ traced, t.reduceIn? bounds traced allowFree = .done u := by
  have hscoped : (t.nameless []).Scoped ([] : List String).length := t.scoped_nameless []
  rcases Indexed.exists_toNamedFrom? hscoped (t.nameless []).freeNames 0 with ⟨u, hu⟩
  refine ⟨u, Indexed.nameless_toNamed? hu, fun traced => ?_⟩
  have hnf := Indexed.nfIn_of_normal hnormal (by rwa [height_nameless]) traced
  exact reduceIn?_of_nfIn (toIndexed?_of_closed hclosed allowFree) hheight hnf hu

theorem lettered_of_reduceIn? {bounds : Bounds} {traced allowFree : Bool} {t r : Named Empty}
    {rs : List (Indexed Empty)} (ht : t.Lettered)
    (h : t.reduceIn? bounds traced allowFree = ⟨rs, .ok r⟩) : r.Lettered := by
  rcases reduceIn?_eq_ok h with ⟨w, v, hindexed, _, hnf, hr⟩
  rcases (toIndexed?_eq_ok hindexed).1 with rfl
  have hsubset : v.freeNames ⊆ t.freeNames := freeNames_of_nf (by rw [Indexed.nf_of_nfIn hnf])
  apply Indexed.lettered_toNamedFrom? (by simp) _ hr
  intro name hname
  exact ht.of_mem_freeNames (hsubset hname)

end Named
end Nameless
