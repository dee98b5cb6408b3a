import Nameless.Indexed.Bounded
import Nameless.Proofs.Indexed.NormalOrder

/-!
# What bounds change about a reduction

A reduction within bounds contracts what the reduction without them contracts, redex by redex, until
it meets a bound. So it is that reduction, or the beginning of it. A reduction that comes to a
result contracts finitely many redexes, so it comes to the same result within all bounds that are
large enough, with a trace or without one.

This file defines:
- `Reduction.Within`: a reduction that is another one, or its beginning up to a bound,
- `Reduction.AllButLast`: a property of all redexes but the one that a reduction ends at,
- `Indexed.reduceParts`: reducing what is left below the head of a term.

Main statements:
- `Indexed.nfBy_within`: contractions that differ in what they refuse as too deep only,
- `Indexed.nfBy_of_agrees`: contractions that agree on the redexes of a reduction with a result,
- `Indexed.nfIn_within`, `Indexed.nfIn_of_nf`: reducing within bounds and without them,
- `Indexed.nfIn_traced_within`, `Indexed.nfIn_traced_of_height_le`: with a trace and without one,
- `Indexed.nfIn_allButLast`: the redexes of a reduction with a trace,
- `Indexed.nfIn_result`: a result is its own result within the same bounds.
-/

namespace Nameless

/-! ## Reductions that end early -/

namespace Reduction

variable {ρ α β : Type}

/-- The one reduction is the other, or it ends at a bound while it still does the same. -/
def Within (r r' : Reduction ρ α) : Prop :=
  r = r' ∨ r.result = .error .tooDeep ∧ r.redexes <+: r'.redexes

theorem redexes_prefix_andThen (r : Reduction ρ α) (next : α → Reduction ρ β) :
    r.redexes <+: (r.andThen next).redexes := by
  rcases r with ⟨redexes, failure | a⟩
  · exact List.prefix_refl redexes
  · exact List.prefix_append redexes (next a).redexes

namespace Within

variable {r r' : Reduction ρ α}

theorem refl (r : Reduction ρ α) : r.Within r :=
  .inl rfl

theorem eq_of_ok (h : r.Within r') {a : α} (hok : r.result = .ok a) : r = r' := by
  rcases h with heq | ⟨hdeep, _⟩
  · exact heq
  · rw [hok] at hdeep
    cases hdeep

theorem result_eq (h : r.Within r') : r.result = r'.result ∨ r.result = .error .tooDeep := by
  rcases h with rfl | ⟨hdeep, _⟩
  · exact .inl rfl
  · exact .inr hdeep

theorem prefix_redexes (h : r.Within r') : r.redexes <+: r'.redexes := by
  rcases h with rfl | ⟨_, hbegins⟩
  · exact List.prefix_refl _
  · exact hbegins

theorem andThen (h : r.Within r') {next next' : α → Reduction ρ β}
    (hnext : ∀ a, (next a).Within (next' a)) :
    (r.andThen next).Within (r'.andThen next') := by
  rcases h with rfl | ⟨hdeep, hbegins⟩
  · rcases r with ⟨redexes, failure | a⟩
    · exact refl _
    · rcases hnext a with heq | ⟨hdeep, hbegins⟩
      · exact .inl (by simp only [Reduction.andThen, heq])
      · exact .inr ⟨hdeep, (List.prefix_append_right_inj redexes).2 hbegins⟩
  · -- Nothing follows where the first part has ended at a bound.
    rcases r with ⟨redexes, failure | a⟩
    · cases hdeep
      exact .inr ⟨rfl, hbegins.trans (redexes_prefix_andThen r' next')⟩
    · cases hdeep

end Within

/-- All redexes have a property, or the last one has not, and there the reduction went too deep. -/
def AllButLast (P : Indexed ρ → Prop) (r : Reduction ρ α) : Prop :=
  (∀ redex ∈ r.redexes, P redex) ∨
    r.result = .error .tooDeep ∧
      ∃ before last, r.redexes = before ++ [last] ∧ (∀ redex ∈ before, P redex) ∧ ¬ P last

namespace AllButLast

variable {P : Indexed ρ → Prop} {r : Reduction ρ α}

theorem done (a : α) : (done a : Reduction ρ α).AllButLast P :=
  .inl fun _ hmem => by cases hmem

theorem of_ok (h : r.AllButLast P) {a : α} (hok : r.result = .ok a) :
    ∀ redex ∈ r.redexes, P redex := by
  rcases h with hall | ⟨hdeep, _⟩
  · exact hall
  · rw [hok] at hdeep
    cases hdeep

theorem andThen (h : r.AllButLast P) {next : α → Reduction ρ β}
    (hnext : ∀ a, (next a).AllButLast P) : (r.andThen next).AllButLast P := by
  rcases r with ⟨redexes, failure | a⟩
  · rcases h with hall | ⟨hdeep, hlast⟩
    · exact .inl hall
    · cases hdeep
      exact .inr ⟨rfl, hlast⟩
  · -- The first part has a result, so what may go too deep is the second.
    have hall : ∀ redex ∈ redexes, P redex := h.of_ok rfl
    rcases hnext a with hrest | ⟨hdeep, before, last, hredexes, hbefore, hlast⟩
    · exact .inl (List.forall_mem_append.2 ⟨hall, hrest⟩)
    · refine .inr ⟨hdeep, redexes ++ before, last, ?_, ?_, hlast⟩
      · simp only [Reduction.andThen, hredexes, List.append_assoc]
      · exact List.forall_mem_append.2 ⟨hall, hbefore⟩

end AllButLast
end Reduction

namespace Indexed

variable {ρ : Type}

/-! ## Reduction at the head -/

theorem seen_prefix_whnfFrom (contract : Contraction ρ) (contractions : Nat)
    (seen : List (Indexed ρ)) (t : Indexed ρ) (args : List (Indexed ρ)) :
    seen.reverse <+: (whnfFrom contract contractions seen t args).redexes := by
  induction contractions generalizing seen t args with
  | zero =>
    rcases whnfFrom_cases t args with ⟨_, heq⟩ | ⟨body, arg, rest, _, heq⟩
    · simp only [heq, List.prefix_rfl]
    · have hnone : whnfFrom contract 0 seen (lam body) (arg :: rest) =
          ⟨seen.reverse, .error .tooDeep⟩ := by
        unfold whnfFrom
        rfl
      simp only [heq, hnone, List.prefix_rfl]
  | succ contractions ih =>
    rcases whnfFrom_cases t args with ⟨_, heq⟩ | ⟨body, arg, rest, _, heq⟩
    · simp only [heq, List.prefix_rfl]
    · have hseen : seen.reverse <+: (app (lam body) arg :: seen).reverse := by
        rw [List.reverse_cons]
        exact List.prefix_append _ _
      rw [heq, whnfFrom_lam_cons]
      split
      · exact hseen
      · exact hseen.trans (ih _ _ _)

theorem whnfFrom_within {c c' : Contraction ρ}
    (h : ∀ body arg, c body arg = c' body arg ∨ c body arg = .error .tooDeep) (contractions : Nat)
    (seen : List (Indexed ρ)) (t : Indexed ρ) (args : List (Indexed ρ)) :
    (whnfFrom c contractions seen t args).Within (whnfFrom c' contractions seen t args) := by
  induction contractions generalizing seen t args with
  | zero =>
    rcases whnfFrom_cases t args with ⟨_, heq⟩ | ⟨body, arg, rest, _, heq⟩
    · rw [heq, heq]
      exact .refl _
    · rw [heq, heq]
      exact .refl _
  | succ contractions ih =>
    rcases whnfFrom_cases t args with ⟨_, heq⟩ | ⟨body, arg, rest, _, heq⟩
    · rw [heq, heq]
      exact .refl _
    · rw [heq, heq, whnfFrom_lam_cons, whnfFrom_lam_cons]
      rcases h body arg with hsame | hdeep
      · rw [hsame]
        cases c' body arg with
        | error failure => exact .refl _
        | ok u => exact ih _ _ _
      · -- The redex that is refused is on record in both reductions.
        rw [hdeep]
        refine .inr ⟨rfl, ?_⟩
        cases c' body arg with
        | error failure => exact List.prefix_refl _
        | ok u => exact seen_prefix_whnfFrom _ _ _ _ _

/-- A result is there at once, or it comes after the contraction of the redex at the head. -/
theorem whnfFrom_eq_ok {contract : Contraction ρ} {contractions : Nat} {seen rs : List (Indexed ρ)}
    {t u : Indexed ρ} {args : List (Indexed ρ)}
    (h : whnfFrom contract contractions seen t args = ⟨rs, .ok u⟩) :
    (rs = seen.reverse ∧ ∀ (c : Contraction ρ) k, whnfFrom c k seen t args = ⟨rs, .ok u⟩) ∨
      ∃ left body arg rest v, contractions = left + 1 ∧ contract body arg = .ok v ∧
        whnfFrom contract left (app (lam body) arg :: seen) v rest = ⟨rs, .ok u⟩ ∧
        ∀ (c : Contraction ρ) k,
          whnfFrom c k seen t args = whnfFrom c k seen (lam body) (arg :: rest) := by
  rcases whnfFrom_cases t args with ⟨_, heq⟩ | ⟨body, arg, rest, _, heq⟩
  · rw [heq] at h
    exact .inl ⟨(congrArg Reduction.redexes h).symm, fun c k => (heq c k seen).trans h⟩
  · rw [heq] at h
    cases contractions with
    | zero => simp [whnfFrom, unwind] at h
    | succ left =>
      rw [whnfFrom_lam_cons] at h
      cases hv : contract body arg with
      | error failure => simp [hv] at h
      | ok v =>
        rw [hv] at h
        exact .inr ⟨left, body, arg, rest, v, rfl, hv, h, fun c k => heq c k seen⟩

theorem whnfFrom_of_agrees {c c' : Contraction ρ} {contractions : Nat} {seen rs : List (Indexed ρ)}
    {t u : Indexed ρ} {args : List (Indexed ρ)}
    (h : whnfFrom c contractions seen t args = ⟨rs, .ok u⟩)
    (hagree : ∀ body arg, app (lam body) arg ∈ rs → c' body arg = c body arg) (more : Nat) :
    whnfFrom c' (contractions + more) seen t args = ⟨rs, .ok u⟩ := by
  induction contractions generalizing seen t args with
  | zero =>
    rcases whnfFrom_eq_ok h with ⟨_, heq⟩ | ⟨_, _, _, _, _, hzero, _⟩
    · exact heq c' _
    · cases hzero
  | succ contractions ih =>
    rcases whnfFrom_eq_ok h with ⟨_, heq⟩ | ⟨_, body, arg, rest, v, hsucc, hv, hrest, heq⟩
    · exact heq c' _
    · rcases Nat.succ.inj hsucc with rfl
      have hmem : app (lam body) arg ∈ rs := by
        have hseen := seen_prefix_whnfFrom c contractions (app (lam body) arg :: seen) v rest
        rw [hrest] at hseen
        exact hseen.subset (by simp)
      rw [heq, Nat.add_right_comm, whnfFrom_lam_cons, hagree body arg hmem, hv]
      exact ih hrest

/-- If only redexes with a property are contracted, then all that are recorded have it, but for the
one that may end the reduction. -/
theorem whnfFrom_allButLast {P : Indexed ρ → Prop} {c : Contraction ρ}
    (hc : ∀ body arg, P (app (lam body) arg) ∨ c body arg = .error .tooDeep) {contractions : Nat}
    {seen args : List (Indexed ρ)} {t : Indexed ρ} (hseen : ∀ redex ∈ seen, P redex) :
    (whnfFrom c contractions seen t args).AllButLast P := by
  have hreverse : ∀ seen : List (Indexed ρ), (∀ redex ∈ seen, P redex) →
      ∀ redex ∈ seen.reverse, P redex :=
    fun _ hseen redex hmem => hseen redex (List.mem_reverse.1 hmem)
  induction contractions generalizing seen t args with
  | zero =>
    rcases whnfFrom_cases t args with ⟨_, heq⟩ | ⟨body, arg, rest, _, heq⟩
    · rw [heq]
      exact .inl (hreverse seen hseen)
    · rw [heq]
      exact .inl (hreverse seen hseen)
  | succ contractions ih =>
    rcases whnfFrom_cases t args with ⟨_, heq⟩ | ⟨body, arg, rest, _, heq⟩
    · rw [heq]
      exact .inl (hreverse seen hseen)
    · rw [heq, whnfFrom_lam_cons]
      by_cases hredex : P (app (lam body) arg)
      · have hmore : ∀ redex ∈ app (lam body) arg :: seen, P redex :=
          List.forall_mem_cons.2 ⟨hredex, hseen⟩
        cases c body arg with
        | error failure => exact .inl (hreverse _ hmore)
        | ok u => exact ih hmore
      · -- The redex is refused, but it is on record.
        rw [(hc body arg).resolve_left hredex]
        exact .inr ⟨rfl, seen.reverse, _, List.reverse_cons, hreverse seen hseen, hredex⟩

/-! ## Reduction to normal form -/

/-- Reduces what is left below the head of a term: the body of an abstraction, or the two sides of
an application. -/
def reduceParts (reduce : Indexed ρ → Reduction ρ (Indexed ρ)) : Indexed ρ → Reduction ρ (Indexed ρ)
  | lam body => (reduce body).andThen fun body => .done (lam body)
  | app fn arg =>
    (reduce fn).andThen fun fn => (reduce arg).andThen fun arg => .done (app fn arg)
  | t => .done t

theorem nfBy_succ (c : Nat → Contraction ρ) (contractions depth : Nat) (t : Indexed ρ) :
    nfBy c contractions (depth + 1) t =
      (whnfFrom (c depth) contractions [] t []).andThen
        (reduceParts (nfBy c contractions depth)) := by
  refine congrArg (Reduction.andThen _) (funext fun u => ?_)
  cases u <;> rfl

/-- A contraction that refuses more as too deep, and is the same otherwise, makes the reduction end
early or makes no difference. -/
theorem nfBy_within {c c' : Nat → Contraction ρ}
    (h : ∀ depth body arg,
      c depth body arg = c' depth body arg ∨ c depth body arg = .error .tooDeep)
    (contractions depth : Nat) (t : Indexed ρ) :
    (nfBy c contractions depth t).Within (nfBy c' contractions depth t) := by
  induction depth generalizing t with
  | zero => exact .refl _
  | succ depth ih =>
    rw [nfBy_succ, nfBy_succ]
    refine (whnfFrom_within (h depth) contractions [] t []).andThen fun w => ?_
    cases w with
    | lam body => exact (ih body).andThen fun _ => .refl _
    | app fn arg => exact (ih fn).andThen fun _ => (ih arg).andThen fun _ => .refl _
    | var index => exact .refl _
    | free name => exact .refl _
    | leaf x => exact .refl _

/-- A contraction that agrees on the redexes of a reduction leads to the same result, with further
levels and contractions in reserve. -/
theorem nfBy_of_agrees {c c' : Nat → Contraction ρ} (room : Nat) {rs : List (Indexed ρ)}
    (hagree : ∀ depth body arg, app (lam body) arg ∈ rs →
      c' (depth + room) body arg = c depth body arg)
    {contractions depth : Nat} {t u : Indexed ρ} (h : nfBy c contractions depth t = ⟨rs, .ok u⟩)
    (more : Nat) : nfBy c' (contractions + more) (depth + room) t = ⟨rs, .ok u⟩ := by
  induction depth generalizing t u rs with
  | zero => simp [nfBy, Reduction.fail] at h
  | succ depth ih =>
    rw [nfBy_succ] at h
    rcases Reduction.andThen_eq_ok h with ⟨rs₁, w, rs₂, hwhnf, hrest, rfl⟩
    have hhead : whnfFrom (c' (depth + room)) (contractions + more) [] t [] = ⟨rs₁, .ok w⟩ :=
      whnfFrom_of_agrees hwhnf
        (fun body arg hmem => hagree depth body arg (List.mem_append_left _ hmem)) more
    have hbelow : ∀ redex ∈ rs₂, redex ∈ rs₁ ++ rs₂ := fun _ => List.mem_append_right _
    rw [Nat.add_right_comm, nfBy_succ, hhead]
    suffices hsame : reduceParts (nfBy c' (contractions + more) (depth + room)) w = ⟨rs₂, .ok u⟩ by
      simp only [Reduction.andThen, hsame]
    -- The parts of what is left are reduced with the same redexes, one level further down.
    cases w with
    | lam body =>
      rcases Reduction.andThen_eq_ok hrest with ⟨rs₃, body', rs₄, hbody, hdone, rfl⟩
      rcases Reduction.done_eq_ok hdone with ⟨rfl, rfl⟩
      have hbody' := ih (fun depth body arg hmem =>
        hagree depth body arg (hbelow _ (List.mem_append_left _ hmem))) hbody
      simp [reduceParts, hbody', Reduction.andThen, Reduction.done]
    | app fn arg =>
      rcases Reduction.andThen_eq_ok hrest with ⟨rs₃, fn', rs₄, hfn, hrest', rfl⟩
      rcases Reduction.andThen_eq_ok hrest' with ⟨rs₅, arg', rs₆, harg, hdone, rfl⟩
      rcases Reduction.done_eq_ok hdone with ⟨rfl, rfl⟩
      have hfn' := ih (fun depth body arg hmem =>
        hagree depth body arg (hbelow _ (List.mem_append_left _ hmem))) hfn
      have harg' := ih (fun depth body arg hmem =>
        hagree depth body arg (hbelow _ (List.mem_append_right _ (List.mem_append_left _ hmem))))
        harg
      simp [reduceParts, hfn', harg', Reduction.andThen, Reduction.done]
    | _ => exact hrest

theorem nfBy_allButLast {P : Indexed ρ → Prop} {c : Nat → Contraction ρ}
    (hc : ∀ depth body arg, P (app (lam body) arg) ∨ c depth body arg = .error .tooDeep)
    (contractions depth : Nat) (t : Indexed ρ) : (nfBy c contractions depth t).AllButLast P := by
  induction depth generalizing t with
  | zero => exact .inl (by simp [nfBy, Reduction.fail])
  | succ depth ih =>
    rw [nfBy_succ]
    refine (whnfFrom_allButLast (hc depth) (by simp)).andThen fun w => ?_
    cases w with
    | lam body => exact (ih body).andThen fun _ => .done _
    | app fn arg => exact (ih fn).andThen fun _ => (ih arg).andThen fun _ => .done _
    | var index => exact .done _
    | free name => exact .done _
    | leaf x => exact .done _

/-! ## Room for a contraction -/

theorem exists_height_le (rs : List (Indexed ρ)) :
    ∃ enough, ∀ redex ∈ rs, redex.height ≤ enough := by
  induction rs with
  | nil => exact ⟨0, by simp⟩
  | cons redex rest ih =>
    rcases ih with ⟨enough, hrest⟩
    refine ⟨max redex.height enough, List.forall_mem_cons.2 ⟨Nat.le_max_left _ _, ?_⟩⟩
    exact fun other hmem => Nat.le_trans (hrest other hmem) (Nat.le_max_right _ _)

theorem hasRoom_of_le {arg body : Indexed ρ} {depth : Nat}
    (h : body.height + arg.height ≤ depth) : arg.hasRoom depth body = true := by
  induction body generalizing depth with
  | lam body ih =>
    rcases Nat.exists_eq_add_of_le' (show 1 ≤ depth by simp only [height] at h; omega) with
      ⟨depth, rfl⟩
    have hbody : body.height + arg.height ≤ depth := by simp only [height] at h; omega
    simp only [hasRoom, Bool.and_eq_true, decide_eq_true_eq]
    exact ⟨Nat.le_trans (Nat.le_add_left _ _) hbody, ih hbody⟩
  | app fn operand ihf iha =>
    rcases Nat.exists_eq_add_of_le' (show 1 ≤ depth by simp only [height] at h; omega) with
      ⟨depth, rfl⟩
    have hparts : fn.height + arg.height ≤ depth ∧ operand.height + arg.height ≤ depth := by
      simp only [height] at h
      omega
    simp only [hasRoom, Bool.and_eq_true]
    exact ⟨ihf hparts.1, iha hparts.2⟩
  | _ =>
    rcases Nat.exists_eq_add_of_le' (show 1 ≤ depth by simp only [height] at h; omega) with
      ⟨depth, rfl⟩
    rfl

variable [Leaf ρ]

theorem contractWithin?_within (depth : Nat) (body arg : Indexed ρ) :
    contractWithin? depth body arg = body.contract? arg ∨
      contractWithin? depth body arg = .error .tooDeep := by
  unfold contractWithin?
  split
  · exact .inl rfl
  · exact .inr rfl

theorem contractIn?_within (bounds : Bounds) (traced : Bool) (depth : Nat) (body arg : Indexed ρ) :
    contractIn? bounds traced depth body arg = contractWithin? depth body arg ∨
      contractIn? bounds traced depth body arg = .error .tooDeep := by
  unfold contractIn?
  split
  · exact .inr rfl
  · exact .inl rfl

theorem contractIn?_of_height_le {bounds : Bounds} {traced : Bool} {depth : Nat}
    {body arg : Indexed ρ}
    (htraced : traced = true → (app (lam body) arg).height ≤ bounds.tracing) :
    contractIn? bounds traced depth body arg = contractWithin? depth body arg := by
  unfold contractIn?
  refine if_neg ?_
  rw [Bool.and_eq_true, decide_eq_true_eq, not_and, Nat.not_lt]
  exact htraced

theorem contractIn?_of_room {bounds : Bounds} {traced : Bool} {depth : Nat} {body arg : Indexed ρ}
    (htraced : traced = true → (app (lam body) arg).height ≤ bounds.tracing)
    (hroom : 2 * (app (lam body) arg).height ≤ depth) :
    contractIn? bounds traced depth body arg = body.contract? arg := by
  rw [contractIn?_of_height_le htraced]
  refine if_pos (hasRoom_of_le ?_)
  simp only [height] at hroom
  omega

/-- Only redexes that can be written down are contracted with a trace. -/
theorem height_le_or_contractIn? (bounds : Bounds) (depth : Nat) (body arg : Indexed ρ) :
    (app (lam body) arg).height ≤ bounds.tracing ∨
      contractIn? bounds true depth body arg = .error .tooDeep := by
  unfold contractIn?
  split
  · exact .inr rfl
  · next hlow => exact .inl (by simpa using hlow)

/-! ## Reduction within bounds -/

theorem nfIn_within (bounds : Bounds) (traced : Bool) (t : Indexed ρ) :
    (t.nfIn bounds traced).Within (t.nf bounds.toLimits) := by
  refine nfBy_within (fun depth body arg => ?_) _ _ t
  rcases contractIn?_within bounds traced depth body arg with heq | hdeep
  · rw [heq]
    exact contractWithin?_within depth body arg
  · exact .inr hdeep

theorem nf_of_nfIn {bounds : Bounds} {traced : Bool} {t u : Indexed ρ} {rs : List (Indexed ρ)}
    (h : t.nfIn bounds traced = ⟨rs, .ok u⟩) : t.nf bounds.toLimits = ⟨rs, .ok u⟩ := by
  have hwithin := nfIn_within bounds traced t
  rw [h] at hwithin
  exact (hwithin.eq_of_ok rfl).symm

/-- A trace may end a reduction early, and changes nothing else. -/
theorem nfIn_traced_within (bounds : Bounds) (t : Indexed ρ) :
    (t.nfIn bounds true).Within (t.nfIn bounds false) :=
  nfBy_within (fun depth body arg => contractIn?_within bounds true depth body arg) _ _ t

/-- A reduction is the same with a trace, if none of its redexes is too high to be written down. -/
theorem nfIn_traced_of_height_le {bounds : Bounds} {t u : Indexed ρ} {rs : List (Indexed ρ)}
    (h : t.nfIn bounds false = ⟨rs, .ok u⟩) (hrs : ∀ redex ∈ rs, redex.height ≤ bounds.tracing) :
    t.nfIn bounds true = ⟨rs, .ok u⟩ := by
  refine nfBy_of_agrees 0 ?_ h 0
  intro depth body arg hmem
  exact contractIn?_of_height_le fun _ => hrs _ hmem

/-- All redexes of a reduction with a trace can be written down, but for the one that may end it. -/
theorem nfIn_allButLast (bounds : Bounds) (t : Indexed ρ) :
    (t.nfIn bounds true).AllButLast fun redex => redex.height ≤ bounds.tracing :=
  nfBy_allButLast (height_le_or_contractIn? bounds) _ _ t

/-- A result is found within all bounds that are large enough. -/
theorem nfIn_of_nf {limits : Limits} {t u : Indexed ρ} {rs : List (Indexed ρ)}
    (h : t.nf limits = ⟨rs, .ok u⟩) {enough : Nat} (hrs : ∀ redex ∈ rs, redex.height ≤ enough)
    {bounds : Bounds} {traced : Bool} (hcontractions : limits.contractions ≤ bounds.contractions)
    (hnesting : limits.nesting + 2 * enough ≤ bounds.nesting)
    (htracing : traced = true → enough ≤ bounds.tracing) :
    t.nfIn bounds traced = ⟨rs, .ok u⟩ := by
  rcases Nat.exists_eq_add_of_le hcontractions with ⟨more, hmore⟩
  rcases Nat.exists_eq_add_of_le (Nat.le_of_add_right_le hnesting) with ⟨room, hroom⟩
  have hall : t.nfIn bounds traced = nfBy (contractIn? bounds traced)
      (limits.contractions + more) (limits.nesting + room) t := by rw [← hmore, ← hroom]; rfl
  rw [hall]
  refine nfBy_of_agrees room ?_ h more
  intro depth body arg hmem
  have hheight := hrs _ hmem
  refine contractIn?_of_room (fun htraced => ?_) (by omega)
  exact Nat.le_trans hheight (htracing htraced)

/-- A normal form is its own normal form, found without a contraction if it is not too high. -/
theorem nfIn_of_normal {bounds : Bounds} {t : Indexed ρ} (h : t.Normal)
    (hheight : t.height ≤ bounds.nesting) (traced : Bool) : t.nfIn bounds traced = .done t :=
  nfBy_of_agrees 0 (by simp) (nfWithin_of_normal h bounds.contractions hheight) 0

/-- A result is its own result within the same bounds, found without a contraction. -/
theorem nfIn_result {bounds : Bounds} {traced : Bool} {t u : Indexed ρ} {rs : List (Indexed ρ)}
    (h : t.nfIn bounds traced = ⟨rs, .ok u⟩) (traced' : Bool) :
    u.nfIn bounds traced' = .done u := by
  have hnf : u.nf bounds.toLimits = ⟨[], .ok u⟩ := nfWithin_result (nf_of_nfIn h)
  exact nfBy_of_agrees 0 (by simp) hnf 0

end Indexed
end Nameless
