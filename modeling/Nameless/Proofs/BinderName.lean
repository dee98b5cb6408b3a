import Mathlib.Data.Nat.Nth
import Nameless.Proofs.RoundTrip

/-!
# The names of binders

The binders of a term are named by their depth: those inside `d` others take the `d`-th of the
identifiers that are left when the free variables of the term are taken out. So binders have the
same name exactly if they are at the same depth.

The names can as well be taken from one supply, which is shared by all parts of a term and grows
when a deeper binder asks for a name than any before. Whatever was asked for earlier, the supply
holds the names of the first depths in order. Therefore it does not matter which parts are visited
first.

This file defines:
- `Identifier.unreserved`: the identifiers in order, with the reserved ones left out,
- `Identifier.Supply`, `Identifier.Supply.stock`: a supply of names, and how it grows,
- `Indexed.nameWith?`: giving names from a supply, in any order of visits,
- `Indexed.BinderAt`, `Named.BinderAt`: a binder at a place and its depth.

Main statements:
- `Identifier.nth_firstFresh`: a search finds the next identifier that is left,
- `Identifier.Supply.exists_draws`: a supply grows to any depth,
- `Indexed.binderAt_toNamedFrom?`: the names that are given,
- `Indexed.nameWith?_eq`: names from a supply are the same.
-/

namespace Nameless

namespace Identifier

/-! ## Identifiers that are left -/

/-- The identifier with this number is not reserved. -/
def Unreserved (reserved : List String) (n : Nat) : Prop :=
  nth n ∉ reserved

instance (reserved : List String) : DecidablePred (Unreserved reserved) :=
  fun n => inferInstanceAs (Decidable (nth n ∉ reserved))

/-- The identifier with number `d`, counting only those that are not reserved. -/
noncomputable def unreserved (reserved : List String) (d : Nat) : String :=
  nth (Nat.nth (Unreserved reserved) d)

variable {reserved : List String}

theorem infinite_unreserved (reserved : List String) :
    (Set.ofPred (Unreserved reserved)).Infinite := by
  refine Set.infinite_of_forall_exists_gt fun n => ?_
  have hle : n + 1 ≤ firstFresh reserved (n + 1) := le_search reserved _ _
  exact ⟨_, nth_firstFresh_not_mem reserved (n + 1), hle⟩

theorem unreserved_injective (reserved : List String) :
    Function.Injective (unreserved reserved) :=
  fun _ _ h => Nat.nth_injective (infinite_unreserved reserved) (nth_injective h)

/-- A search passes over reserved identifiers only. -/
theorem nth_mem_of_lt_search {fuel n k : Nat} (hle : n ≤ k) (hlt : k < search reserved fuel n) :
    nth k ∈ reserved := by
  induction fuel generalizing n with
  | zero => exact absurd hlt (Nat.not_lt.2 hle)
  | succ fuel ih =>
    by_cases hn : nth n ∈ reserved
    · rcases Nat.eq_or_lt_of_le hle with rfl | hle
      · exact hn
      · refine ih hle ?_
        simpa [search, hn] using hlt
    · have hstop : search reserved (fuel + 1) n = n := by simp [search, hn]
      omega

/-- As many identifiers are left below the one that is found as below where the search started. -/
theorem count_firstFresh (reserved : List String) (n : Nat) :
    Nat.count (Unreserved reserved) (firstFresh reserved n) =
      Nat.count (Unreserved reserved) n := by
  have hle : n ≤ firstFresh reserved n := le_search reserved _ n
  rcases Nat.exists_eq_add_of_le hle with ⟨k, hk⟩
  have hnone : Nat.count (fun j => Unreserved reserved (n + j)) k = 0 := by
    rw [Nat.count_iff_forall_not]
    intro j hj hleft
    have hlt : n + j < firstFresh reserved n := by omega
    exact hleft (nth_mem_of_lt_search (Nat.le_add_right n j) hlt)
  rw [hk, Nat.count_add, hnone, Nat.add_zero]

theorem nth_firstFresh (reserved : List String) (n : Nat) :
    nth (firstFresh reserved n) = unreserved reserved (Nat.count (Unreserved reserved) n) := by
  have hleft : Unreserved reserved (firstFresh reserved n) := nth_firstFresh_not_mem reserved n
  rw [unreserved, ← count_firstFresh, Nat.nth_count hleft]

theorem count_firstFresh_succ (reserved : List String) (n : Nat) :
    Nat.count (Unreserved reserved) (firstFresh reserved n + 1) =
      Nat.count (Unreserved reserved) n + 1 := by
  have hleft : Unreserved reserved (firstFresh reserved n) := nth_firstFresh_not_mem reserved n
  rw [Nat.count_succ, if_pos hleft, count_firstFresh]

/-! ## Supplies -/

/-- A supply of names: the number of the next candidate, and the names that were kept, of which the
one at `d` is for binders at depth `d`. -/
structure Supply where
  next : Nat
  names : List String
  deriving DecidableEq, Repr

namespace Supply

/-- The supply from which nothing was taken yet. -/
def initial : Supply :=
  ⟨0, []⟩

/-- Takes the next candidate, and keeps it unless it is reserved. -/
def draw (reserved : List String) (s : Supply) : Supply :=
  ⟨s.next + 1, if nth s.next ∈ reserved then s.names else s.names ++ [nth s.next]⟩

theorem next_draws (s : Supply) (k : Nat) : ((draw reserved)^[k] s).next = s.next + k := by
  induction k with
  | zero => rfl
  | succ k ih =>
    rw [Function.iterate_succ_apply', draw, ih]
    rfl

theorem length_draws (s : Supply) (k : Nat) :
    ((draw reserved)^[k] s).names.length =
      s.names.length + Nat.count (fun j => Unreserved reserved (s.next + j)) k := by
  induction k with
  | zero => rfl
  | succ k ih =>
    rw [Function.iterate_succ_apply', draw, next_draws, Nat.count_succ]
    by_cases hk : nth (s.next + k) ∈ reserved
    · simp [hk, Unreserved, ih]
    · simp [hk, Unreserved, ih, Nat.add_assoc]

/-- Enough candidates give a name for any depth, because only some of them are reserved. -/
theorem exists_draws (reserved : List String) (s : Supply) (depth : Nat) :
    ∃ k, depth < ((draw reserved)^[k] s).names.length := by
  -- From the next candidate up to `last` one number more is left than the depth asks for.
  let before := Nat.count (Unreserved reserved) s.next
  let last := Nat.nth (Unreserved reserved) (before + (depth + 1))
  have hcount : Nat.count (Unreserved reserved) last = before + (depth + 1) :=
    Nat.count_nth_of_infinite (infinite_unreserved reserved) _
  have hmore : before < Nat.count (Unreserved reserved) last := by
    rw [hcount]
    exact Nat.lt_add_of_pos_right (Nat.succ_pos depth)
  have hlt : s.next < last := Nat.lt_of_count_lt_count hmore
  rcases Nat.exists_eq_add_of_lt hlt with ⟨k, hk⟩
  refine ⟨k + 1, ?_⟩
  rw [length_draws]
  have hsum := Nat.count_add (Unreserved reserved) s.next (k + 1)
  rw [← Nat.add_assoc, ← hk, hcount] at hsum
  omega

/-- Draws until there is a name for binders at the given depth. -/
def stock (reserved : List String) (depth : Nat) (s : Supply) : Supply :=
  (draw reserved)^[Nat.find (exists_draws reserved s depth)] s

theorem lt_length_stock (reserved : List String) (depth : Nat) (s : Supply) :
    depth < (s.stock reserved depth).names.length :=
  Nat.find_spec (exists_draws reserved s depth)

/-- The name for binders at the given depth, with which the supply is stocked. -/
def name (reserved : List String) (depth : Nat) (s : Supply) : String :=
  (s.stock reserved depth).names.get ⟨depth, lt_length_stock reserved depth s⟩

/-- The names are those for the first depths, and all that is left below the next candidate. -/
structure Ordered (reserved : List String) (s : Supply) : Prop where
  length_eq : s.names.length = Nat.count (Unreserved reserved) s.next
  name_eq : ∀ (d : Nat) (h : d < s.names.length), s.names.get ⟨d, h⟩ = unreserved reserved d

theorem ordered_initial (reserved : List String) : Ordered reserved initial where
  length_eq := (Nat.count_zero _).symm
  name_eq := fun _ h => absurd h (Nat.not_lt_zero _)

namespace Ordered

theorem draw {s : Supply} (h : Ordered reserved s) : Ordered reserved (s.draw reserved) := by
  by_cases hnext : nth s.next ∈ reserved
  · have hdraw : s.draw reserved = ⟨s.next + 1, s.names⟩ := by simp [Supply.draw, hnext]
    have hcount : Nat.count (Unreserved reserved) (s.next + 1) =
        Nat.count (Unreserved reserved) s.next :=
      Nat.count_succ_eq_count_iff.2 (not_not.2 hnext)
    rw [hdraw]
    exact ⟨h.length_eq.trans hcount.symm, h.name_eq⟩
  · have hdraw : s.draw reserved = ⟨s.next + 1, s.names ++ [nth s.next]⟩ := by
      simp [Supply.draw, hnext]
    have hleft : Unreserved reserved s.next := hnext
    rw [hdraw]
    constructor
    · rw [Nat.count_succ, if_pos hleft, ← h.length_eq]
      simp
    · intro d hd
      rw [List.get_eq_getElem]
      rcases Nat.lt_succ_iff_lt_or_eq.1 (by simpa using hd) with hlt | rfl
      · rw [List.getElem_append_left hlt]
        exact h.name_eq d hlt
      · -- As many were kept as are left below the candidate, so it is the next one in order.
        rw [List.getElem_concat_length rfl, unreserved, h.length_eq, Nat.nth_count hleft]

theorem draws {s : Supply} (h : Ordered reserved s) (k : Nat) :
    Ordered reserved ((Supply.draw reserved)^[k] s) := by
  induction k with
  | zero => exact h
  | succ k ih =>
    rw [Function.iterate_succ_apply']
    exact ih.draw

theorem stock {s : Supply} (h : Ordered reserved s) (depth : Nat) :
    Ordered reserved (s.stock reserved depth) :=
  h.draws _

theorem name {s : Supply} (h : Ordered reserved s) (depth : Nat) :
    s.name reserved depth = unreserved reserved depth :=
  (h.stock depth).name_eq depth _

end Ordered
end Supply
end Identifier

open Identifier (Supply Unreserved unreserved)

/-! ## Binders and where they stand -/

namespace Indexed

variable {ρ : Type}

/-- A binder stands at a place, inside `depth` others. -/
inductive BinderAt : Indexed ρ → Place → (depth : Nat) → Prop where
  | here (b : Indexed ρ) : BinderAt (lam b) [] 0
  | body {b : Indexed ρ} {p : Place} {depth : Nat} :
      BinderAt b p depth → BinderAt (lam b) (.body :: p) (depth + 1)
  | fn {f : Indexed ρ} {p : Place} {depth : Nat} (a : Indexed ρ) :
      BinderAt f p depth → BinderAt (app f a) (.fn :: p) depth
  | arg {a : Indexed ρ} {p : Place} {depth : Nat} (f : Indexed ρ) :
      BinderAt a p depth → BinderAt (app f a) (.arg :: p) depth

end Indexed

namespace Named

variable {ρ : Type}

/-- A binder of the given name stands at a place, inside `depth` others. -/
inductive BinderAt : Named ρ → Indexed.Place → (depth : Nat) → String → Prop where
  | here (x : String) (b : Named ρ) : BinderAt (abs x b) [] 0 x
  | body {b : Named ρ} {p : Indexed.Place} {depth : Nat} {x : String} (name : String) :
      BinderAt b p depth x → BinderAt (abs name b) (.body :: p) (depth + 1) x
  | fn {f : Named ρ} {p : Indexed.Place} {depth : Nat} {x : String} (a : Named ρ) :
      BinderAt f p depth x → BinderAt (app f a) (.fn :: p) depth x
  | arg {a : Named ρ} {p : Indexed.Place} {depth : Nat} {x : String} (f : Named ρ) :
      BinderAt a p depth x → BinderAt (app f a) (.arg :: p) depth x

end Named

/-! ## Names by depth -/

namespace Indexed

variable {reserved scope : List String} {next : Nat} {t : Indexed Empty} {u : Named Empty}

/-- The binders stay where they are, and as many of the names that are left have been used up as
there are binders around them. -/
theorem binderAt_toNamedFrom? (h : t.toNamedFrom? reserved next scope = .ok u) {p : Place} {d : Nat}
    {x : String} : u.BinderAt p d x ↔
      t.BinderAt p d ∧ x = unreserved reserved (Nat.count (Unreserved reserved) next + d) := by
  induction t generalizing next scope u p d with
  | lam body ih =>
    rcases Except.bind_eq_ok h with ⟨body', hbody, hdone⟩
    cases hdone
    have hname := Identifier.nth_firstFresh reserved next
    have hcount := Identifier.count_firstFresh_succ reserved next
    constructor
    · intro hx
      cases hx with
      | here => exact ⟨.here body, hname⟩
      | body _ hx =>
        rcases (ih hbody).1 hx with ⟨hp, rfl⟩
        refine ⟨.body hp, ?_⟩
        rw [hcount, Nat.add_right_comm, Nat.add_assoc]
    · rintro ⟨hp, rfl⟩
      cases hp with
      | here => exact hname ▸ .here _ body'
      | body hp =>
        refine .body _ ((ih hbody).2 ⟨hp, ?_⟩)
        rw [hcount, Nat.add_right_comm, Nat.add_assoc]
  | app fn arg ihf iha =>
    rcases Except.bind_eq_ok h with ⟨fn', hfn, hrest⟩
    rcases Except.bind_eq_ok hrest with ⟨arg', harg, hdone⟩
    cases hdone
    constructor
    · intro hx
      cases hx with
      | fn _ hx => exact ⟨.fn arg ((ihf hfn).1 hx).1, ((ihf hfn).1 hx).2⟩
      | arg _ hx => exact ⟨.arg fn ((iha harg).1 hx).1, ((iha harg).1 hx).2⟩
    · rintro ⟨hp, hx⟩
      cases hp with
      | fn _ hp => exact .fn arg' ((ihf hfn).2 ⟨hp, hx⟩)
      | arg _ hp => exact .arg fn' ((iha harg).2 ⟨hp, hx⟩)
  | var index =>
    -- A variable becomes a variable, so neither side has a binder.
    simp only [toNamedFrom?] at h
    split at h
    · cases h
      constructor
      · intro hx
        cases hx
      · rintro ⟨hp, _⟩
        cases hp
    · cases h
  | free name =>
    cases h
    constructor
    · intro hx
      cases hx
    · rintro ⟨hp, _⟩
      cases hp
  | leaf x => exact x.elim

/-! ## Names from a supply -/

/-- The named form of a term inside binders of the names in `scope`, innermost first, where all
parts take the names of their binders from one supply, one part after the other. The places of the
applications whose argument is visited before the function are told by `argFirst`. -/
def nameWith? (reserved : List String) :
    (argFirst : Place → Bool) → (scope : List String) → Indexed Empty → Supply →
      Except Fault (Named Empty × Supply)
  | argFirst, scope, lam body, s => do
    let name := s.name reserved scope.length
    let (body, s) ← body.nameWith? reserved (fun p => argFirst (.body :: p)) (name :: scope)
      (s.stock reserved scope.length)
    return (.abs name body, s)
  | argFirst, scope, app fn arg, s => do
    if argFirst [] then
      let (arg, s) ← arg.nameWith? reserved (fun p => argFirst (.arg :: p)) scope s
      let (fn, s) ← fn.nameWith? reserved (fun p => argFirst (.fn :: p)) scope s
      return (.app fn arg, s)
    else
      let (fn, s) ← fn.nameWith? reserved (fun p => argFirst (.fn :: p)) scope s
      let (arg, s) ← arg.nameWith? reserved (fun p => argFirst (.arg :: p)) scope s
      return (.app fn arg, s)
  | _, scope, var index, s =>
    match scope[index]? with
    | some name => .ok (.sym name, s)
    | none => .error (.defect (.escapingIndex index))
  | _, _, free name, s => .ok (.sym name, s)

theorem nameWith?_eq (h : t.toNamedFrom? reserved next scope = .ok u)
    (hnext : Nat.count (Unreserved reserved) next = scope.length) {s : Supply}
    (hs : s.Ordered reserved) (argFirst : Place → Bool) :
    ∃ s' : Supply, t.nameWith? reserved argFirst scope s = .ok (u, s') ∧ s'.Ordered reserved := by
  -- Each part finds the supply as the parts before it left it: in order.
  induction t generalizing next scope u s argFirst with
  | lam body ih =>
    rcases Except.bind_eq_ok h with ⟨body', hbody, hdone⟩
    cases hdone
    have hname : s.name reserved scope.length =
        Identifier.nth (Identifier.firstFresh reserved next) := by
      rw [hs.name, Identifier.nth_firstFresh, hnext]
    have hcount := Identifier.count_firstFresh_succ reserved next
    rw [hnext] at hcount
    rcases ih hbody hcount (hs.stock scope.length) (fun p => argFirst (.body :: p)) with
      ⟨s', hvisit, hs'⟩
    refine ⟨s', ?_, hs'⟩
    simp only [nameWith?, hname, hvisit]
    rfl
  | app fn arg ihf iha =>
    rcases Except.bind_eq_ok h with ⟨fn', hfn, hrest⟩
    rcases Except.bind_eq_ok hrest with ⟨arg', harg, hdone⟩
    cases hdone
    cases horder : argFirst [] with
    | true =>
      rcases iha harg hnext hs (fun p => argFirst (.arg :: p)) with ⟨s₁, hvisit₁, hs₁⟩
      rcases ihf hfn hnext hs₁ (fun p => argFirst (.fn :: p)) with ⟨s₂, hvisit₂, hs₂⟩
      refine ⟨s₂, ?_, hs₂⟩
      simp only [nameWith?, horder, if_true, hvisit₁, bind, Except.bind, hvisit₂]
      rfl
    | false =>
      rcases ihf hfn hnext hs (fun p => argFirst (.fn :: p)) with ⟨s₁, hvisit₁, hs₁⟩
      rcases iha harg hnext hs₁ (fun p => argFirst (.arg :: p)) with ⟨s₂, hvisit₂, hs₂⟩
      refine ⟨s₂, ?_, hs₂⟩
      simp only [nameWith?, horder, Bool.false_eq_true, if_false, hvisit₁, bind, Except.bind,
        hvisit₂]
      rfl
  | var index =>
    refine ⟨s, ?_, hs⟩
    simp only [toNamedFrom?] at h
    split at h
    · next name hname =>
      cases h
      simp only [nameWith?, hname]
    · cases h
  | free name =>
    cases h
    exact ⟨s, rfl, hs⟩
  | leaf x => exact x.elim

/-! ## Whole terms -/

/-- If no index leads out of a term, its binders are named: those at depth `d` take the identifier
with number `d` among those that are no free variables of the term, so two binders have the same
name if and only if they are at the same depth. Taking the names from a shared supply gives the same
term, in whatever order its parts are visited. Such a supply can be stocked for any depth, however
many names are reserved. -/
theorem toNamed_names_by_depth :
    (∀ t : Indexed Empty, ¬ t.Escapes → ∃ u, t.toNamed? = .ok u ∧
      (∀ p d x, u.BinderAt p d x ↔ t.BinderAt p d ∧ x = unreserved t.freeNames d) ∧
      (∀ p q d e x y, u.BinderAt p d x → u.BinderAt q e y → (x = y ↔ d = e)) ∧
      ∀ argFirst, ∃ s, t.nameWith? t.freeNames argFirst [] .initial = .ok (u, s)) ∧
    ∀ reserved s depth, ∃ k, depth < ((Supply.draw reserved)^[k] s).names.length := by
  refine ⟨?_, Supply.exists_draws⟩
  intro t hinside
  rcases exists_toNamed?_of_not_escapes hinside with ⟨u, hu⟩
  have hbinder : ∀ p d x, u.BinderAt p d x ↔ t.BinderAt p d ∧ x = unreserved t.freeNames d := by
    intro p d x
    rw [binderAt_toNamedFrom? hu, Nat.count_zero, Nat.zero_add]
  refine ⟨u, hu, hbinder, ?_, ?_⟩
  · intro p q d e x y hx hy
    rw [((hbinder p d x).1 hx).2, ((hbinder q e y).1 hy).2]
    exact (Identifier.unreserved_injective t.freeNames).eq_iff
  · intro argFirst
    have hinitial : Nat.count (Unreserved t.freeNames) 0 = ([] : List String).length :=
      Nat.count_zero _
    rcases nameWith?_eq hu hinitial (Supply.ordered_initial _) argFirst with ⟨s, hvisit, _⟩
    exact ⟨s, hvisit⟩

/-- `λ.((a λ.0) λ.(λ.1 c))`, where `a` and `c` are free: the binders are called `b`, `d` and `e` by
their depths, also if every argument is visited before its function. -/
theorem toNamed_names_by_depth_skips_names :
    let t : Indexed Empty :=
      lam (app (app (free "a") (lam (var 0))) (lam (app (lam (var 1)) (free "c"))))
    let u : Named Empty :=
      .abs "b" (.app (.app (.sym "a") (.abs "d" (.sym "d")))
        (.abs "d" (.app (.abs "e" (.sym "d")) (.sym "c"))))
    ¬ t.Escapes ∧ t.toNamed? = .ok u ∧ unreserved t.freeNames 0 = "b" ∧
      unreserved t.freeNames 1 = "d" ∧ unreserved t.freeNames 2 = "e" ∧
      (u.BinderAt [.body, .fn, .arg] 1 "d" ∧ u.BinderAt [.body, .arg] 1 "d" ∧
        ("d" = "d" ↔ 1 = 1)) ∧
      ∃ s, t.nameWith? t.freeNames (fun _ => true) [] .initial = .ok (u, s) := by
  intro t u
  have hscoped : t.Scoped 0 := by simp [t, Scoped]
  have hinside : ¬ t.Escapes := scoped_zero_iff_not_escapes.1 hscoped
  have hnamed : t.toNamed? = .ok u := by decide +kernel
  rcases toNamed_names_by_depth.1 t hinside with ⟨u', hu', hbinder, hsame, hvisit⟩
  rw [hnamed] at hu'
  cases hu'
  have hfirst : u.BinderAt [] 0 "b" := .here _ _
  have hsecond : u.BinderAt [.body, .fn, .arg] 1 "d" := .body _ (.fn _ (.arg _ (.here _ _)))
  have hsibling : u.BinderAt [.body, .arg] 1 "d" := .body _ (.arg _ (.here _ _))
  have hthird : u.BinderAt [.body, .arg, .body, .fn] 2 "e" :=
    .body _ (.arg _ (.body _ (.fn _ (.here _ _))))
  exact ⟨hinside, hnamed, ((hbinder _ _ _).1 hfirst).2.symm, ((hbinder _ _ _).1 hsecond).2.symm,
    ((hbinder _ _ _).1 hthird).2.symm,
    ⟨hsecond, hsibling, hsame _ _ _ _ _ _ hsecond hsibling⟩, hvisit _⟩

end Indexed
end Nameless
