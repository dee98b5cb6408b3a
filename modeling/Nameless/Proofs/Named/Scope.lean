import Nameless.Conversion
import Nameless.Proofs.Indexed.Beta
import Nameless.Proofs.Indexed.SubstitutionLaws
import Nameless.Proofs.Named.Calculus

/-!
# Named terms and their nameless forms

The nameless form of a term inside binders depends on the names of the binders only through which
variables they bind. A binder that binds nothing in a term moves it under one more binder; giving a
binder another name changes nothing; and substitution, with all its renaming of binders, becomes
substitution for an index. So equivalent named terms are those with one nameless form, and a
contraction in the nameless form of a term is a contraction in the term.

Main statements, where `inner` are binders that have been passed on the way:
- `Named.nameless_insert`: a binder that binds nothing,
- `Named.nameless_rename`: a binder with another name,
- `Named.nameless_subst`: substitution,
- `Named.alpha_iff_nameless_eq`: equivalence of named terms is equality of nameless forms,
- `Named.beta_of_contractsAt`: contraction in a nameless form.
-/

namespace Nameless
namespace Named

/-! ## Variables -/

theorem nameless_sym_of_mem {name : String} {inner : List String} (h : name ∈ inner)
    (scope : List String) : (sym name).nameless (inner ++ scope) = .var (inner.idxOf name) := by
  simp [nameless, h, List.idxOf_append]

theorem nameless_sym_of_not_mem {name : String} {inner : List String} (h : name ∉ inner)
    (scope : List String) :
    (sym name).nameless (inner ++ scope) =
      if name ∈ scope then .var (inner.length + scope.idxOf name) else .free name := by
  simp [nameless, h, List.idxOf_append, Nat.add_comm]

/-- A variable has the nameless form of a variable only. -/
theorem nameless_sym_ne_lam (name : String) (scope : List String) (body : Indexed Empty) :
    (sym name).nameless scope ≠ .lam body := by
  by_cases hname : name ∈ scope <;> simp [nameless, hname]

theorem nameless_sym_ne_app (name : String) (scope : List String) (fn arg : Indexed Empty) :
    (sym name).nameless scope ≠ .app fn arg := by
  by_cases hname : name ∈ scope <;> simp [nameless, hname]

/-- Different variables have different nameless forms: an index leads back to one binder, and a free
variable keeps its name. -/
theorem nameless_sym_inj {name name' : String} {scope : List String}
    (h : (sym name).nameless scope = (sym name').nameless scope) : name = name' := by
  by_cases hname : name ∈ scope
  · by_cases hname' : name' ∈ scope
    · simp only [nameless, hname, hname', if_true, Indexed.var.injEq] at h
      exact (List.idxOf_inj hname).1 h
    · simp [nameless, hname, hname'] at h
  · by_cases hname' : name' ∈ scope
    · simp [nameless, hname, hname'] at h
    · simpa [nameless, hname, hname'] using h

/-! ## Binders -/

theorem not_mem_freeNames_body {name x : String} {body : Named Empty}
    (h : x ∉ (abs name body).freeNames) : x ∉ body.freeNames ∨ x = name := by
  by_cases hx : x = name
  · exact .inr hx
  · refine .inl ?_
    intro hbody
    exact h (by simp [freeNames, hbody, hx])

/-- A binder that binds nothing in a term, because its name is not free there or because another
binder hides it. -/
theorem nameless_insert {t : Named Empty} {x : String} (inner scope : List String)
    (h : x ∉ t.freeNames ∨ x ∈ inner) :
    t.nameless (inner ++ x :: scope) = (t.nameless (inner ++ scope)).shift inner.length := by
  induction t generalizing inner with
  | abs name body ih =>
    have hbody : x ∉ body.freeNames ∨ x ∈ name :: inner := by
      rcases h with hfree | hinner
      · rcases not_mem_freeNames_body hfree with hfree | rfl
        · exact .inl hfree
        · exact .inr List.mem_cons_self
      · exact .inr (List.mem_cons_of_mem _ hinner)
    have heq := ih (name :: inner) hbody
    simp only [List.cons_append, List.length_cons, Int.natCast_add, Int.cast_ofNat_Int] at heq
    rw [nameless, nameless, heq]
    rfl
  | app fn arg ihf iha =>
    have hfn : x ∉ fn.freeNames ∨ x ∈ inner :=
      h.imp_left fun hfree hmem => hfree (by simp [freeNames, hmem])
    have harg : x ∉ arg.freeNames ∨ x ∈ inner :=
      h.imp_left fun hfree hmem => hfree (by simp [freeNames, hmem])
    rw [nameless, nameless, ihf inner hfn, iha inner harg]
    rfl
  | sym name =>
    by_cases hname : name ∈ inner
    · have hlt : inner.idxOf name < inner.length := List.idxOf_lt_length_of_mem hname
      rw [nameless_sym_of_mem hname, nameless_sym_of_mem hname]
      exact (Indexed.shift_var_of_lt (by omega)).symm
    · -- The variable is not the new binder's, so it is bound further out or free.
      have hne : name ≠ x := by
        rintro rfl
        exact h.elim (fun hfree => hfree (by simp [freeNames])) hname
      rw [nameless_sym_of_not_mem hname, nameless_sym_of_not_mem hname]
      by_cases hscope : name ∈ scope
      · have hidx : (x :: scope).idxOf name = scope.idxOf name + 1 :=
          List.idxOf_cons_ne scope (Ne.symm hne)
        rw [if_pos (List.mem_cons_of_mem _ hscope), if_pos hscope, hidx,
          Indexed.shift_var_of_le (by omega), Nat.add_assoc]
      · rw [if_neg (by simp [hne, hscope]), if_neg hscope]
        rfl
  | leaf x => exact x.elim

/-- A binder may be called by any name that occurs nowhere in its scope. -/
theorem nameless_rename {t : Named Empty} {y z : String} (inner scope : List String)
    (hz : z ∉ t.names) (hyi : y ∉ inner) (hzi : z ∉ inner) :
    (t.rename y z).nameless (inner ++ z :: scope) = t.nameless (inner ++ y :: scope) := by
  induction t generalizing inner with
  | abs name body ih =>
    have hzname : z ≠ name := fun heq => hz (by simp [names, heq])
    have hzbody : z ∉ body.names := fun hmem => hz (by simp [names, hmem])
    by_cases hname : name = y
    · subst hname
      have hzfree : z ∉ body.freeNames := fun hmem => hzbody (freeNames_subset_names body hmem)
      have hnew := nameless_insert (name :: inner) scope (.inl hzfree)
      have hold := nameless_insert (t := body) (name :: inner) scope (.inr List.mem_cons_self)
      -- The binder of the same name hides the outer one, whatever that is called.
      have hbody : body.nameless (name :: inner ++ z :: scope) =
          body.nameless (name :: inner ++ name :: scope) := by
        calc
          _ = (body.nameless (name :: inner ++ scope)).shift (name :: inner).length := hnew
          _ = _ := hold.symm
      rw [rename, if_pos rfl, nameless, nameless]
      exact congrArg Indexed.lam hbody
    · have hbody := ih (name :: inner) hzbody (by simp [hyi, Ne.symm hname])
        (by simp [hzi, hzname])
      rw [rename, if_neg hname, nameless, nameless]
      exact congrArg Indexed.lam hbody
  | app fn arg ihf iha =>
    have hfn := ihf inner (fun hmem => hz (by simp [names, hmem])) hyi hzi
    have harg := iha inner (fun hmem => hz (by simp [names, hmem])) hyi hzi
    rw [rename, nameless, nameless, hfn, harg]
  | sym name =>
    have hzname : z ≠ name := fun heq => hz (by simp [names, heq])
    by_cases hname : name = y
    · subst hname
      rw [rename, if_pos rfl, nameless_sym_of_not_mem hzi, nameless_sym_of_not_mem hyi]
      simp
    · rw [rename, if_neg hname]
      by_cases hinner : name ∈ inner
      · rw [nameless_sym_of_mem hinner, nameless_sym_of_mem hinner]
      · rw [nameless_sym_of_not_mem hinner, nameless_sym_of_not_mem hinner]
        simp [List.idxOf_cons_ne, hname, Ne.symm hname, hzname, Ne.symm hzname]
  | leaf x => exact x.elim

/-! ## Substitution -/

theorem nameless_subst (x : String) (t a : Named Empty) (inner scope : List String)
    (hx : x ∉ inner) :
    (t.subst x a).nameless (inner ++ scope) =
      (t.nameless (inner ++ x :: scope)).substitute inner.length (a.nameless (inner ++ scope)) := by
  -- Under a binder the replacement is moved along, which is right if the binder is none of its
  -- free variables. Where it is one of them, the binder has been renamed before.
  have hmove : ∀ (y : String) (inner : List String), y ∉ a.freeNames →
      a.nameless (y :: inner ++ scope) = (a.nameless (inner ++ scope)).shift 0 := by
    intro y inner hy
    exact nameless_insert [] (inner ++ scope) (.inl hy)
  fun_induction subst x t a generalizing inner with
  | case1 body =>
    -- The binder hides the variable, so nothing is replaced below it and the gap is closed again.
    have hbody := nameless_insert (t := body) (x :: inner) scope (.inr List.mem_cons_self)
    have hgap := Indexed.substitute_shift (x :: inner).length (body.nameless (x :: inner ++ scope))
      ((a.nameless (inner ++ scope)).shift 0)
    rw [← hbody] at hgap
    exact congrArg Indexed.lam hgap.symm
  | case2 y body hne hcapture ih =>
    generalize hz : fresh (x :: a.freeNames ++ body.names) = z at ih ⊢
    have hfresh : z ∉ x :: a.freeNames ++ body.names := hz ▸ fresh_not_mem _
    simp only [List.cons_append, List.mem_cons, List.mem_append, not_or] at hfresh
    rcases hfresh with ⟨hzx, hza, hzbody⟩
    have hbody := ih (z :: inner) (by simp [hx, Ne.symm hzx])
    have hrename : (body.rename y z).nameless (z :: inner ++ x :: scope) =
        body.nameless (y :: inner ++ x :: scope) :=
      nameless_rename [] (inner ++ x :: scope) hzbody (by simp) (by simp)
    rw [hmove z inner hza, hrename] at hbody
    exact congrArg Indexed.lam hbody
  | case3 y body hne hfree ih =>
    have hbody := ih (y :: inner) (by simp [hx, Ne.symm hne])
    by_cases hy : y ∈ a.freeNames
    · -- Nothing is replaced here, whatever becomes of the replacement on the way.
      have hxbody : x ∉ body.freeNames := fun hmem => hfree ⟨hy, hmem⟩
      have hinsert := nameless_insert (y :: inner) scope (.inl hxbody)
      have hgap : ∀ c : Indexed Empty,
          (body.nameless (y :: inner ++ x :: scope)).substitute (y :: inner).length c =
            body.nameless (y :: inner ++ scope) := by
        intro c
        rw [hinsert, Indexed.substitute_shift]
      have hsame : (body.subst x a).nameless (y :: inner ++ scope) =
          (body.nameless (y :: inner ++ x :: scope)).substitute (y :: inner).length
            ((a.nameless (inner ++ scope)).shift 0) := by
        calc
          _ = _ := hbody
          _ = body.nameless (y :: inner ++ scope) := hgap _
          _ = _ := (hgap _).symm
      exact congrArg Indexed.lam hsame
    · rw [hmove y inner hy] at hbody
      exact congrArg Indexed.lam hbody
  | case4 fn arg ihf iha =>
    rw [nameless, nameless, ihf inner hx, iha inner hx]
    rfl
  | case5 =>
    rw [nameless_sym_of_not_mem hx]
    simp [Indexed.substitute_var_self]
  | case6 y hne =>
    by_cases hy : y ∈ inner
    · have hlt : inner.idxOf y < inner.length := List.idxOf_lt_length_of_mem hy
      rw [nameless_sym_of_mem hy, nameless_sym_of_mem hy, Indexed.substitute_var_of_gt (by omega)]
    · rw [nameless_sym_of_not_mem hy, nameless_sym_of_not_mem hy]
      by_cases hscope : y ∈ scope
      · have hidx : (x :: scope).idxOf y = scope.idxOf y + 1 :=
          List.idxOf_cons_ne scope (Ne.symm hne)
        rw [if_pos (List.mem_cons_of_mem _ hscope), if_pos hscope, hidx,
          Indexed.substitute_var_of_lt (by omega)]
        rfl
      · rw [if_neg hscope, if_neg (by simp [hne, hscope])]
        rfl

/-- A redex contracts to the same term whether its names are left out before or after. -/
theorem nameless_subst_eq_contract (x : String) (b a : Named Empty) (scope : List String) :
    (b.subst x a).nameless scope = (b.nameless (x :: scope)).contract (a.nameless scope) :=
  nameless_subst x b a [] scope List.not_mem_nil

/-- Putting another variable in the place of a bound one, and binding that instead. -/
theorem nameless_subst_sym {x z : String} {t : Named Empty} (hz : z ∉ t.freeNames)
    (scope : List String) : (t.subst x (sym z)).nameless (z :: scope) = t.nameless (x :: scope) := by
  have hvar : (sym z).nameless (z :: scope) = .var 0 := by simp [nameless]
  have hinsert : t.nameless (x :: z :: scope) = (t.nameless (x :: scope)).shift 1 :=
    nameless_insert [x] scope (.inl hz)
  calc
    (t.subst x (sym z)).nameless (z :: scope)
        = (t.nameless (x :: z :: scope)).contract ((sym z).nameless (z :: scope)) :=
      nameless_subst_eq_contract x t (sym z) (z :: scope)
    _ = ((t.nameless (x :: scope)).shift 1).contract (.var 0) := by rw [hvar, hinsert]
    _ = t.nameless (x :: scope) := Indexed.substitute_shift_succ_var 0 (t.nameless (x :: scope))

/-! ## Equivalence -/

theorem Alpha.nameless_eq {t u : Named Empty} (h : Alpha t u) (scope : List String) :
    t.nameless scope = u.nameless scope := by
  induction h generalizing scope with
  | refl t => rfl
  | symm _ ih => exact (ih scope).symm
  | trans _ _ ih ih' => exact (ih scope).trans (ih' scope)
  | abs name _ ih => exact congrArg Indexed.lam (ih (name :: scope))
  | app _ _ ihf iha => simp only [nameless, ihf scope, iha scope]
  | rename x hy => exact congrArg Indexed.lam (nameless_subst_sym hy scope).symm

/-- Two abstractions are equivalent if their bodies are, once both binders have one new name. -/
theorem alpha_of_subst_sym {x y z : String} {b c : Named Empty} (hb : z ∉ b.freeNames)
    (hc : z ∉ c.freeNames) (h : Alpha (b.subst x (sym z)) (c.subst y (sym z))) :
    Alpha (abs x b) (abs y c) := by
  have hleft : Alpha (abs x b) (abs z (b.subst x (sym z))) := .rename x hb
  have hright : Alpha (abs y c) (abs z (c.subst y (sym z))) := .rename y hc
  exact (hleft.trans (h.abs z)).trans hright.symm

theorem alpha_of_nameless_eq {t u : Named Empty} {scope : List String}
    (h : t.nameless scope = u.nameless scope) : Alpha t u := by
  -- By induction on the size: two abstractions are compared under one new name, and their bodies
  -- with that name are no parts of them, but of the size of the bodies.
  induction hsize : t.size using Nat.strongRecOn generalizing t u scope with
  | ind n ih =>
    cases t with
    | abs x b =>
      cases u with
      | abs y c =>
        have hbodies : b.nameless (x :: scope) = c.nameless (y :: scope) := Indexed.lam.inj h
        generalize hz : fresh (b.freeNames ++ c.freeNames) = z
        have hfresh : z ∉ b.freeNames ++ c.freeNames := hz ▸ fresh_not_mem _
        have hzb : z ∉ b.freeNames := fun hmem => hfresh (List.mem_append_left _ hmem)
        have hzc : z ∉ c.freeNames := fun hmem => hfresh (List.mem_append_right _ hmem)
        have hsame : (b.subst x (sym z)).nameless (z :: scope) =
            (c.subst y (sym z)).nameless (z :: scope) := by
          rw [nameless_subst_sym hzb, nameless_subst_sym hzc, hbodies]
        have hlt : (b.subst x (sym z)).size < n := by
          rw [size_subst_sym, ← hsize]
          exact Nat.lt_succ_self b.size
        exact alpha_of_subst_sym hzb hzc (ih _ hlt hsame rfl)
      | app f a => cases h
      | sym name => exact absurd h.symm (nameless_sym_ne_lam name scope _)
      | leaf l => exact l.elim
    | app f a =>
      cases u with
      | abs y c => cases h
      | app g e =>
        simp only [nameless, Indexed.app.injEq] at h
        have hfn := ih f.size (by simp only [← hsize, size]; omega) h.1 rfl
        have harg := ih a.size (by simp only [← hsize, size]; omega) h.2 rfl
        exact hfn.app harg
      | sym name => exact absurd h.symm (nameless_sym_ne_app name scope _ _)
      | leaf l => exact l.elim
    | sym name =>
      cases u with
      | abs y c => exact absurd h (nameless_sym_ne_lam name scope _)
      | app g e => exact absurd h (nameless_sym_ne_app name scope _ _)
      | sym name' =>
        rw [nameless_sym_inj h]
        exact .refl _
      | leaf l => exact l.elim
    | leaf l => exact l.elim

theorem alpha_iff_nameless_eq {t u : Named Empty} {scope : List String} :
    Alpha t u ↔ t.nameless scope = u.nameless scope :=
  ⟨fun h => h.nameless_eq scope, alpha_of_nameless_eq⟩

/-! ## Contraction -/

/-- A contraction in the nameless form of a term is one in the term. -/
theorem beta_of_contractsAt {t : Named Empty} {scope : List String} {p : Indexed.Place}
    {r v : Indexed Empty} (h : Indexed.ContractsAt (t.nameless scope) p r v) :
    ∃ u, Beta t u ∧ u.nameless scope = v := by
  induction t generalizing scope p r v with
  | abs name body ih =>
    cases h with
    | body h =>
      rcases ih h with ⟨body', hbeta, rfl⟩
      exact ⟨abs name body', hbeta.abs name, rfl⟩
  | app fn arg ihf iha =>
    rw [nameless] at h
    generalize hfn : fn.nameless scope = f at h
    cases h with
    | here b _ =>
      -- Only an abstraction has the nameless form of one, so the term is a redex as well.
      cases fn with
      | abs x body =>
        obtain rfl : body.nameless (x :: scope) = b := Indexed.lam.inj hfn
        exact ⟨body.subst x arg, .here x body arg, nameless_subst_eq_contract x body arg scope⟩
      | app g e => cases hfn
      | sym name => exact absurd hfn (nameless_sym_ne_lam name scope b)
      | leaf l => exact l.elim
    | fn _ h =>
      rw [← hfn] at h
      rcases ihf h with ⟨fn', hbeta, rfl⟩
      exact ⟨app fn' arg, hbeta.fn arg, rfl⟩
    | arg _ h =>
      rcases iha h with ⟨arg', hbeta, rfl⟩
      exact ⟨app fn arg', hbeta.arg fn, by rw [nameless, hfn]⟩
  | sym name =>
    simp only [nameless] at h
    split at h <;> cases h
  | leaf l => exact l.elim

theorem betas_of_betas {t : Named Empty} {scope : List String} {v : Indexed Empty}
    (h : Relation.ReflTransGen Indexed.Beta (t.nameless scope) v) :
    ∃ u, Relation.ReflTransGen Beta t u ∧ u.nameless scope = v := by
  induction h with
  | refl => exact ⟨t, .refl, rfl⟩
  | tail _ hstep ih =>
    rcases ih with ⟨u, hu, rfl⟩
    rcases hstep with ⟨p, r, hp⟩
    rcases beta_of_contractsAt hp with ⟨u', hbeta, rfl⟩
    exact ⟨u', hu.tail hbeta, rfl⟩

/-- A term is normal if its nameless form is. -/
theorem normal_of_nameless {t : Named Empty} {scope : List String}
    (h : (t.nameless scope).Normal) : t.Normal := by
  induction t generalizing scope with
  | abs name body ih =>
    have hbody : body.Normal := ih (Indexed.normal_lam.1 h)
    simpa [Normal, subterms, isRedex] using hbody
  | app fn arg ihf iha =>
    rcases Indexed.normal_app.1 h with ⟨hne, hfn, harg⟩
    have hroot : (app fn arg).isRedex = false := by
      cases fn with
      | abs x body => exact absurd rfl (hne _)
      | _ => rfl
    intro u hu
    rcases List.mem_cons.1 hu with rfl | hu
    · exact hroot
    · rcases List.mem_append.1 hu with hu | hu
      · exact ihf hfn u hu
      · exact iha harg u hu
  | sym name => simp [Normal, subterms, isRedex]
  | leaf l => exact l.elim

end Named
end Nameless
