import Nameless.Proofs.Named.WellNamed

/-!
# Replacing leaves

Replacing the leaves of a term by terms goes from left to right. It succeeds if every replacement
does, and otherwise fails as the first one that fails.

This file defines:
- `Named.leaves`: the leaves of a term.

Main statements:
- `Named.expand?_ok_of_leaves`, `Named.leaves_ok_of_expand?`: when replacing succeeds,
- `Named.expand?_eq_error_iff`: as what it fails,
- `Named.expand?_congr`: replacing depends on the leaves that there are,
- `Named.expand?_embed`: there is nothing to replace in a term without leaves.
-/

namespace Nameless

namespace Named

variable {ρ σ ε : Type}

/-- The leaves, from left to right. -/
def leaves : Named ρ → List ρ
  | abs _ body => body.leaves
  | app fn arg => fn.leaves ++ arg.leaves
  | sym _ => []
  | leaf x => [x]

theorem WellNamed.of_mem_leaves {leafOk : ρ → Prop} {t : Named ρ} (h : t.WellNamed leafOk) {x : ρ}
    (hx : x ∈ t.leaves) : leafOk x := by
  induction t with
  | abs name body ih => exact ih h.2 hx
  | app fn arg ihf iha =>
    rcases List.mem_append.1 hx with hfn | harg
    · exact ihf h.1 hfn
    · exact iha h.2 harg
  | sym name => cases hx
  | leaf y =>
    rcases List.mem_singleton.1 hx with rfl
    exact h

theorem expand?_ok_of_leaves {f : ρ → Except ε (Named σ)} {t : Named ρ}
    (h : ∀ x ∈ t.leaves, ∃ d, f x = .ok d) : ∃ u, t.expand? f = .ok u := by
  induction t with
  | abs name body ih =>
    rcases ih h with ⟨body', hbody⟩
    exact ⟨_, by rw [expand?, hbody]; rfl⟩
  | app fn arg ihf iha =>
    rcases ihf (fun x hx => h x (List.mem_append_left _ hx)) with ⟨fn', hfn⟩
    rcases iha (fun x hx => h x (List.mem_append_right _ hx)) with ⟨arg', harg⟩
    exact ⟨_, by rw [expand?, hfn, harg]; rfl⟩
  | sym name => exact ⟨_, rfl⟩
  | leaf x => exact h x (List.mem_singleton_self x)

theorem leaves_ok_of_expand? {f : ρ → Except ε (Named σ)} {t : Named ρ} {u : Named σ}
    (h : t.expand? f = .ok u) : ∀ x ∈ t.leaves, ∃ d, f x = .ok d := by
  induction t generalizing u with
  | abs name body ih =>
    rcases Except.bind_eq_ok h with ⟨body', hbody, _⟩
    exact ih hbody
  | app fn arg ihf iha =>
    rcases Except.bind_eq_ok h with ⟨fn', hfn, hrest⟩
    rcases Except.bind_eq_ok hrest with ⟨arg', harg, _⟩
    exact List.forall_mem_append.2 ⟨ihf hfn, iha harg⟩
  | sym name => simp [leaves]
  | leaf x =>
    intro y hy
    rcases List.mem_singleton.1 hy with rfl
    exact ⟨u, h⟩

theorem expand?_of_first {f : ρ → Except ε (Named σ)} {t : Named ρ} {before after : List ρ} {x : ρ}
    {failure : ε} (hleaves : t.leaves = before ++ x :: after)
    (hbefore : ∀ y ∈ before, ∃ d, f y = .ok d) (hx : f x = .error failure) :
    t.expand? f = .error failure := by
  induction t generalizing before after with
  | abs name body ih =>
    rw [expand?, ih hleaves hbefore]
    rfl
  | app fn arg ihf iha =>
    -- The leaf is in the function, or it is in the argument and the function has none that fails.
    have hcut : (∃ inner, fn.leaves = before ++ x :: inner) ∨
        ∃ outer, before = fn.leaves ++ outer ∧ arg.leaves = outer ++ x :: after := by
      rcases List.append_eq_append_iff.1 hleaves with ⟨outer, hb, ha⟩ | ⟨inner, hb, ha⟩
      · exact .inr ⟨outer, hb, ha⟩
      · cases inner with
        | nil => exact .inr ⟨[], by simp [hb], ha.symm⟩
        | cons y inner =>
          rcases List.cons.inj ha with ⟨rfl, _⟩
          exact .inl ⟨inner, hb⟩
    rcases hcut with ⟨inner, hfn⟩ | ⟨outer, rfl, harg⟩
    · rw [expand?, ihf hfn hbefore]
      rfl
    · rcases List.forall_mem_append.1 hbefore with ⟨hfn, houter⟩
      rcases expand?_ok_of_leaves hfn with ⟨fn', hfn'⟩
      rw [expand?, hfn', iha harg houter]
      rfl
  | sym name => simp [leaves] at hleaves
  | leaf y =>
    have hsingle : [y] = before ++ x :: after := hleaves
    cases before with
    | nil =>
      rcases List.cons.inj hsingle with ⟨rfl, _⟩
      exact hx
    | cons z before => simp at hsingle

/-- Replacing leaves fails as the first replacement from the left that fails. -/
theorem expand?_eq_error_iff {f : ρ → Except ε (Named σ)} {t : Named ρ} {failure : ε} :
    t.expand? f = .error failure ↔ ∃ before x after, t.leaves = before ++ x :: after ∧
      (∀ y ∈ before, ∃ d, f y = .ok d) ∧ f x = .error failure := by
  constructor
  · intro h
    induction t with
    | abs name body ih =>
      rcases Except.bind_eq_error h with hbody | ⟨_, _, hdone⟩
      · exact ih hbody
      · cases hdone
    | app fn arg ihf iha =>
      rcases Except.bind_eq_error h with hfn | ⟨fn', hfn, hrest⟩
      · rcases ihf hfn with ⟨before, x, after, hleaves, hbefore, hx⟩
        exact ⟨before, x, after ++ arg.leaves, by simp [leaves, hleaves], hbefore, hx⟩
      · rcases Except.bind_eq_error hrest with harg | ⟨_, _, hdone⟩
        · rcases iha harg with ⟨before, x, after, hleaves, hbefore, hx⟩
          have hall := List.forall_mem_append.2 ⟨leaves_ok_of_expand? hfn, hbefore⟩
          exact ⟨fn.leaves ++ before, x, after, by simp [leaves, hleaves], hall, hx⟩
        · cases hdone
    | sym name => cases h
    | leaf x => exact ⟨[], x, [], rfl, by simp, h⟩
  · rintro ⟨before, x, after, hleaves, hbefore, hx⟩
    exact expand?_of_first hleaves hbefore hx

/-- Only the replacements of leaves that a term has make a difference to it. -/
theorem expand?_congr {f g : ρ → Except ε (Named σ)} {t : Named ρ}
    (h : ∀ x ∈ t.leaves, f x = g x) : t.expand? f = t.expand? g := by
  induction t with
  | abs name body ih => simp only [expand?, ih h]
  | app fn arg ihf iha =>
    rcases List.forall_mem_append.1 h with ⟨hfn, harg⟩
    simp only [expand?, ihf hfn, iha harg]
  | sym name => rfl
  | leaf x => exact h x (List.mem_singleton_self x)

@[simp] theorem leaves_embed (t : Named Empty) : (t.embed : Named ρ).leaves = [] := by
  induction t with
  | abs name body ih => exact ih
  | app fn arg ihf iha =>
    change (fn.embed : Named ρ).leaves ++ (arg.embed : Named ρ).leaves = []
    rw [ihf, iha]
    rfl
  | sym name => rfl
  | leaf x => exact x.elim

/-- There is nothing to replace in a term that came from one without leaves. -/
theorem expand?_embed (f : ρ → Except ε (Named σ)) (t : Named Empty) :
    (t.embed : Named ρ).expand? f = .ok t.embed := by
  induction t with
  | abs name body ih =>
    change ((body.embed : Named ρ).expand? f >>= fun b => pure (abs name b)) = _
    rw [ih]
    rfl
  | app fn arg ihf iha =>
    change ((fn.embed : Named ρ).expand? f >>= fun g => (arg.embed : Named ρ).expand? f >>= fun a =>
      pure (app g a)) = _
    rw [ihf, iha]
    rfl
  | sym name => rfl
  | leaf x => exact x.elim

end Named

end Nameless
