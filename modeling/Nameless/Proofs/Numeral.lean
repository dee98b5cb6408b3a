import Mathlib.Data.Nat.Digits.Defs
import Nameless.Proofs.Height
import Nameless.Proofs.Indexed.Church
import Nameless.Proofs.Session.Failures

/-!
# Numerals and decimals

A number is written in two ways: as a numeral, which is a term, and in decimal, which is a name that
a definition can have. Numerals of one number differ in the names of their binders only, and the
decimal of a number is read as that number, unless it is longer than the decimals that are read.

This file defines:
- `Named.OneNamedZero`: zero with one name for both of its binders.

Main statements:
- `Named.eq_of_numeral?`: which terms are numerals,
- `Named.nameless_of_numeral?`: they have the nameless form of the numeral of their number,
- `Named.numeral?_eq_some_iff`: all terms of that form are numerals, but for `OneNamedZero`,
- `Indexed.numeral?_of_toNamed?`: of the terms that were given names, all of them are,
- `Session.number?_toString`, `Session.lookup_toString`: what decimals are read as.
-/

namespace Nameless

/-! ## Numerals -/

namespace Named

variable {ρ : Type}

theorem eq_iterate_of_countFrom {f x : String} {count n : Nat} {t : Named ρ}
    (h : countFrom f x count t = some n) : ∃ k, n = count + k ∧ t = iterate f (sym x) k := by
  -- The count grows with every application that is taken off, so it is kept apart from `k`.
  fun_induction countFrom f x count t with
  | case1 count arg ih =>
    rcases ih h with ⟨k, rfl, rfl⟩
    exact ⟨k + 1, by omega, rfl⟩
  | case3 count =>
    cases h
    exact ⟨0, rfl, rfl⟩
  | case2 => cases h
  | case4 => cases h
  | case5 => cases h

/-- A term is a numeral if it has two binders of different names and applies the outer one some
number of times to the inner one. -/
theorem eq_of_numeral? {t : Named ρ} {n : Nat} (h : t.numeral? = some n) :
    ∃ f x, f ≠ x ∧ t = abs f (abs x (iterate f (sym x) n)) := by
  unfold numeral? at h
  split at h
  · next f x body =>
    split at h
    · cases h
    · next hne =>
      rcases eq_iterate_of_countFrom h with ⟨k, hn, rfl⟩
      rw [Nat.zero_add] at hn
      exact ⟨f, x, hne, by rw [hn]⟩
  · cases h

theorem nameless_iterate {f x : String} (hne : f ≠ x) (scope : List String) (n : Nat) :
    (iterate f (sym x) n : Named Empty).nameless (x :: f :: scope) =
      Indexed.iterate (.var 1) (.var 0) n := by
  induction n with
  | zero => simp [iterate, nameless, Indexed.iterate]
  | succ n ih => simp [iterate, nameless, Indexed.iterate, ih, List.idxOf_cons_ne, hne.symm]

/-- All terms that are numerals of one number have one nameless form. -/
theorem nameless_eq_of_numeral? {t : Named Empty} {n : Nat} (h : t.numeral? = some n) :
    t.nameless [] = Indexed.numeral n := by
  rcases eq_of_numeral? h with ⟨f, x, hne, rfl⟩
  simp only [nameless, Indexed.numeral, nameless_iterate hne]

/-- Binders around a numeral make no difference to its nameless form. -/
theorem nameless_numeral (scope : List String) (n : Nat) :
    (numeral n).nameless scope = Indexed.numeral n := by
  have hne : ("f" : String) ≠ "x" := by decide
  simp only [numeral, nameless, Indexed.numeral, nameless_iterate hne]

theorem nameless_of_numeral? {t : Named Empty} {n : Nat} (h : t.numeral? = some n) :
    (numeral n).nameless [] = t.nameless [] := by
  rw [nameless_numeral, nameless_eq_of_numeral? h]

/-! ### Numerals up to the names of binders -/

theorem eq_abs_of_nameless {t : Named Empty} {scope : List String} {b : Indexed Empty}
    (h : t.nameless scope = .lam b) :
    ∃ name body, t = abs name body ∧ body.nameless (name :: scope) = b := by
  cases t with
  | abs name body => exact ⟨name, body, rfl, Indexed.lam.inj h⟩
  | app fn arg => cases h
  | sym name => exact absurd h (nameless_sym_ne_lam name scope b)
  | leaf x => exact x.elim

theorem eq_app_of_nameless {t : Named Empty} {scope : List String} {f a : Indexed Empty}
    (h : t.nameless scope = .app f a) :
    ∃ fn arg, t = app fn arg ∧ fn.nameless scope = f ∧ arg.nameless scope = a := by
  cases t with
  | abs name body => cases h
  | app fn arg => exact ⟨fn, arg, rfl, Indexed.app.inj h⟩
  | sym name => exact absurd h (nameless_sym_ne_app name scope f a)
  | leaf x => exact x.elim

/-- An index comes from a variable only, and from the one whose innermost binder it counts to. -/
theorem eq_sym_of_nameless {t : Named Empty} {scope : List String} {index : Nat}
    (h : t.nameless scope = .var index) :
    ∃ name, t = sym name ∧ name ∈ scope ∧ scope.idxOf name = index := by
  cases t with
  | abs name body => cases h
  | app fn arg => cases h
  | sym name =>
    by_cases hname : name ∈ scope
    · simp only [nameless, hname, if_true, Indexed.var.injEq] at h
      exact ⟨name, rfl, hname, h⟩
    · simp [nameless, hname] at h
  | leaf x => exact x.elim

/-- With two binders of one name the outer one cannot be referred to, so it is never applied. -/
theorem eq_iterate_of_nameless {f x : String} {t : Named Empty} {n : Nat}
    (h : t.nameless [x, f] = Indexed.iterate (.var 1) (.var 0) n) :
    t = iterate f (sym x) n ∧ (f = x → n = 0) := by
  induction n generalizing t with
  | zero =>
    rcases eq_sym_of_nameless h with ⟨y, rfl, _, hindex⟩
    have hy : y = x := by
      by_contra hne
      simp [List.idxOf_cons_ne _ (Ne.symm hne)] at hindex
    exact ⟨by rw [hy]; rfl, fun _ => rfl⟩
  | succ n ih =>
    rcases eq_app_of_nameless h with ⟨fn, arg, rfl, hfn, harg⟩
    rcases eq_sym_of_nameless hfn with ⟨g, rfl, hmem, hindex⟩
    -- The inner binder is counted first, so what refers to the outer one has another name.
    have hne : g ≠ x := by
      rintro rfl
      simp at hindex
    have hg : g = f := by simpa [hne] using hmem
    subst hg
    exact ⟨by rw [(ih harg).1]; rfl, fun heq => absurd heq hne⟩

/-- Zero, written with one name for both of its binders. -/
def OneNamedZero (t : Named Empty) : Prop :=
  ∃ x, t = abs x (abs x (sym x))

/-- A term is the numeral of a number if it has that nameless form. Only where two binders of one
name stand for zero is the numeral not seen. -/
theorem numeral?_eq_some_iff {t : Named Empty} {n : Nat} :
    t.numeral? = some n ↔ t.nameless [] = Indexed.numeral n ∧ ¬ t.OneNamedZero := by
  constructor
  · intro h
    refine ⟨nameless_eq_of_numeral? h, ?_⟩
    rintro ⟨y, rfl⟩
    simp [numeral?] at h
  · rintro ⟨h, hzero⟩
    rcases eq_abs_of_nameless h with ⟨f, inner, rfl, hinner⟩
    rcases eq_abs_of_nameless hinner with ⟨x, body, rfl, hbody⟩
    rcases eq_iterate_of_nameless hbody with ⟨rfl, hhidden⟩
    have hne : f ≠ x := by
      rintro rfl
      rcases hhidden rfl with rfl
      exact hzero ⟨f, rfl⟩
    simp [numeral?, hne, countFrom_iterate]

/-- Recognition of numerals goes by their nameless form: a term is taken for the numeral of a number
if it differs from it in the names of binders only, and for none if there is no such number. The one
exception is zero with one name for both of its binders, which is taken for no numeral. -/
theorem numeral?_agrees_alphaEquals (t : Named Empty) :
    (∀ n, t.numeral? = some n ↔
      t.alphaEquals? (numeral n : Named Empty) = .ok true ∧ ¬ t.OneNamedZero) ∧
      (∀ u : Named Empty, t.alphaEquals? u = .ok true → ¬ t.OneNamedZero → ¬ u.OneNamedZero →
        t.numeral? = u.numeral?) ∧
      (t.numeral? = none ↔
        (∀ n, t.alphaEquals? (numeral n : Named Empty) = .ok false) ∨ t.OneNamedZero) := by
  refine ⟨?_, ?_, ?_⟩
  · intro n
    rw [numeral?_eq_some_iff, alphaEquals?_eq, nameless_numeral]
    simp
  · intro u hu ht hzero
    have hsame : t.nameless [] = u.nameless [] := by simpa [alphaEquals?_eq] using hu
    apply Option.ext
    intro n
    rw [numeral?_eq_some_iff, numeral?_eq_some_iff, hsame]
    simp [ht, hzero]
  · simp only [Option.eq_none_iff_forall_ne_some, ne_eq, numeral?_eq_some_iff, alphaEquals?_eq,
      nameless_numeral, not_and_not_right]
    by_cases hzero : t.OneNamedZero <;> simp [hzero]

/-- `λa.λb.(a (a b))` and `λb.λa.(b (b a))`, which swap the names of the two binders. -/
theorem numeral?_agrees_alphaEquals_swapped :
    let t : Named Empty := abs "a" (abs "b" (app (sym "a") (app (sym "a") (sym "b"))))
    let u : Named Empty := abs "b" (abs "a" (app (sym "b") (app (sym "b") (sym "a"))))
    t.alphaEquals? u = .ok true ∧ ¬ t.OneNamedZero ∧ ¬ u.OneNamedZero ∧ t.numeral? = u.numeral? ∧
      t.numeral? = some 2 := by
  intro t u
  have halpha : t.alphaEquals? u = .ok true := by decide +kernel
  have htwo : t.alphaEquals? (numeral 2 : Named Empty) = .ok true := by decide +kernel
  have ht : ¬ t.OneNamedZero := by
    rintro ⟨x, hx⟩
    simp [t] at hx
  have hu : ¬ u.OneNamedZero := by
    rintro ⟨x, hx⟩
    simp [u] at hx
  rcases numeral?_agrees_alphaEquals t with ⟨hnumber, hrenamed, _⟩
  exact ⟨halpha, ht, hu, hrenamed u halpha ht hu, (hnumber 2).2 ⟨htwo, ht⟩⟩

/-- `λf.λf.f` differs from the numeral of zero in the name of a binder only, and is taken for no
numeral. -/
theorem numeral?_misses_one_named_zero :
    let t : Named Empty := abs "f" (abs "f" (sym "f"))
    t.alphaEquals? (numeral 0 : Named Empty) = .ok true ∧ t.numeral? = none := by
  decide +kernel

/-! ### The height of numerals -/

theorem height_iterate (f x : String) (n : Nat) :
    (iterate f (sym x) n : Named ρ).height = n + 1 := by
  induction n with
  | zero => rfl
  | succ n ih => simp [iterate, height, ih]

theorem height_numeral (n : Nat) : (numeral n : Named ρ).height = n + 3 := by
  simp only [numeral, height, height_iterate]

theorem lt_height_of_numeral? {t : Named ρ} {n : Nat} (h : t.numeral? = some n) :
    n < t.height := by
  rcases eq_of_numeral? h with ⟨f, x, _, rfl⟩
  simp only [height, height_iterate]
  omega

end Named

/-! ## Numerals that are given names -/

namespace Indexed

theorem toNamedFrom?_iterate (reserved : List String) (next : Nat) (x f : String) (n : Nat) :
    (iterate (var 1) (var 0) n : Indexed Empty).toNamedFrom? reserved next [x, f] =
      .ok (Named.iterate f (.sym x) n) := by
  induction n with
  | zero => rfl
  | succ n ih =>
    rw [iterate, toNamedFrom?, ih]
    rfl

/-- The binders of a nameless numeral are given different names, so that a numeral results. -/
theorem exists_toNamed?_numeral (n : Nat) :
    ∃ r, (numeral n : Indexed Empty).toNamed? = .ok r ∧ r.numeral? = some n := by
  refine ⟨.abs "a" (.abs "b" (Named.iterate "a" (.sym "b") n)), ?_, ?_⟩
  · have ha : Identifier.nth (Identifier.firstFresh [] 0) = "a" := by decide +kernel
    have hb : Identifier.nth (Identifier.firstFresh [] (Identifier.firstFresh [] 0 + 1)) = "b" := by
      decide +kernel
    rw [toNamed?, freeNames_numeral]
    simp only [numeral, toNamedFrom?, ha, hb, toNamedFrom?_iterate]
    rfl
  · simp [Named.numeral?, Named.countFrom_iterate]

/-- A term that was given names is taken for a numeral if it is one without its names. -/
theorem numeral?_of_toNamed? {v : Indexed Empty} {r : Named Empty} (h : v.toNamed? = .ok r)
    {n : Nat} : r.numeral? = some n ↔ v = numeral n := by
  constructor
  · intro hnumber
    rw [← nameless_toNamed? h]
    exact Named.nameless_eq_of_numeral? hnumber
  · rintro rfl
    rcases exists_toNamed?_numeral n with ⟨r', hr', hnumber⟩
    rw [h] at hr'
    cases hr'
    exact hnumber

end Indexed

/-! ### Numerals among results -/

namespace Named

/-- A result is taken for the numeral of a number exactly if that numeral is the normal form of the
term, and for no numeral if the normal form is none. The names of free variables have no part in
this, even if they are names that binders are given. -/
theorem result_numeral_iff_normal_form {limits : Limits} {allowFree : Bool} {t r : Named Empty}
    (h : (t.reduce? limits allowFree).result = .ok r) :
    ∃ u v, t.toIndexed? allowFree [] = .ok u ∧ (u.nf limits).result = .ok v ∧
      (∀ w, Relation.ReflTransGen Indexed.Beta u w ∧ w.Normal ↔ w = v) ∧
      (∀ n, r.numeral? = some n ↔ v = Indexed.numeral n) ∧
      (r.numeral? = none ↔ ∀ n, v ≠ Indexed.numeral n) := by
  rcases reduce?_eq_ok (Reduction.eq_of_result h) with ⟨u, v, hindexed, hnf, hr⟩
  have hresult : (u.nf limits).result = .ok v := by rw [hnf]
  refine ⟨u, v, hindexed, hresult, ?_, fun n => Indexed.numeral?_of_toNamed? hr, ?_⟩
  · intro w
    constructor
    · rintro ⟨hbetas, hnormal⟩
      rcases Indexed.exists_nf_of_betas hbetas hnormal with ⟨limits', hw⟩
      -- Other limits give no other result.
      rcases (Indexed.nf_comesTo hresult).2 limits' with hv | hdeep
      · rw [hw] at hv
        exact Except.ok.inj hv
      · rw [hw] at hdeep
        cases hdeep
    · rintro rfl
      rcases Indexed.nfWithin_leftmostRun hnf with ⟨hrun, hnormal⟩
      exact ⟨hrun.betas, hnormal⟩
  · simp only [Option.eq_none_iff_forall_ne_some, ne_eq, Indexed.numeral?_of_toNamed? hr]

/-- `(λk.λf.λx.(f (f x)) a)`, whose free variable is gone from its normal form and leaves its name
to a binder, and `λx.λy.(a y)`, which would be one with a binder called `a`. -/
theorem result_numeral_iff_normal_form_free_names :
    let t : Named Empty :=
      app (abs "k" (abs "f" (abs "x" (app (sym "f") (app (sym "f") (sym "x")))))) (sym "a")
    let u : Named Empty := abs "x" (abs "y" (app (sym "a") (sym "y")))
    (∃ r, (t.reduce? ⟨9, 9⟩ true).result = .ok r ∧ r.text = "λa.λb.(a (a b))" ∧
        r.numeral? = some 2) ∧
      ∃ r, (u.reduce? ⟨9, 9⟩ true).result = .ok r ∧ r.text = "λb.λc.(a c)" ∧
        r.numeral? = none := by
  intro t u
  have ht : (t.reduce? ⟨9, 9⟩ true).result =
      .ok (abs "a" (abs "b" (app (sym "a") (app (sym "a") (sym "b"))))) := by decide +kernel
  have hu : (u.reduce? ⟨9, 9⟩ true).result =
      .ok (abs "b" (abs "c" (app (sym "a") (sym "c")))) := by decide +kernel
  have htwo : ((t.nameless []).nf ⟨9, 9⟩).result = .ok (Indexed.numeral 2) := by decide +kernel
  have hfree : ((u.nameless []).nf ⟨9, 9⟩).result =
      .ok (.lam (.lam (.app (.free "a") (.var 0)))) := by decide +kernel
  rcases result_numeral_iff_normal_form ht with ⟨_, v, hindexed, hv, _, hnumber, _⟩
  rcases result_numeral_iff_normal_form hu with ⟨_, w, hindexed', hw, _, _, hnone⟩
  rw [toIndexed?_true] at hindexed hindexed'
  cases hindexed
  cases hindexed'
  rw [htwo] at hv
  rw [hfree] at hw
  cases hv
  cases hw
  refine ⟨⟨_, ht, by decide +kernel, (hnumber 2).2 rfl⟩, ⟨_, hu, by decide +kernel, hnone.2 ?_⟩⟩
  intro n
  cases n <;> simp [Indexed.numeral, Indexed.iterate]

end Named

/-! ## Decimals -/

namespace Text

theorem toString_ne_nil (n : Nat) : (toString n).toList ≠ [] := by
  rw [Nat.toString_eq_repr, Nat.toList_repr]
  exact Nat.toDigits_ne_nil

end Text

theorem Line.isName_of_isDigit {cs : List Char} (hne : cs ≠ [])
    (h : ∀ c ∈ cs, c.isDigit = true) : Line.isName cs = true := by
  simp only [Line.isName, Bool.and_eq_true, Bool.not_eq_true', List.isEmpty_eq_false_iff,
    List.all_eq_true]
  refine ⟨hne, ?_⟩
  intro c hc
  have hdigit := h c hc
  simp only [Char.isDigit, Bool.and_eq_true, decide_eq_true_eq, ge_iff_le] at hdigit
  simp only [isUpperOrDigit, Bool.or_eq_true, Bool.and_eq_true, decide_eq_true_eq]
  exact .inr hdigit

theorem Line.isName_toString (n : Nat) : Line.isName (toString n).toList = true :=
  Line.isName_of_isDigit (Text.toString_ne_nil n) fun _ hc => Text.isDigit_of_mem_toString hc

namespace Session

/-- A value is no higher than terms may nest, and a numeral is higher than its number is great. -/
theorem lt_nesting_of_decimal? {s : Session} {verbose : Bool} {t u : Named Empty}
    {redexes : List (Indexed Empty)} (hreduce : s.reduction verbose t = ⟨redexes, .ok u⟩) {n : Nat}
    (hdecimal : s.decimal? u = some n) : n < s.limits.nesting := by
  have hresult : (t.reduce? s.limits.toLimits s.allowFree).result = .ok u := by
    rw [Named.reduce?_of_reduceIn? hreduce]
  calc n < u.height := Named.lt_height_of_numeral? (decimal?_eq_some.1 hdecimal).2
    _ ≤ s.limits.nesting := Named.height_le_of_reduce? hresult

/-- The decimal of a number is read as that number. -/
theorem number?_toString {n : Nat} (h : n < 10 ^ Mishap.maxDigits) :
    number? (toString n).toList = .ok n := by
  have hlength : ¬ Mishap.maxDigits < (toString n).toList.length :=
    Nat.not_lt.2 (length_toString_le_iff.2 h)
  calc number? (toString n).toList
      = .ok (Nat.ofDigitChars 10 (toString n).toList 0) :=
        number?_of_short (fun _ hc => Text.isDigit_of_mem_toString hc) hlength
    _ = .ok n := by
        rw [Nat.toString_eq_repr, Nat.toList_repr, Nat.ofDigitChars_ten_toDigits]

/-- Digits that denote a number stand for its numeral unless they are defined. -/
theorem lookup_of_number? {s : Session} {name : String} {n : Nat} (hnumerals : s.numerals = true)
    (hfind : s.definitions.find? name = none) (hdigits : Text.isDigits name.toList = true)
    (hnumber : number? name.toList = .ok n) (expr : String) :
    s.lookup expr name = .ok (Named.numeral n) := by
  unfold lookup
  simp only [hfind, hnumerals, hdigits, hnumber, Bool.and_self, if_true]

/-- The decimal of a number stands for the numeral of that number unless it is defined. -/
theorem lookup_toString {s : Session} {n : Nat} (hnumerals : s.numerals = true)
    (hfind : s.definitions.find? (toString n) = none) (hn : n < 10 ^ Mishap.maxDigits)
    (expr : String) : s.lookup expr (toString n) = .ok (Named.numeral n) := by
  have hdigits : Text.isDigits (toString n).toList = true :=
    Text.isDigits_of_isDigit (Text.toString_ne_nil n) fun _ hc => Text.isDigit_of_mem_toString hc
  exact lookup_of_number? hnumerals hfind hdigits (number?_toString hn) expr

end Session
end Nameless
