import Nameless.Named.Numeral
import Nameless.Named.Parser
import Nameless.Proofs.Results
import Nameless.Session.Line

/-!
# The names in terms that are read

Reading a term gives every variable and every binder a name of lower-case letters, and every
reference a name of upper-case letters and digits. Replacing references by terms with such names
keeps this, and numerals have such names as well.

Main statements:
- `Named.wellNamed_of_parse`: terms that are read are well named,
- `Named.WellNamed.expand?`: replacing leaves keeps it,
- `Named.wellNamed_numeral`: numerals are well named,
- `Named.WellNamed.of_mem_freeNames`: what this says of a free variable.
-/

namespace Nameless

/-- The reference is by a name that a definition can have. -/
def Reference.IsNamed (r : Reference) : Prop :=
  Line.isName r.name.toList = true

namespace Named

variable {ρ σ ε : Type}

/-- Whether a text can be the name of a variable. -/
def isVariable (s : List Char) : Bool :=
  !s.isEmpty && s.all isLower

/-- Every variable and every binder has the name of a variable, and every leaf is as it should be.
-/
def WellNamed (leafOk : ρ → Prop) : Named ρ → Prop
  | abs name body => isVariable name.toList = true ∧ body.WellNamed leafOk
  | app fn arg => fn.WellNamed leafOk ∧ arg.WellNamed leafOk
  | sym name => isVariable name.toList = true
  | leaf x => leafOk x

/-- A term without references in which every name is the name of a variable. -/
abbrev Lettered (t : Named Empty) : Prop :=
  t.WellNamed nofun

namespace WellNamed

theorem of_mem_freeNames {leafOk : ρ → Prop} {t : Named ρ} (h : t.WellNamed leafOk) {x : String}
    (hx : x ∈ t.freeNames) : isVariable x.toList = true := by
  induction t with
  | abs name body ih => exact ih h.2 (List.mem_filter.1 hx).1
  | app fn arg ihf iha =>
    rcases List.mem_append.1 hx with hfn | harg
    · exact ihf h.1 hfn
    · exact iha h.2 harg
  | sym name =>
    rcases List.mem_singleton.1 hx with rfl
    exact h
  | leaf x => cases hx

theorem expand? {leafOk : ρ → Prop} {leafOk' : σ → Prop} {f : ρ → Except ε (Named σ)}
    {t : Named ρ} {u : Named σ} (ht : t.WellNamed leafOk)
    (hf : ∀ x d, leafOk x → f x = .ok d → d.WellNamed leafOk') (h : t.expand? f = .ok u) :
    u.WellNamed leafOk' := by
  induction t generalizing u with
  | abs name body ih =>
    rcases Except.bind_eq_ok h with ⟨body', hbody, hdone⟩
    cases hdone
    exact ⟨ht.1, ih ht.2 hbody⟩
  | app fn arg ihf iha =>
    rcases Except.bind_eq_ok h with ⟨fn', hfn, hrest⟩
    rcases Except.bind_eq_ok hrest with ⟨arg', harg, hdone⟩
    cases hdone
    exact ⟨ihf ht.1 hfn, iha ht.2 harg⟩
  | sym name =>
    cases h
    exact ht
  | leaf x => exact hf x u ht h

end WellNamed

theorem wellNamed_numeral (n : Nat) : Lettered (numeral n) := by
  have hf : isVariable "f".toList = true := by decide
  have hx : isVariable "x".toList = true := by decide
  refine ⟨hf, hx, ?_⟩
  induction n with
  | zero => exact hx
  | succ n ih => exact ⟨hf, ih⟩

/-! ## Reading -/

namespace Parser

open Text (skipBlanks)

/-- What the first letters of a text are, if there is one. -/
theorem isVariable_takeWhile {s : List Char} (h : (s.takeWhile isLower).isEmpty = false) :
    isVariable (String.ofList (s.takeWhile isLower)).toList = true := by
  simp [isVariable, h]

/-- All that is read of an abstraction after its sign: a name, a period and a body. -/
theorem abstraction_eq_ok {term : List Char → Result} {s rest : List Char} {t : Named Reference}
    (h : abstraction term s = .ok (t, rest)) :
    ∃ name body s', isVariable name.toList = true ∧
      (skipBlanks s).takeWhile isLower = name.toList ∧
      expect '.' ((skipBlanks s).dropWhile isLower) = .ok s' ∧
      term s' = .ok (body, rest) ∧ t = abs name body := by
  unfold abstraction at h
  simp only at h
  split at h
  · cases h
  · next hname =>
    rcases Except.bind_eq_ok h with ⟨s', hperiod, h⟩
    rcases Except.bind_eq_ok h with ⟨⟨body, rest'⟩, hbody, hdone⟩
    cases hdone
    refine ⟨_, body, s', isVariable_takeWhile (by simpa using hname), ?_, hperiod, hbody, rfl⟩
    exact String.toList_ofList.symm

/-- All that is read of a parenthesis after its opening: one term or two, and the closing. -/
theorem parenthesis_eq_ok {term : List Char → Result} {s rest : List Char} {t : Named Reference}
    (h : parenthesis term s = .ok (t, rest)) :
    ∃ fn rest₁, term s = .ok (fn, rest₁) ∧
      ((skipBlanks rest₁ = ')' :: rest ∧ t = fn) ∨
        ∃ arg rest₂, term (skipBlanks rest₁) = .ok (arg, rest₂) ∧
          expect ')' rest₂ = .ok rest ∧ t = app fn arg) := by
  rcases Except.bind_eq_ok h with ⟨⟨fn, rest₁⟩, hfn, h⟩
  refine ⟨fn, rest₁, hfn, ?_⟩
  simp only at h
  split at h
  · next hclosing =>
    cases h
    exact .inl ⟨hclosing, rfl⟩
  · rcases Except.bind_eq_ok h with ⟨⟨arg, rest₂⟩, harg, h⟩
    rcases Except.bind_eq_ok h with ⟨rest₃, hclosing, hdone⟩
    cases hdone
    exact .inr ⟨arg, rest₂, harg, hclosing, rfl⟩

theorem wellNamed_of_term {depth : Nat} {s rest : List Char} {t : Named Reference}
    (h : term depth s = .ok (t, rest)) : t.WellNamed Reference.IsNamed := by
  -- By induction on the depth, with one case for each kind of term, as its first character tells.
  induction depth generalizing s t rest with
  | zero => cases h
  | succ depth ih =>
    unfold term at h
    split at h
    · cases h
    · next c tail _ =>
      split at h
      · rcases abstraction_eq_ok h with ⟨name, body, s', hname, _, _, hbody, rfl⟩
        exact ⟨hname, ih hbody⟩
      · split at h
        · rcases parenthesis_eq_ok h with ⟨fn, rest₁, hfn, ⟨_, rfl⟩ | ⟨arg, rest₂, harg, _, rfl⟩⟩
          · exact ih hfn
          · exact ⟨ih hfn, ih harg⟩
        · split at h
          · next hlower =>
            cases h
            exact isVariable_takeWhile (by simp [hlower])
          · split at h
            · next hupper =>
              cases h
              simp [WellNamed, Reference.IsNamed, Line.isName, hupper]
            · cases h

end Parser

theorem wellNamed_of_parse {depth : Nat} {text : String} {t : Named Reference}
    (h : Named.parse depth text = .ok t) : t.WellNamed Reference.IsNamed := by
  unfold Named.parse at h
  split at h
  · next heq =>
    cases h
    rcases Except.bind_eq_ok heq with ⟨⟨u, rest⟩, hterm, hrest⟩
    simp only at hrest
    split at hrest
    · cases hrest
      exact Parser.wellNamed_of_term hterm
    · cases hrest
  · cases h

end Named
end Nameless
