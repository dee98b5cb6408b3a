import Mathlib.Logic.Relation
import Nameless.Proofs.Height

/-!
# Reading looks no further than it has to

What is read from the front of a text does not depend on what follows, as long as no name runs on:
a name ends where a character of another kind follows, and all else ends by itself. Neither does a
refusal depend on what follows the character at which it arises.

Reading is a chain of steps, each of which takes something off the front of a text. If the steps
do not depend on what follows, neither does the chain, because every step takes a character at least
and so the next step decides how the one before it ends. This is stated for relations between a text
and what is left of it.

This file defines:
- `Text.Apart`: two texts of which the one does not run on into the other,
- `Text.Local`: relations that take something off a text, whatever follows,
- `Text.HaltsLocally`: relations that stop at a character, whatever follows it,
- `Text.SkipsTo`: blanks that end where something else stands, or nothing,
- `Named.Parser.Stops`: the ways in which the reading of a term comes to a stop.

Main statements:
- `Text.Local.comp`, `Text.Local.haltsLocally_comp`: chains of such relations,
- `Named.Parser.term_local`: a term is read whatever follows,
- `Named.Parser.term_haltsLocally`, `Named.Parser.whole_haltsLocally`: a text is refused whatever
  follows the character at which it is.
-/

namespace Nameless

namespace Text

/-! ## Names that run on -/

/-- Whether two neighbouring characters belong to one name. -/
def joins (c d : Char) : Bool :=
  isLower c && isLower d || isUpperOrDigit c && isUpperOrDigit d

/-- No name at the end of the first text runs on into the second one. -/
def Apart (before rest : List Char) : Prop :=
  ∀ c ∈ before.getLast?, ∀ d ∈ rest.head?, joins c d = false

theorem apart_append {before more : List Char} (hne : more ≠ []) {rest : List Char} :
    Apart (before ++ more) rest ↔ Apart more rest := by
  rw [Apart, List.getLast?_append_of_ne_nil before hne, Apart]

theorem joins_comm (c d : Char) : joins c d = joins d c := by
  simp only [joins, Bool.and_comm]

theorem joins_of_isBlank (c : Char) {d : Char} (h : isBlank d = true) : joins c d = false := by
  have hlower : isLower d = false := by
    cases hd : isLower d with
    | false => rfl
    | true => exact absurd h (by simp [isBlank_of_isLower hd])
  have hupper : isUpperOrDigit d = false := by
    cases hd : isUpperOrDigit d with
    | false => rfl
    | true => exact absurd h (by simp [isBlank_of_isUpperOrDigit hd])
  simp [joins, hlower, hupper]

/-- Only the first character that follows matters, and a blank ends everything. -/
theorem Apart.of_head {before mid rest : List Char} (h : Apart before (mid ++ rest)) {d : Char}
    (hd : d ∈ rest.head? ∨ isBlank d = true) (more : List Char) :
    Apart before (mid ++ d :: more) := by
  cases mid with
  | cons e mid => exact h
  | nil =>
    intro c hc e he
    rcases Option.some.inj he with rfl
    rcases hd with hd | hd
    · exact h c hc d hd
    · exact joins_of_isBlank c hd

/-! ## Relations between a text and what is left of it -/

/-- The relation holds by something that is taken off the front of the text, and it holds as well if
anything else follows that does not run on. -/
def LocalAt (R : List Char → List Char → Prop) (s rest : List Char) : Prop :=
  ∃ before, s = before ++ rest ∧ before ≠ [] ∧ Apart before rest ∧
    ∀ rest', Apart before rest' → R (before ++ rest') rest'

/-- Whenever the relation holds, it does so whatever follows. -/
def Local (R : List Char → List Char → Prop) : Prop :=
  ∀ s rest, R s rest → LocalAt R s rest

/-- The relation leaves a character next that is no blank, and leaves it next if anything else
follows it. -/
def HaltsAt (R : List Char → List Char → Prop) (s : List Char) (c : Char) (rest : List Char) :
    Prop :=
  isBlank c = false ∧ ∃ before, s = before ++ c :: rest ∧
    ∀ rest', R (before ++ c :: rest') (c :: rest')

/-- Whenever the relation leaves some character next, it does so whatever follows it. -/
def HaltsLocally (R : List Char → List Char → Prop) : Prop :=
  ∀ s c rest, R s (c :: rest) → HaltsAt R s c rest

section

variable {R Q : List Char → List Char → Prop} {s rest : List Char}

theorem LocalAt.mono (h : LocalAt R s rest) (himp : ∀ s rest, R s rest → Q s rest) :
    LocalAt Q s rest := by
  rcases h with ⟨before, hs, hne, hapart, hagain⟩
  exact ⟨before, hs, hne, hapart, fun rest' hrest' => himp _ _ (hagain rest' hrest')⟩

theorem HaltsAt.mono {c : Char} (h : HaltsAt R s c rest) (himp : ∀ s rest, R s rest → Q s rest) :
    HaltsAt Q s c rest := by
  rcases h with ⟨hc, before, hs, hagain⟩
  exact ⟨hc, before, hs, fun rest' => himp _ _ (hagain rest')⟩

namespace Local

theorem comp (hR : Local R) (hQ : Local Q) : Local (Relation.Comp R Q) := by
  rintro s rest ⟨mid, hs, hmid⟩
  rcases hQ mid rest hmid with ⟨second, rfl, hsecond, hapart, hagain⟩
  rcases hR s _ hs with ⟨first, rfl, _, hfirst, hbefore⟩
  refine ⟨first ++ second, (List.append_assoc _ _ _).symm, by simp [hsecond], ?_, ?_⟩
  · exact (apart_append hsecond).2 hapart
  · intro rest' hrest'
    -- The first step ends where the second one starts, and that has not changed.
    have hnext : Apart first (second ++ rest') := by
      rcases List.exists_cons_of_ne_nil hsecond with ⟨c, tail, rfl⟩
      exact hfirst
    refine ⟨second ++ rest', ?_, hagain rest' ((apart_append hsecond).1 hrest')⟩
    rw [List.append_assoc]
    exact hbefore _ hnext

/-- What follows may be exchanged from some place on, for anything that starts alike or with a
blank. -/
theorem exchange (hR : Local R) {s mid rest : List Char} (h : R s (mid ++ rest)) :
    ∃ before, s = before ++ (mid ++ rest) ∧ ∀ d more, (d ∈ rest.head? ∨ isBlank d = true) →
      R (before ++ (mid ++ d :: more)) (mid ++ d :: more) := by
  rcases hR s _ h with ⟨before, rfl, _, hapart, hagain⟩
  exact ⟨before, rfl, fun d more hd => hagain _ (hapart.of_head hd more)⟩

theorem haltsLocally_comp (hR : Local R) (hQ : HaltsLocally Q) :
    HaltsLocally (Relation.Comp R Q) := by
  rintro s c rest ⟨mid, hs, hmid⟩
  rcases hQ mid c rest hmid with ⟨hc, last, rfl, hlast⟩
  rcases hR.exchange hs with ⟨first, rfl, hfirst⟩
  refine ⟨hc, first ++ last, (List.append_assoc _ _ _).symm, ?_⟩
  intro rest'
  rw [List.append_assoc]
  exact ⟨last ++ c :: rest', hfirst c rest' (.inl rfl), hlast rest'⟩

end Local

end

theorem exists_blanks (s : List Char) :
    ∃ blanks, s = blanks ++ skipBlanks s ∧ ∀ c ∈ blanks, isBlank c = true :=
  ⟨s.takeWhile isBlank, List.takeWhile_append_dropWhile.symm, List.all_eq_true.1 List.all_takeWhile⟩

theorem skipBlanks_append {blanks : List Char} (h : ∀ c ∈ blanks, isBlank c = true)
    (s : List Char) : skipBlanks (blanks ++ s) = skipBlanks s :=
  List.dropWhile_append_of_pos h

/-- The blanks at the front of a text end at `rest`, whose first character is as told. -/
def SkipsTo (p : Option Char → Prop) (s rest : List Char) : Prop :=
  skipBlanks s = rest ∧ p rest.head?

theorem SkipsTo.haltsLocally (p : Option Char → Prop) : HaltsLocally (SkipsTo p) := by
  rintro s c rest ⟨hs, hc⟩
  rcases exists_blanks s with ⟨blanks, hsplit, hblanks⟩
  have hstop : isBlank c = false := by
    have hhead := List.head?_dropWhile_not isBlank s
    rw [← skipBlanks, hs] at hhead
    simpa using hhead
  refine ⟨hstop, blanks, hs ▸ hsplit, fun rest' => ⟨?_, hc⟩⟩
  rw [skipBlanks_append hblanks, skipBlanks_cons, hstop]
  rfl

/-- The first character behind the blanks does not depend on what follows some other character. -/
theorem head?_skipBlanks_append (before : List Char) {c : Char} (hc : isBlank c = false)
    (rest rest' : List Char) :
    (skipBlanks (before ++ c :: rest)).head? = (skipBlanks (before ++ c :: rest')).head? := by
  induction before with
  | nil => simp [skipBlanks_cons, hc]
  | cons b before ih =>
    by_cases hb : isBlank b = true
    · simpa [skipBlanks_cons, hb] using ih
    · simp [skipBlanks_cons, hb]

end Text

open Text (isBlank skipBlanks Apart Local HaltsLocally SkipsTo)

/-! ## Tokens -/

namespace Token

theorem exists_last_of_run {p : Char → Bool} {run : List Char}
    (h : (!run.isEmpty && run.all p) = true) : ∃ c, run.getLast? = some c ∧ p c = true := by
  rcases exists_cons_of_run h with ⟨_, _, hcons, _, hall⟩
  have hne : run ≠ [] := by simp [hcons]
  exact ⟨run.getLast hne, List.getLast?_eq_some_getLast hne, hall _ (List.getLast_mem hne)⟩

/-- The last character of a token tells what would extend it. -/
theorem WrittenAs.exists_last {token : Token} {written : List Char} (h : token.WrittenAs written) :
    ∃ c, written.getLast? = some c ∧ ∀ d, Text.joins c d = token.extendedBy d := by
  cases token with
  | lambda => rcases h with rfl | rfl <;> exact ⟨_, rfl, fun d => rfl⟩
  | period => exact ⟨'.', by rw [h]; rfl, fun d => rfl⟩
  | opening => exact ⟨'(', by rw [h]; rfl, fun d => rfl⟩
  | closing => exact ⟨')', by rw [h]; rfl, fun d => rfl⟩
  | sym name =>
    rcases exists_last_of_run h.2 with ⟨c, hlast, hc⟩
    -- No character belongs to names of both kinds.
    have hupper : isUpperOrDigit c = false := by
      cases hupper : isUpperOrDigit c with
      | false => rfl
      | true => exact absurd hc (by simp [isLower_of_isUpperOrDigit hupper])
    exact ⟨c, hlast, fun d => by simp [Text.joins, extendedBy, hc, hupper]⟩
  | ref name =>
    rcases exists_last_of_run h.2 with ⟨c, hlast, hc⟩
    exact ⟨c, hlast, fun d => by simp [Text.joins, extendedBy, hc, isLower_of_isUpperOrDigit hc]⟩

theorem WrittenAs.ne_nil {token : Token} {written : List Char} (h : token.WrittenAs written) :
    written ≠ [] := by
  rcases h.exists_cons with ⟨c, tail, rfl, _⟩
  exact List.cons_ne_nil c tail

/-- A token that ends a text does not run on if what follows does not extend it. -/
theorem WrittenAs.apart_iff {token : Token} {written : List Char} (h : token.WrittenAs written)
    (before rest : List Char) :
    Apart (before ++ written) rest ↔ ∀ d ∈ rest.head?, token.extendedBy d = false := by
  rcases h.exists_last with ⟨c, hlast, hjoins⟩
  rw [Text.apart_append h.ne_nil, Apart, hlast]
  simp [hjoins]

theorem leads_local (token : Token) : Local fun s rest => Leads s token rest := by
  rintro s rest ⟨blanks, written, rfl, hblanks, hwritten, hrest⟩
  have hapart := hwritten.apart_iff blanks
  refine ⟨blanks ++ written, (List.append_assoc _ _ _).symm, by simp [hwritten.ne_nil], ?_, ?_⟩
  · exact (hapart rest).2 hrest
  · intro rest' hrest'
    exact ⟨blanks, written, List.append_assoc _ _ _, hblanks, hwritten, (hapart rest').1 hrest'⟩

end Token

/-! ## Terms -/

namespace Named.Parser

open Token (Leads leads_local)

theorem term_of_takes {depth : Nat} {s rest : List Char} {t : Named Reference}
    (h : Takes (term depth) s t rest) : term (depth + 1) s = .ok (t, rest) := by
  cases h with
  | abstraction hlambda hname hperiod hbody =>
    rcases Token.leads_lambda.1 hlambda with ⟨c, hc, hs⟩
    rw [term_lambda hs hc]
    exact abstraction_of_leads hname hperiod hbody
  | application hopening hfn harg hclosing =>
    rw [term_opening (Token.leads_opening.1 hopening)]
    -- No term starts with a closing parenthesis, so the function is not taken for a group.
    refine parenthesis_of_application hfn ?_ ((term_skipBlanks depth _).trans harg) hclosing
    rintro ⟨tail, hleads⟩
    exact (reads_of_term harg).not_leads_closing hleads
  | group hopening ht hclosing =>
    rw [term_opening (Token.leads_opening.1 hopening)]
    exact parenthesis_of_group ht hclosing
  | symbol hname => exact term_sym hname depth
  | reference hname => exact term_ref hname depth

/-- A term is read whatever follows it, if no name runs on. -/
theorem term_local (depth : Nat) (t : Named Reference) :
    Local fun s rest => term depth s = .ok (t, rest) := by
  induction depth generalizing t with
  | zero =>
    intro s rest h
    cases h
  | succ depth ih =>
    intro s rest h
    -- Each kind of term is a chain of tokens and of terms that are nested less deep.
    cases takes_of_term h with
    | abstraction hlambda hname hperiod hbody =>
      refine ((leads_local .lambda).comp ((leads_local _).comp
        ((leads_local .period).comp (ih _))) _ _
        ⟨_, hlambda, _, hname, _, hperiod, hbody⟩).mono ?_
      rintro s rest ⟨s₁, hlambda, s₂, hname, s₃, hperiod, hbody⟩
      exact term_of_takes (.abstraction hlambda hname hperiod hbody)
    | application hopening hfn harg hclosing =>
      refine ((leads_local .opening).comp ((ih _).comp
        ((ih _).comp (leads_local .closing))) _ _
        ⟨_, hopening, _, hfn, _, harg, hclosing⟩).mono ?_
      rintro s rest ⟨s₁, hopening, s₂, hfn, s₃, harg, hclosing⟩
      exact term_of_takes (.application hopening hfn harg hclosing)
    | group hopening ht hclosing =>
      refine ((leads_local .opening).comp ((ih t).comp (leads_local .closing)) _ _
        ⟨_, hopening, _, ht, hclosing⟩).mono ?_
      rintro s rest ⟨s₁, hopening, s₂, ht, hclosing⟩
      exact term_of_takes (.group hopening ht hclosing)
    | symbol hname =>
      exact (leads_local _ _ _ hname).mono fun s rest h => term_of_takes (.symbol h)
    | reference hname =>
      exact (leads_local _ _ _ hname).mono fun s rest h => term_of_takes (.reference h)

/-! ## Refusals -/

/-- Whether a term can start with a character. -/
def startsTerm (c : Char) : Bool :=
  isLambda c || c == '(' || isLower c || isUpperOrDigit c

/-- What is wrong where a given character has to stand, by what stands there. -/
def missing (expected : Char) : Option Char → SyntaxFault
  | none => .endedEarly expected
  | some _ => .misplaced expected

/-- The ways in which the reading of a term comes to a stop where `rest` is left, when its parts are
read by `term`. -/
inductive Stops (term : List Char → Result) : List Char → SyntaxFault → List Char → Prop where
  /-- The text ends before the term starts. -/
  | ended {s : List Char} : skipBlanks s = [] → Stops term s .incomplete []
  | unexpected {s rest : List Char} :
      SkipsTo (fun head => ∃ c ∈ head, startsTerm c = false) s rest → Stops term s .unexpected rest
  /-- The sign of an abstraction is not followed by a name. -/
  | noName {s s₁ rest : List Char} :
      Leads s .lambda s₁ → SkipsTo (fun head => ∀ c ∈ head, isLower c = false) s₁ rest →
        Stops term s .unnamedBinder rest
  | noPeriod {s s₁ s₂ rest : List Char} {name : String} {cause : SyntaxFault} :
      Leads s .lambda s₁ → Leads s₁ (.sym name) s₂ →
        expect '.' s₂ = .error (.malformed cause rest) → Stops term s cause rest
  | body {s s₁ s₂ s₃ rest : List Char} {name : String} {cause : SyntaxFault} :
      Leads s .lambda s₁ → Leads s₁ (.sym name) s₂ → Leads s₂ .period s₃ →
        term s₃ = .error (.malformed cause rest) → Stops term s cause rest
  | fn {s s₁ rest : List Char} {cause : SyntaxFault} :
      Leads s .opening s₁ → term s₁ = .error (.malformed cause rest) → Stops term s cause rest
  | arg {s s₁ s₂ rest : List Char} {fn : Named Reference} {cause : SyntaxFault} :
      Leads s .opening s₁ → term s₁ = .ok (fn, s₂) → (¬ ∃ tail, Leads s₂ .closing tail) →
        term s₂ = .error (.malformed cause rest) → Stops term s cause rest
  | noClosing {s s₁ s₂ s₃ rest : List Char} {fn arg : Named Reference} {cause : SyntaxFault} :
      Leads s .opening s₁ → term s₁ = .ok (fn, s₂) → term s₂ = .ok (arg, s₃) →
        expect ')' s₃ = .error (.malformed cause rest) → Stops term s cause rest

theorem expect_eq_malformed_iff {expected : Char} {cause : SyntaxFault} {s rest : List Char} :
    expect expected s = .error (.malformed cause rest) ↔
      SkipsTo (fun head => head ≠ some expected ∧ cause = missing expected head) s rest := by
  unfold expect SkipsTo
  cases hs : skipBlanks s with
  | nil =>
    constructor
    · intro h
      cases h
      exact ⟨rfl, by simp, rfl⟩
    · rintro ⟨rfl, _, rfl⟩
      rfl
  | cons c tail =>
    by_cases hc : c = expected
    · subst hc
      constructor
      · intro h
        simp at h
      · rintro ⟨rfl, hne, _⟩
        exact absurd rfl hne
    · simp only [hc, if_false]
      constructor
      · intro h
        cases h
        exact ⟨rfl, by simp [hc], rfl⟩
      · rintro ⟨rfl, _, rfl⟩
        rfl

theorem isEmpty_takeWhile_iff {p : Char → Bool} {s : List Char} :
    (s.takeWhile p).isEmpty = true ↔ ∀ c ∈ s.head?, p c = false := by
  cases s with
  | nil => simp
  | cons c s => cases hc : p c <;> simp [hc]

theorem abstraction_eq_malformed {term : List Char → Result} {s rest : List Char}
    {cause : SyntaxFault} (h : abstraction term s = .error (.malformed cause rest)) :
    (cause = .unnamedBinder ∧ SkipsTo (fun head => ∀ c ∈ head, isLower c = false) s rest) ∨
      ∃ name s₁, Leads s (.sym name) s₁ ∧ (expect '.' s₁ = .error (.malformed cause rest) ∨
        ∃ s₂, Leads s₁ .period s₂ ∧ term s₂ = .error (.malformed cause rest)) := by
  unfold abstraction at h
  simp only at h
  split at h
  · next hname =>
    cases h
    exact .inl ⟨rfl, rfl, isEmpty_takeWhile_iff.1 hname⟩
  · next hname =>
    refine .inr ⟨_, _, Token.leads_sym.2 ⟨isVariable_takeWhile (by simpa using hname),
      String.toList_ofList.symm, rfl⟩, ?_⟩
    rcases Except.bind_eq_error h with hperiod | ⟨s₂, hperiod, h⟩
    · exact .inl hperiod
    · rcases Except.bind_eq_error h with hbody | ⟨_, _, hdone⟩
      · exact .inr ⟨s₂, Token.leads_period.2 (expect_eq_ok_iff.1 hperiod), hbody⟩
      · cases hdone

theorem parenthesis_eq_malformed {term : List Char → Result} {s rest : List Char}
    {cause : SyntaxFault} (h : parenthesis term s = .error (.malformed cause rest)) :
    term s = .error (.malformed cause rest) ∨
      ∃ fn s₁, term s = .ok (fn, s₁) ∧ (¬ ∃ tail, Leads s₁ .closing tail) ∧
        (term (skipBlanks s₁) = .error (.malformed cause rest) ∨
          ∃ arg s₂, term (skipBlanks s₁) = .ok (arg, s₂) ∧
            expect ')' s₂ = .error (.malformed cause rest)) := by
  rcases Except.bind_eq_error h with hfn | ⟨⟨fn, s₁⟩, hfn, h⟩
  · exact .inl hfn
  · refine .inr ⟨fn, s₁, hfn, ?_⟩
    simp only at h
    split at h
    · cases h
    · next hne =>
      refine ⟨fun ⟨tail, hleads⟩ => hne tail (Token.leads_closing.1 hleads), ?_⟩
      rcases Except.bind_eq_error h with harg | ⟨⟨arg, s₂⟩, harg, h⟩
      · exact .inl harg
      · rcases Except.bind_eq_error h with hclosing | ⟨_, _, hdone⟩
        · exact .inr ⟨arg, s₂, harg, hclosing⟩
        · cases hdone

theorem stops_of_term {depth : Nat} {s rest : List Char} {cause : SyntaxFault}
    (h : term (depth + 1) s = .error (.malformed cause rest)) :
    Stops (term depth) s cause rest := by
  unfold term at h
  split at h
  · next hs =>
    cases h
    exact .ended hs
  · next c tail hs =>
    split at h
    · next hlambda =>
      have hleads : Leads s .lambda tail := Token.leads_lambda.2 ⟨c, hlambda, hs⟩
      rcases abstraction_eq_malformed h with
        ⟨rfl, hskips⟩ | ⟨name, s₁, hname, hperiod | ⟨s₂, hperiod, hbody⟩⟩
      · exact .noName hleads hskips
      · exact .noPeriod hleads hname hperiod
      · exact .body hleads hname hperiod hbody
    · next hlambda =>
      split at h
      · next hopen =>
        subst hopen
        have hleads : Leads s .opening tail := Token.leads_opening.2 hs
        rcases parenthesis_eq_malformed h with
          hfn | ⟨fn, s₁, hfn, hne, harg | ⟨arg, s₂, harg, hclosing⟩⟩
        · exact .fn hleads hfn
        · rw [term_skipBlanks] at harg
          exact .arg hleads hfn hne harg
        · rw [term_skipBlanks] at harg
          exact .noClosing hleads hfn harg hclosing
      · next hopen =>
        split at h
        · cases h
        · next hlower =>
          split at h
          · cases h
          · next hupper =>
            cases h
            exact .unexpected
              ⟨hs, c, rfl, by simp [startsTerm, hlambda, hopen, hlower, hupper]⟩

theorem abstraction_of_no_name {term : List Char → Result} {s rest : List Char}
    (h : SkipsTo (fun head => ∀ c ∈ head, isLower c = false) s rest) :
    abstraction term s = .error (.malformed .unnamedBinder rest) := by
  rcases h with ⟨rfl, hhead⟩
  simp only [abstraction, isEmpty_takeWhile_iff.2 hhead, if_true]

theorem abstraction_of_period_error {term : List Char → Result} {s s₁ : List Char} {name : String}
    {refusal : Refusal} (hname : Leads s (.sym name) s₁)
    (hperiod : expect '.' s₁ = .error refusal) :
    abstraction term s = .error refusal := by
  rcases Token.leads_sym.1 hname with ⟨hvariable, htake, hdrop⟩
  have hne : name.toList.isEmpty = false := by
    simp only [isVariable, Bool.and_eq_true, Bool.not_eq_true'] at hvariable
    exact hvariable.1
  simp only [abstraction, htake, hdrop, hne, hperiod, Bool.false_eq_true, if_false]
  rfl

theorem parenthesis_of_closing_error {term : List Char → Result} {s s₁ s₂ : List Char}
    {fn arg : Named Reference} {refusal : Refusal} (hfn : term s = .ok (fn, s₁))
    (hne : ¬ ∃ tail, Leads s₁ .closing tail) (harg : term (skipBlanks s₁) = .ok (arg, s₂))
    (hclosing : expect ')' s₂ = .error refusal) : parenthesis term s = .error refusal := by
  change (term s >>= fun r => _) = _
  rw [hfn]
  simp only [bind, Except.bind]
  split
  · next tail hs => exact absurd ⟨tail, Token.leads_closing.2 hs⟩ hne
  · rw [harg]
    simp only [hclosing]

theorem term_of_stops {depth : Nat} {s rest : List Char} {cause : SyntaxFault}
    (h : Stops (term depth) s cause rest) :
    term (depth + 1) s = .error (.malformed cause rest) := by
  cases h with
  | ended hs => simp [term, hs]
  | unexpected hskips =>
    rcases hskips with ⟨hs, c, hhead, hc⟩
    rcases List.head?_eq_some_iff.1 hhead with ⟨tail, rfl⟩
    simp only [startsTerm, Bool.or_eq_false_iff, beq_eq_false_iff_ne] at hc
    simp [term, hs, hc]
  | noName hlambda hskips =>
    rcases Token.leads_lambda.1 hlambda with ⟨c, hc, hs⟩
    rw [term_lambda hs hc]
    exact abstraction_of_no_name hskips
  | noPeriod hlambda hname hperiod =>
    rcases Token.leads_lambda.1 hlambda with ⟨c, hc, hs⟩
    rw [term_lambda hs hc]
    exact abstraction_of_period_error hname hperiod
  | body hlambda hname hperiod hbody =>
    rcases Token.leads_lambda.1 hlambda with ⟨c, hc, hs⟩
    rw [term_lambda hs hc]
    exact abstraction_of_body_error hname hperiod hbody
  | fn hopening hfn =>
    rw [term_opening (Token.leads_opening.1 hopening)]
    exact parenthesis_of_fn_error hfn
  | arg hopening hfn hne harg =>
    rw [term_opening (Token.leads_opening.1 hopening)]
    exact parenthesis_of_arg_error hfn hne ((term_skipBlanks depth _).trans harg)
  | noClosing hopening hfn harg hclosing =>
    rw [term_opening (Token.leads_opening.1 hopening)]
    refine parenthesis_of_closing_error hfn ?_ ((term_skipBlanks depth _).trans harg) hclosing
    rintro ⟨tail, hleads⟩
    exact (reads_of_term harg).not_leads_closing hleads

theorem expect_haltsLocally (expected : Char) (cause : SyntaxFault) :
    HaltsLocally fun s rest => expect expected s = .error (.malformed cause rest) := by
  intro s c rest h
  refine (SkipsTo.haltsLocally _ _ _ _ (expect_eq_malformed_iff.1 h)).mono ?_
  exact fun s rest => expect_eq_malformed_iff.2

/-- Where no argument can be read, it stays so that none is left out, whatever follows. -/
theorem arg_haltsLocally {term : List Char → Result} {cause : SyntaxFault}
    (h : HaltsLocally fun s rest => term s = .error (.malformed cause rest)) :
    HaltsLocally fun s rest =>
      (¬ ∃ tail, Leads s .closing tail) ∧ term s = .error (.malformed cause rest) := by
  rintro s c rest ⟨hne, hs⟩
  rcases h s c rest hs with ⟨hc, before, rfl, hagain⟩
  refine ⟨hc, before, rfl, fun rest' => ⟨?_, hagain rest'⟩⟩
  rintro ⟨tail, hleads⟩
  have hhead := Text.head?_skipBlanks_append before hc rest rest'
  rw [Token.leads_closing.1 hleads] at hhead
  rcases List.head?_eq_some_iff.1 hhead with ⟨tail', hs'⟩
  exact hne ⟨tail', Token.leads_closing.2 hs'⟩

/-- A term is refused at a character whatever follows that character. -/
theorem term_haltsLocally (depth : Nat) (cause : SyntaxFault) :
    HaltsLocally fun s rest => term depth s = .error (.malformed cause rest) := by
  induction depth with
  | zero =>
    intro s c rest h
    cases h
  | succ depth ih =>
    intro s c rest h
    -- Each way to stop is a chain of tokens and terms, and at its end a way to stop earlier.
    cases stops_of_term h with
    | unexpected hskips =>
      refine (SkipsTo.haltsLocally _ _ _ _ hskips).mono ?_
      exact fun s rest hskips => term_of_stops (.unexpected hskips)
    | noName hlambda hskips =>
      refine ((leads_local .lambda).haltsLocally_comp (SkipsTo.haltsLocally _) _ _ _
        ⟨_, hlambda, hskips⟩).mono ?_
      rintro s rest ⟨s₁, hlambda, hskips⟩
      exact term_of_stops (.noName hlambda hskips)
    | noPeriod hlambda hname hperiod =>
      refine ((leads_local .lambda).haltsLocally_comp ((leads_local _).haltsLocally_comp
        (expect_haltsLocally '.' cause)) _ _ _ ⟨_, hlambda, _, hname, hperiod⟩).mono ?_
      rintro s rest ⟨s₁, hlambda, s₂, hname, hperiod⟩
      exact term_of_stops (.noPeriod hlambda hname hperiod)
    | body hlambda hname hperiod hbody =>
      refine ((leads_local .lambda).haltsLocally_comp ((leads_local _).haltsLocally_comp
        ((leads_local .period).haltsLocally_comp ih)) _ _ _
        ⟨_, hlambda, _, hname, _, hperiod, hbody⟩).mono ?_
      rintro s rest ⟨s₁, hlambda, s₂, hname, s₃, hperiod, hbody⟩
      exact term_of_stops (.body hlambda hname hperiod hbody)
    | fn hopening hfn =>
      refine ((leads_local .opening).haltsLocally_comp ih _ _ _ ⟨_, hopening, hfn⟩).mono ?_
      rintro s rest ⟨s₁, hopening, hfn⟩
      exact term_of_stops (.fn hopening hfn)
    | arg hopening hfn hne harg =>
      refine ((leads_local .opening).haltsLocally_comp ((term_local depth _).haltsLocally_comp
        (arg_haltsLocally ih)) _ _ _ ⟨_, hopening, _, hfn, hne, harg⟩).mono ?_
      rintro s rest ⟨s₁, hopening, s₂, hfn, hne, harg⟩
      exact term_of_stops (.arg hopening hfn hne harg)
    | noClosing hopening hfn harg hclosing =>
      refine ((leads_local .opening).haltsLocally_comp ((term_local depth _).haltsLocally_comp
        ((term_local depth _).haltsLocally_comp (expect_haltsLocally ')' cause))) _ _ _
        ⟨_, hopening, _, hfn, _, harg, hclosing⟩).mono ?_
      rintro s rest ⟨s₁, hopening, s₂, hfn, s₃, harg, hclosing⟩
      exact term_of_stops (.noClosing hopening hfn harg hclosing)

/-- A text is refused because it has no term at its front, or something behind it. -/
theorem whole_eq_malformed_iff {depth : Nat} {s rest : List Char} {cause : SyntaxFault} :
    whole depth s = .error (.malformed cause rest) ↔
      term depth s = .error (.malformed cause rest) ∨ cause = .trailing ∧
        ∃ t s₁, term depth s = .ok (t, s₁) ∧ SkipsTo (fun head => head ≠ none) s₁ rest := by
  unfold whole
  cases hterm : term depth s with
  | error refusal => simp [bind, Except.bind]
  | ok result =>
    rcases result with ⟨t, s₁⟩
    simp only [bind, Except.bind, SkipsTo]
    constructor
    · intro h
      split at h
      · cases h
      · next hne =>
        cases h
        refine .inr ⟨rfl, t, s₁, rfl, rfl, ?_⟩
        simpa using hne
    · rintro (h | ⟨rfl, _, _, h, rfl, hne⟩)
      · cases h
      · cases h
        split
        · next hs => exact absurd (by rw [hs]; rfl) hne
        · rfl

theorem whole_haltsLocally (depth : Nat) (cause : SyntaxFault) :
    HaltsLocally fun s rest => whole depth s = .error (.malformed cause rest) := by
  intro s c rest h
  rcases whole_eq_malformed_iff.1 h with hterm | ⟨rfl, t, s₁, hterm, hskips⟩
  · refine (term_haltsLocally depth cause _ _ _ hterm).mono ?_
    exact fun s rest hterm => whole_eq_malformed_iff.2 (.inl hterm)
  · refine ((term_local depth t).haltsLocally_comp (SkipsTo.haltsLocally _) _ _ _
      ⟨s₁, hterm, hskips⟩).mono ?_
    rintro s rest ⟨s₁, hterm, hskips⟩
    exact whole_eq_malformed_iff.2 (.inr ⟨rfl, t, s₁, hterm, hskips⟩)

end Named.Parser
end Nameless
