import Nameless.Proofs.Named.Token

/-!
# The grammar of terms

A term is written as one of five sequences of tokens: an abstraction, an application of one term to
another, a term in parentheses, a variable, or a reference. Reading a text accepts just what is
written so. It works on characters and decides by the first of them, so the two are brought together
by a relation between characters and terms that has one rule for each rule of the grammar.

This file defines:
- `Named.Derives`: the grammar, on sequences of tokens,
- `Named.Grammatical`: the texts whose tokens are a term,
- `Named.Reads`: a text with a term at its front, and what is left after it,
- `Named.Parser.Takes`: the same for one term, when its parts are read by a given reader.

Main statements:
- `Named.Reads.derives`, `Named.Derives.reads`: the relation is the grammar,
- `Named.Parser.reads_of_term`, `Named.Parser.term_of_reads`: reading follows the relation,
- `Named.Parser.term_ne_tooDeep`: a text shorter than the depth is not nested too deep.
-/

namespace Nameless
namespace Named

open Text (isBlank skipBlanks)
open Token (Leads Scans)

/-! ## Grammar -/

/-- The sequences of tokens that are terms, and the terms that they are. -/
inductive Derives : List Token → Named Reference → Prop where
  | abstraction (name : String) {tokens : List Token} {body : Named Reference} :
      Derives tokens body → Derives (.lambda :: .sym name :: .period :: tokens) (abs name body)
  | application {left right : List Token} {fn arg : Named Reference} :
      Derives left fn → Derives right arg →
        Derives (.opening :: (left ++ (right ++ [.closing]))) (app fn arg)
  /-- Parentheses around one term only group it. -/
  | group {tokens : List Token} {t : Named Reference} :
      Derives tokens t → Derives (.opening :: (tokens ++ [.closing])) t
  | symbol (name : String) : Derives [.sym name] (sym name)
  | reference (name : String) : Derives [.ref name] (leaf ⟨name⟩)

/-- The tokens of the text are the given term. -/
def Grammatical (text : String) (t : Named Reference) : Prop :=
  ∃ tokens, Scans text.toList tokens ∧ Derives tokens t

/-- The text has a term at its front, with `rest` behind it. -/
inductive Reads : List Char → Named Reference → List Char → Prop where
  | abstraction {s s₁ s₂ s₃ rest : List Char} {name : String} {body : Named Reference} :
      Leads s .lambda s₁ → Leads s₁ (.sym name) s₂ → Leads s₂ .period s₃ → Reads s₃ body rest →
        Reads s (abs name body) rest
  | application {s s₁ s₂ s₃ rest : List Char} {fn arg : Named Reference} :
      Leads s .opening s₁ → Reads s₁ fn s₂ → Reads s₂ arg s₃ → Leads s₃ .closing rest →
        Reads s (app fn arg) rest
  | group {s s₁ s₂ rest : List Char} {t : Named Reference} :
      Leads s .opening s₁ → Reads s₁ t s₂ → Leads s₂ .closing rest → Reads s t rest
  | symbol {s rest : List Char} {name : String} :
      Leads s (.sym name) rest → Reads s (sym name) rest
  | reference {s rest : List Char} {name : String} :
      Leads s (.ref name) rest → Reads s (leaf ⟨name⟩) rest

namespace Reads

theorem length_lt {s rest : List Char} {t : Named Reference} (h : Reads s t rest) :
    rest.length < s.length := by
  induction h with
  | abstraction hlambda hname hperiod _ ih =>
    have hlt₁ := hlambda.length_lt
    have hlt₂ := hname.length_lt
    have hlt₃ := hperiod.length_lt
    omega
  | application hopening _ _ hclosing ihf iha =>
    have hlt₁ := hopening.length_lt
    have hlt₂ := hclosing.length_lt
    omega
  | group hopening _ hclosing ih =>
    have hlt₁ := hopening.length_lt
    have hlt₂ := hclosing.length_lt
    omega
  | symbol hname => exact hname.length_lt
  | reference hname => exact hname.length_lt

/-- No term starts with a closing parenthesis. -/
theorem not_leads_closing {s rest rest' : List Char} {t : Named Reference} (h : Reads s t rest) :
    ¬ Leads s .closing rest' := by
  intro hclosing
  cases h with
  | abstraction hlambda _ _ _ => cases (hlambda.unique hclosing).1
  | application hopening _ _ _ => cases (hopening.unique hclosing).1
  | group hopening _ _ => cases (hopening.unique hclosing).1
  | symbol hname => cases (hname.unique hclosing).1
  | reference hname => cases (hname.unique hclosing).1

/-- Blanks may be put in front. -/
theorem blank {s rest : List Char} {t : Named Reference} (h : Reads s t rest) {c : Char}
    (hc : isBlank c = true) : Reads (c :: s) t rest := by
  cases h with
  | abstraction hlambda hname hperiod hbody =>
    exact .abstraction (hlambda.blank hc) hname hperiod hbody
  | application hopening hfn harg hclosing =>
    exact .application (hopening.blank hc) hfn harg hclosing
  | group hopening ht hclosing => exact .group (hopening.blank hc) ht hclosing
  | symbol hname => exact .symbol (hname.blank hc)
  | reference hname => exact .reference (hname.blank hc)

/-- What is passed over is the tokens of the term. -/
theorem derives {s rest : List Char} {t : Named Reference} (h : Reads s t rest) :
    ∃ tokens, Derives tokens t ∧ ∀ more, Scans rest more → Scans s (tokens ++ more) := by
  induction h with
  | abstraction hlambda hname hperiod _ ih =>
    rcases ih with ⟨tokens, hbody, hscans⟩
    refine ⟨_, .abstraction _ hbody, ?_⟩
    intro more hmore
    exact .token hlambda (.token hname (.token hperiod (hscans more hmore)))
  | application hopening _ _ hclosing ihf iha =>
    rcases ihf with ⟨left, hfn, hleft⟩
    rcases iha with ⟨right, harg, hright⟩
    refine ⟨_, .application hfn harg, ?_⟩
    intro more hmore
    have hrest := hleft _ (hright _ (.token hclosing hmore))
    simpa using Scans.token hopening hrest
  | group hopening _ hclosing ih =>
    rcases ih with ⟨tokens, ht, hscans⟩
    refine ⟨_, .group ht, ?_⟩
    intro more hmore
    have hrest := hscans _ (.token hclosing hmore)
    simpa using Scans.token hopening hrest
  | symbol hname => exact ⟨_, .symbol _, fun more hmore => .token hname hmore⟩
  | reference hname => exact ⟨_, .reference _, fun more hmore => .token hname hmore⟩

end Reads

/-- Tokens that are a term are read as that term, whatever tokens follow. -/
theorem Derives.reads {tokens : List Token} {t : Named Reference} (h : Derives tokens t)
    {s : List Char} {more : List Token} (hs : Scans s (tokens ++ more)) :
    ∃ rest, Reads s t rest ∧ Scans rest more := by
  induction h generalizing s more with
  | abstraction name _ ih =>
    cases hs with
    | token hlambda hs =>
      cases hs with
      | token hname hs =>
        cases hs with
        | token hperiod hs =>
          rcases ih hs with ⟨rest, hbody, hmore⟩
          exact ⟨rest, .abstraction hlambda hname hperiod hbody, hmore⟩
  | application _ _ ihf iha =>
    cases hs with
    | token hopening hs =>
      simp only [List.append_eq, List.append_assoc] at hs
      rcases ihf hs with ⟨s₂, hfn, hs⟩
      rcases iha hs with ⟨s₃, harg, hs⟩
      cases hs with
      | token hclosing hmore => exact ⟨_, .application hopening hfn harg hclosing, hmore⟩
  | group _ ih =>
    cases hs with
    | token hopening hs =>
      simp only [List.append_eq, List.append_assoc] at hs
      rcases ih hs with ⟨s₂, ht, hs⟩
      cases hs with
      | token hclosing hmore => exact ⟨_, .group hopening ht hclosing, hmore⟩
  | symbol name =>
    cases hs with
    | token hname hmore => exact ⟨_, .symbol hname, hmore⟩
  | reference name =>
    cases hs with
    | token hname hmore => exact ⟨_, .reference hname, hmore⟩

theorem grammatical_iff_reads {text : String} {t : Named Reference} :
    Grammatical text t ↔ ∃ rest, Reads text.toList t rest ∧ skipBlanks rest = [] := by
  constructor
  · rintro ⟨tokens, hscans, ht⟩
    rw [← List.append_nil tokens] at hscans
    rcases ht.reads hscans with ⟨rest, hreads, hrest⟩
    exact ⟨rest, hreads, Token.scans_nil_iff.1 hrest⟩
  · rintro ⟨rest, hreads, hrest⟩
    rcases hreads.derives with ⟨tokens, ht, hscans⟩
    refine ⟨tokens, ?_, ht⟩
    simpa using hscans [] (Token.scans_nil_iff.2 hrest)

/-! ## Reading -/

namespace Parser

theorem expect_eq_ok_iff {c : Char} {s rest : List Char} :
    expect c s = .ok rest ↔ skipBlanks s = c :: rest := by
  unfold expect
  cases hs : skipBlanks s with
  | nil => simp
  | cons d tail =>
    by_cases hd : d = c
    · simp [hd]
    · simp [hd]

theorem term_skipBlanks (depth : Nat) (s : List Char) :
    term depth (skipBlanks s) = term depth s := by
  cases depth with
  | zero => rfl
  | succ depth => rw [term, term, Text.skipBlanks_skipBlanks]

theorem term_lambda {s tail : List Char} {c : Char} (hs : skipBlanks s = c :: tail)
    (hc : isLambda c = true) (depth : Nat) :
    term (depth + 1) s = abstraction (term depth) tail := by
  simp [term, hs, hc]

theorem term_opening {s tail : List Char} (hs : skipBlanks s = '(' :: tail) (depth : Nat) :
    term (depth + 1) s = parenthesis (term depth) tail := by
  rw [term, hs]
  rfl

theorem term_sym {s rest : List Char} {name : String} (h : Leads s (.sym name) rest)
    (depth : Nat) : term (depth + 1) s = .ok (sym name, rest) := by
  rcases Token.leads_sym.1 h with ⟨hname, htake, rfl⟩
  rcases Token.exists_cons_of_takeWhile hname htake with ⟨c, tail, hs, hc⟩
  have hopen : c ≠ '(' := by
    rintro rfl
    cases hc
  rw [hs] at htake
  simp only [term, hs, isLambda_of_class rfl rfl hc, hopen, hc, htake, Bool.false_eq_true, if_false,
    if_true, String.ofList_toList]

theorem term_ref {s rest : List Char} {name : String} (h : Leads s (.ref name) rest)
    (depth : Nat) : term (depth + 1) s = .ok (leaf ⟨name⟩, rest) := by
  rcases Token.leads_ref.1 h with ⟨hname, htake, rfl⟩
  rcases Token.exists_cons_of_takeWhile hname htake with ⟨c, tail, hs, hc⟩
  have hopen : c ≠ '(' := by
    rintro rfl
    cases hc
  rw [hs] at htake
  simp only [term, hs, isLambda_of_class rfl rfl hc, isLower_of_isUpperOrDigit hc, hopen, hc,
    htake, Bool.false_eq_true, if_false, if_true, String.ofList_toList]

/-- One term at the front of a text, with `rest` behind it, whose parts are read by `term`. -/
inductive Takes (term : List Char → Result) :
    List Char → Named Reference → List Char → Prop where
  | abstraction {s s₁ s₂ s₃ rest : List Char} {name : String} {body : Named Reference} :
      Leads s .lambda s₁ → Leads s₁ (.sym name) s₂ → Leads s₂ .period s₃ →
        term s₃ = .ok (body, rest) → Takes term s (abs name body) rest
  | application {s s₁ s₂ s₃ rest : List Char} {fn arg : Named Reference} :
      Leads s .opening s₁ → term s₁ = .ok (fn, s₂) → term s₂ = .ok (arg, s₃) →
        Leads s₃ .closing rest → Takes term s (app fn arg) rest
  | group {s s₁ s₂ rest : List Char} {t : Named Reference} :
      Leads s .opening s₁ → term s₁ = .ok (t, s₂) → Leads s₂ .closing rest → Takes term s t rest
  | symbol {s rest : List Char} {name : String} :
      Leads s (.sym name) rest → Takes term s (sym name) rest
  | reference {s rest : List Char} {name : String} :
      Leads s (.ref name) rest → Takes term s (leaf ⟨name⟩) rest

theorem takes_of_term {depth : Nat} {s rest : List Char} {t : Named Reference}
    (h : term (depth + 1) s = .ok (t, rest)) : Takes (term depth) s t rest := by
  -- One case for each kind of term, as its first character tells.
  unfold term at h
  split at h
  · cases h
  · next c tail hs =>
    split at h
    · next hlambda =>
      rcases abstraction_eq_ok h with ⟨name, body, s₃, hname, htake, hperiod, hbody, rfl⟩
      exact .abstraction (Token.leads_lambda.2 ⟨c, hlambda, hs⟩)
        (Token.leads_sym.2 ⟨hname, htake, rfl⟩)
        (Token.leads_period.2 (expect_eq_ok_iff.1 hperiod)) hbody
    · split at h
      · next hopen =>
        subst hopen
        have hopening : Leads s .opening tail := Token.leads_opening.2 hs
        rcases parenthesis_eq_ok h with
          ⟨fn, s₂, hfn, ⟨hclosing, rfl⟩ | ⟨arg, s₃, harg, hclosing, rfl⟩⟩
        · exact .group hopening hfn (Token.leads_closing.2 hclosing)
        · rw [term_skipBlanks] at harg
          exact .application hopening hfn harg
            (Token.leads_closing.2 (expect_eq_ok_iff.1 hclosing))
      · split at h
        · next hlower =>
          cases h
          refine .symbol (Token.leads_sym.2 ⟨isVariable_takeWhile (by simp [hlower]), ?_, ?_⟩)
          · rw [hs, String.toList_ofList]
          · rw [hs]
        · split at h
          · next hupper =>
            cases h
            refine .reference (Token.leads_ref.2 ⟨by simp [Line.isName, hupper], ?_, ?_⟩)
            · rw [hs, String.toList_ofList]
            · rw [hs]
          · cases h

theorem reads_of_term {depth : Nat} {s rest : List Char} {t : Named Reference}
    (h : term depth s = .ok (t, rest)) : Reads s t rest := by
  induction depth generalizing s t rest with
  | zero => cases h
  | succ depth ih =>
    cases takes_of_term h with
    | abstraction hlambda hname hperiod hbody => exact .abstraction hlambda hname hperiod (ih hbody)
    | application hopening hfn harg hclosing =>
      exact .application hopening (ih hfn) (ih harg) hclosing
    | group hopening ht hclosing => exact .group hopening (ih ht) hclosing
    | symbol hname => exact .symbol hname
    | reference hname => exact .reference hname

theorem abstraction_of_leads {term : List Char → Result} {s s₁ s₂ rest : List Char} {name : String}
    {body : Named Reference} (hname : Leads s (.sym name) s₁) (hperiod : Leads s₁ .period s₂)
    (hbody : term s₂ = .ok (body, rest)) : abstraction term s = .ok (abs name body, rest) := by
  rcases Token.leads_sym.1 hname with ⟨hvariable, htake, hdrop⟩
  have hne : name.toList.isEmpty = false := by
    simp only [isVariable, Bool.and_eq_true, Bool.not_eq_true'] at hvariable
    exact hvariable.1
  have hexpect : expect '.' s₁ = .ok s₂ := expect_eq_ok_iff.2 (Token.leads_period.1 hperiod)
  simp only [abstraction, htake, hdrop, hne, hexpect, Bool.false_eq_true, if_false,
    String.ofList_toList]
  change (term s₂ >>= fun r => _) = _
  rw [hbody]
  rfl

theorem parenthesis_of_group {term : List Char → Result} {s s₁ rest : List Char}
    {t : Named Reference} (ht : term s = .ok (t, s₁)) (hclosing : Leads s₁ .closing rest) :
    parenthesis term s = .ok (t, rest) := by
  change (term s >>= fun r => _) = _
  rw [ht]
  simp only [bind, Except.bind, Token.leads_closing.1 hclosing]
  rfl

theorem parenthesis_of_application {term : List Char → Result} {s s₁ s₂ rest : List Char}
    {fn arg : Named Reference} (hfn : term s = .ok (fn, s₁))
    (hne : ¬ ∃ tail, Leads s₁ .closing tail) (harg : term (skipBlanks s₁) = .ok (arg, s₂))
    (hclosing : Leads s₂ .closing rest) : parenthesis term s = .ok (app fn arg, rest) := by
  have hexpect : expect ')' s₂ = .ok rest := expect_eq_ok_iff.2 (Token.leads_closing.1 hclosing)
  change (term s >>= fun r => _) = _
  rw [hfn]
  simp only [bind, Except.bind]
  split
  · next tail hs => exact absurd ⟨tail, Token.leads_closing.2 hs⟩ hne
  · rw [harg]
    simp only [hexpect]
    rfl

theorem term_of_reads {s rest : List Char} {t : Named Reference} (h : Reads s t rest) {depth : Nat}
    (hdepth : s.length < depth) : term depth s = .ok (t, rest) := by
  -- Each part of a term stands in a shorter text, so the depth that is left suffices for it.
  induction h generalizing depth with
  | abstraction hlambda hname hperiod _ ih =>
    have hlt₁ := hlambda.length_lt
    have hlt₂ := hname.length_lt
    have hlt₃ := hperiod.length_lt
    rcases Token.leads_lambda.1 hlambda with ⟨c, hc, hs⟩
    rcases Nat.exists_eq_add_of_lt hdepth with ⟨more, rfl⟩
    rw [term_lambda hs hc]
    exact abstraction_of_leads hname hperiod (ih (by omega))
  | application hopening hfn harg hclosing ihf iha =>
    have hlt₁ := hopening.length_lt
    have hlt₂ := hfn.length_lt
    rcases Nat.exists_eq_add_of_lt hdepth with ⟨more, rfl⟩
    rw [term_opening (Token.leads_opening.1 hopening)]
    refine parenthesis_of_application (ihf (by omega)) ?_ ?_ hclosing
    · rintro ⟨tail, hleads⟩
      exact harg.not_leads_closing hleads
    · rw [term_skipBlanks]
      exact iha (by omega)
  | group hopening _ hclosing ih =>
    have hlt₁ := hopening.length_lt
    rcases Nat.exists_eq_add_of_lt hdepth with ⟨more, rfl⟩
    rw [term_opening (Token.leads_opening.1 hopening)]
    exact parenthesis_of_group (ih (by omega)) hclosing
  | symbol hname =>
    rcases Nat.exists_eq_add_of_lt hdepth with ⟨more, rfl⟩
    exact term_sym hname _
  | reference hname =>
    rcases Nat.exists_eq_add_of_lt hdepth with ⟨more, rfl⟩
    exact term_ref hname _

/-! ## Too much nesting -/

theorem expect_ne_tooDeep (c : Char) (s : List Char) : expect c s ≠ .error .tooDeep := by
  unfold expect
  split
  · simp
  · split <;> simp

/-- What is left behind the name and the period of an abstraction is shorter. -/
theorem length_lt_of_period {s s' : List Char}
    (h : expect '.' ((skipBlanks s).dropWhile isLower) = .ok s') : s'.length < s.length := by
  have hlt := (Token.leads_period.2 (expect_eq_ok_iff.1 h)).length_lt
  have hname := (List.dropWhile_sublist (l := skipBlanks s) isLower).length_le
  have hblanks := Text.length_skipBlanks_le s
  omega

theorem abstraction_eq_tooDeep {term : List Char → Result} {s : List Char}
    (h : abstraction term s = .error .tooDeep) :
    ∃ s', s'.length < s.length ∧ term s' = .error .tooDeep := by
  unfold abstraction at h
  simp only at h
  split at h
  · cases h
  · rcases Except.bind_eq_error h with hperiod | ⟨s', hperiod, h⟩
    · exact absurd hperiod (expect_ne_tooDeep _ _)
    · rcases Except.bind_eq_error h with hbody | ⟨_, _, hdone⟩
      · exact ⟨s', length_lt_of_period hperiod, hbody⟩
      · cases hdone

theorem parenthesis_eq_tooDeep {term : List Char → Result} {s : List Char}
    (h : parenthesis term s = .error .tooDeep) :
    term s = .error .tooDeep ∨
      ∃ fn rest, term s = .ok (fn, rest) ∧ term (skipBlanks rest) = .error .tooDeep := by
  rcases Except.bind_eq_error h with hfn | ⟨⟨fn, rest⟩, hfn, h⟩
  · exact .inl hfn
  · refine .inr ⟨fn, rest, hfn, ?_⟩
    simp only at h
    split at h
    · cases h
    · rcases Except.bind_eq_error h with harg | ⟨_, _, h⟩
      · exact harg
      · rcases Except.bind_eq_error h with hclosing | ⟨_, _, hdone⟩
        · exact absurd hclosing (expect_ne_tooDeep _ _)
        · cases hdone

theorem term_ne_tooDeep {depth : Nat} {s : List Char} (hdepth : s.length < depth) :
    term depth s ≠ .error .tooDeep := by
  induction depth generalizing s with
  | zero => omega
  | succ depth ih =>
    intro h
    have hblanks := Text.length_skipBlanks_le s
    unfold term at h
    split at h
    · cases h
    · next c tail hs =>
      rw [hs, List.length_cons] at hblanks
      split at h
      · rcases abstraction_eq_tooDeep h with ⟨s', hlt, hbody⟩
        exact ih (by omega) hbody
      · split at h
        · rcases parenthesis_eq_tooDeep h with hfn | ⟨fn, rest, hfn, harg⟩
          · exact ih (by omega) hfn
          · have hlt := (reads_of_term hfn).length_lt
            rw [term_skipBlanks] at harg
            exact ih (by omega) harg
        · split at h
          · cases h
          · split at h <;> cases h

theorem whole_eq_ok_iff {depth : Nat} {s : List Char} {t : Named Reference} :
    whole depth s = .ok t ↔ ∃ rest, term depth s = .ok (t, rest) ∧ skipBlanks rest = [] := by
  constructor
  · intro h
    rcases Except.bind_eq_ok h with ⟨⟨u, rest⟩, hterm, h⟩
    simp only at h
    split at h
    · next hrest =>
      cases h
      exact ⟨rest, hterm, hrest⟩
    · cases h
  · rintro ⟨rest, hterm, hrest⟩
    unfold whole
    rw [hterm]
    simp only [bind, Except.bind, hrest]
    rfl

theorem whole_ne_tooDeep {depth : Nat} {s : List Char} (hdepth : s.length < depth) :
    whole depth s ≠ .error .tooDeep := by
  intro h
  rcases Except.bind_eq_error h with hterm | ⟨⟨t, rest⟩, _, h⟩
  · exact term_ne_tooDeep hdepth hterm
  · simp only at h
    split at h <;> cases h

end Parser

/-! ## Whole texts -/

theorem parse_eq_ok_iff {depth : Nat} {text : String} {t : Named Reference} :
    parse depth text = .ok t ↔ Parser.whole depth text.toList = .ok t := by
  unfold parse
  cases Parser.whole depth text.toList with
  | ok u => simp
  | error refusal => simp

theorem grammatical_of_parse {depth : Nat} {text : String} {t : Named Reference}
    (h : parse depth text = .ok t) : Grammatical text t := by
  rcases Parser.whole_eq_ok_iff.1 (parse_eq_ok_iff.1 h) with ⟨rest, hterm, hrest⟩
  exact grammatical_iff_reads.2 ⟨rest, Parser.reads_of_term hterm, hrest⟩

theorem parse_of_grammatical {depth : Nat} {text : String} {t : Named Reference}
    (h : Grammatical text t) (hdepth : text.length < depth) : parse depth text = .ok t := by
  rcases grammatical_iff_reads.1 h with ⟨rest, hreads, hrest⟩
  have hterm := Parser.term_of_reads hreads (String.length_toList ▸ hdepth)
  exact parse_eq_ok_iff.2 (Parser.whole_eq_ok_iff.2 ⟨rest, hterm, hrest⟩)

/-- A text that is not read is malformed, unless it is nested deeper than reading goes. -/
theorem malformed_of_parse {depth : Nat} {text : String} {failure : Failure}
    (h : parse depth text = .error failure) :
    (failure = .tooDeep ∧ depth ≤ text.length) ∨
      ∃ cause offset, failure = .fault (.malformed text cause offset) := by
  unfold parse at h
  split at h
  · cases h
  · next refusal hwhole =>
    cases h
    cases refusal with
    | malformed cause rest => exact .inr ⟨cause, _, rfl⟩
    | tooDeep =>
      refine .inl ⟨rfl, ?_⟩
      by_contra hdepth
      rw [Nat.not_le, ← String.length_toList] at hdepth
      exact Parser.whole_ne_tooDeep hdepth hwhole

/-- Reading accepts what the grammar derives from the tokens of a text, and nothing else: there is
one sequence of tokens and one term at most, and any other text is reported as a fault of syntax. A
depth beyond the length of the text is never too small. -/
theorem parse_accepts_exactly_grammar (text : String) :
    (∀ tokens tokens', Scans text.toList tokens → Scans text.toList tokens' → tokens = tokens') ∧
      (∀ t u, Grammatical text t → Grammatical text u → t = u) ∧
      (∀ depth, text.length < depth →
        (∀ t, parse depth text = .ok t ↔ Grammatical text t) ∧
          ((¬ ∃ t, Grammatical text t) → ∃ fault, parse depth text = .error (.fault fault) ∧
            fault.report.category = .invalidSyntax)) ∧
      ∀ depth, (∀ t, parse depth text = .ok t → Grammatical text t) ∧
        ∀ failure, parse depth text = .error failure →
          failure = .tooDeep ∨ ∃ fault, failure = .fault fault ∧
            fault.report.category = .invalidSyntax := by
  refine ⟨fun _ _ h h' => h.unique h', ?_, ?_, ?_⟩
  · intro t u ht hu
    have hparse := parse_of_grammatical ht (Nat.lt_succ_self _)
    rw [parse_of_grammatical hu (Nat.lt_succ_self _)] at hparse
    exact (Except.ok.inj hparse).symm
  · intro depth hdepth
    refine ⟨fun t => ⟨grammatical_of_parse, fun ht => parse_of_grammatical ht hdepth⟩, ?_⟩
    intro hnone
    cases hparse : parse depth text with
    | ok t => exact absurd ⟨t, grammatical_of_parse hparse⟩ hnone
    | error failure =>
      rcases malformed_of_parse hparse with ⟨_, hle⟩ | ⟨cause, offset, rfl⟩
      · omega
      · exact ⟨_, rfl, rfl⟩
  · intro depth
    refine ⟨fun t => grammatical_of_parse, ?_⟩
    intro failure hparse
    rcases malformed_of_parse hparse with ⟨rfl, _⟩ | ⟨cause, offset, rfl⟩
    · exact .inl rfl
    · exact .inr ⟨_, rfl, rfl⟩

/-- `(\\x.((F2)x)yz)`, where tokens touch and parentheses only group, and `x y`, which lacks the
parentheses of an application. -/
theorem parse_accepts_exactly_grammar_touching :
    let t : Named Reference := app (abs "x" (app (leaf ⟨"F2"⟩) (sym "x"))) (sym "yz")
    parse 20 "(\\x.((F2)x)yz)" = .ok t ∧ Grammatical "(\\x.((F2)x)yz)" t ∧
      (¬ ∃ u, Grammatical "x y" u) ∧
      ∃ fault, parse 20 "x y" = .error (.fault fault) ∧ fault.report.category = .invalidSyntax := by
  intro t
  have hparse : parse 20 "(\\x.((F2)x)yz)" = .ok t := by decide +kernel
  have hgrammar := (parse_accepts_exactly_grammar "(\\x.((F2)x)yz)").2.2.1 20 (by decide +kernel)
  have hnot := (parse_accepts_exactly_grammar "x y").2.2.1 20 (by decide +kernel)
  have hnone : ¬ ∃ u, Grammatical "x y" u := by
    rintro ⟨u, hu⟩
    have hfail : (parse 20 "x y").toOption = none := by decide +kernel
    rw [(hnot.1 u).2 hu] at hfail
    cases hfail
  exact ⟨hparse, (hgrammar.1 t).1 hparse, hnone, hnot.2 hnone⟩

end Named
end Nameless
