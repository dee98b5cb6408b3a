import Nameless.Proofs.Named.Place
import Nameless.Proofs.Session.Failures

/-!
# Unknown references

Resolving a term that was read from a text fails at the first reference from the left that is
unknown or an overlong numeral. What is blamed for an unknown reference is its place in the text.
The place is not kept in the term but looked for in the text, and found because the first unknown
reference is the first one by its name.

This file defines:
- `Token.reference?`: the reference that a token is,
- `Session.FirstUnknown`: the first unknown reference of a text.

Main statements:
- `Named.exists_places_of_parse`: the references of a term stand in its text in the same order,
- `Session.lookup_eq_ok_iff`: which references stand for something,
- `Session.resolve_eq_error_iff`: where resolving fails,
- `Session.resolve_blames_first_unknown`: which place is blamed, and when.
-/

namespace Nameless

open Token (Placed Places)

/-! ## References in a text -/

/-- The reference that a token is. -/
def Token.reference? : Token → Option Reference
  | .ref name => some ⟨name⟩
  | _ => none

/-- The reference that stands at a place. -/
def Token.Placed.reference? (p : Placed) : Option Reference :=
  p.token.reference?

theorem Token.Placed.reference?_eq_some_iff {p : Placed} {name : String} :
    p.reference? = some ⟨name⟩ ↔ p.token = .ref name := by
  unfold reference?
  cases p.token <;> simp [Token.reference?]

namespace Named

/-- The leaves of a term are the references among its tokens. -/
theorem Derives.leaves_eq {tokens : List Token} {t : Named Reference} (h : Derives tokens t) :
    t.leaves = tokens.filterMap Token.reference? := by
  induction h with
  | abstraction name _ ih => exact ih
  | application _ _ ihf iha =>
    rw [List.filterMap_cons_none rfl, List.filterMap_append, List.filterMap_append, ← ihf, ← iha]
    simp [leaves, Token.reference?]
  | group _ ih =>
    rw [List.filterMap_cons_none rfl, List.filterMap_append, ← ih]
    simp [Token.reference?]
  | symbol name => rfl
  | reference name => rfl

theorem exists_places_of_parse {depth : Nat} {text : String} {t : Named Reference}
    (h : parse depth text = .ok t) : ∃ placed, Places 0 text.toList placed ∧
      t.leaves = placed.filterMap Placed.reference? := by
  rcases grammatical_of_parse h with ⟨tokens, hscans, hderives⟩
  rcases hscans.exists_places 0 with ⟨placed, hplaces, rfl⟩
  refine ⟨placed, hplaces, ?_⟩
  rw [hderives.leaves_eq, List.filterMap_map]
  rfl

end Named

/-- What stands at the place of a reference can be the name of a definition. -/
theorem Token.Places.isName {offset : Nat} {s : List Char} {placed : List Placed}
    (h : Places offset s placed) {p : Placed} (hp : p ∈ placed) {name : String}
    (htoken : p.token = .ref name) : Line.isName name.toList = true := by
  rcases h.exists_cut hp with ⟨_, written, _, _, _, _, hwritten, _, _⟩
  rw [htoken] at hwritten
  rcases hwritten with ⟨rfl, hname⟩
  exact hname

/-! ## What references stand for -/

namespace Session

theorem lookup_of_unknown {s : Session} {name : String} (hname : Line.isName name.toList = true)
    (h : s.Unknown name) (expr : String) :
    s.lookup expr name = .error (undefinedIn expr name) := by
  rcases h with ⟨hfind, hnumeral⟩
  have hdigits : ¬ (s.numerals && Text.isDigits name.toList) = true := by
    rw [Bool.and_eq_true, Line.isDigits_iff hname]
    exact hnumeral
  unfold lookup
  rw [hfind]
  exact if_neg hdigits

/-- A reference stands for something unless it is unknown or an overlong numeral. -/
theorem lookup_eq_ok_iff {s : Session} {expr name : String}
    (hname : Line.isName name.toList = true) :
    (∃ d, s.lookup expr name = .ok d) ↔ ¬ s.Unknown name ∧ ¬ s.Overlong name := by
  constructor
  · rintro ⟨d, hd⟩
    constructor
    · intro hunknown
      rw [lookup_of_unknown hname hunknown] at hd
      cases hd
    · intro hlong
      rw [lookup_of_overlong hlong] at hd
      cases hd
  · rintro ⟨hknown, hshort⟩
    cases hlookup : s.lookup expr name with
    | ok d => exact ⟨d, rfl⟩
    | error failure =>
      rcases lookup_eq_error hname hlookup with ⟨hlong, _⟩ | ⟨hunknown, _⟩
      · exact absurd hlong hshort
      · exact absurd hunknown hknown

/-! ## Where resolving fails -/

/-- Resolving fails as the first reference of the text that does not stand for anything. -/
theorem resolve_eq_error_iff {s : Session} {expr : String} {t : Named Reference}
    {placed : List Placed} (hleaves : t.leaves = placed.filterMap Placed.reference?)
    {failure : Failure} :
    s.resolve expr t = .error failure ↔
      ∃ earlier p later name, placed = earlier ++ p :: later ∧ p.token = .ref name ∧
        (∀ q ∈ earlier, ∀ other, q.token = .ref other → ∃ d, s.lookup expr other = .ok d) ∧
        s.lookup expr name = .error failure := by
  constructor
  · intro h
    rcases Named.expand?_eq_error_iff.1 h with ⟨before, r, after, hcut, hbefore, hr⟩
    rw [hleaves] at hcut
    rcases List.filterMap_eq_append_iff.1 hcut with ⟨front, back, rfl, rfl, hback⟩
    rcases List.filterMap_eq_cons_iff.1 hback with ⟨skipped, p, later, rfl, hskipped, hp, rfl⟩
    refine ⟨front ++ skipped, p, later, r.name, by simp, Placed.reference?_eq_some_iff.1 hp, ?_, hr⟩
    intro q hq other hother
    have hsome : q.reference? = some ⟨other⟩ := Placed.reference?_eq_some_iff.2 hother
    rcases List.mem_append.1 hq with hfront | hmiddle
    · exact hbefore ⟨other⟩ (List.mem_filterMap.2 ⟨q, hfront, hsome⟩)
    · rw [hskipped q hmiddle] at hsome
      cases hsome
  · rintro ⟨earlier, p, later, name, rfl, htoken, hearlier, hname⟩
    have hsome : p.reference? = some ⟨name⟩ := Placed.reference?_eq_some_iff.2 htoken
    refine Named.expand?_of_first
      (hleaves.trans (by rw [List.filterMap_append, List.filterMap_cons_some hsome])) ?_ hname
    intro r hr
    rcases List.mem_filterMap.1 hr with ⟨q, hq, href⟩
    exact hearlier q hq r.name (Placed.reference?_eq_some_iff.1 href)

/-- The place is that of the first unknown reference of a text, with the given places before it. -/
structure FirstUnknown (s : Session) (earlier : List Placed) (p : Placed) (name : String) :
    Prop where
  token_eq : p.token = .ref name
  unknown : s.Unknown name
  earlier_known : ∀ q ∈ earlier, ∀ other, q.token = .ref other → ¬ s.Unknown other

/-- The first reference by a name is found where it stands. -/
theorem span?_of_places {expr : String} {placed earlier later : List Placed} {p : Placed}
    {name : String} (hplaces : Places 0 expr.toList placed) (hcut : placed = earlier ++ p :: later)
    (htoken : p.token = .ref name) (hearlier : ∀ q ∈ earlier, q.token ≠ .ref name) :
    Line.span? name.toList expr.toList = .ok (some (p.start, p.stop)) := by
  have hp : p ∈ placed := by simp [hcut]
  have hname := hplaces.isName hp htoken
  have hfind : placed.find? (fun q => decide (q.token = .ref name)) = some p := by
    rw [hcut, List.find?_append, List.find?_eq_none.2, List.find?_cons_of_pos]
    · rfl
    · simp [htoken]
    · intro q hq
      simp [hearlier q hq]
  rw [Line.span?_of_isName hname, Line.occurrence?_of_places hname hplaces, hfind,
    (hplaces.delimits hp htoken).stop_eq, String.length_toList]
  rfl

theorem lookup_of_firstUnknown {s : Session} {expr : String} {placed earlier later : List Placed}
    {p : Placed} {name : String} (hplaces : Places 0 expr.toList placed)
    (hcut : placed = earlier ++ p :: later) (hfirst : s.FirstUnknown earlier p name) :
    s.lookup expr name = .error (.fault (.undefined expr name p.start p.stop)) := by
  have hearlier : ∀ q ∈ earlier, q.token ≠ .ref name :=
    fun q hq hsame => hfirst.earlier_known q hq name hsame hfirst.unknown
  have hname := hplaces.isName (by simp [hcut]) hfirst.token_eq
  rw [lookup_of_unknown hname hfirst.unknown, undefinedIn,
    span?_of_places hplaces hcut hfirst.token_eq hearlier]

/-- Resolving fails with a fault just if an unknown reference comes before all overlong numerals,
and blames the place of the first one. -/
theorem resolve_eq_fault_iff {s : Session} {expr : String} {t : Named Reference}
    {placed : List Placed} (hplaces : Places 0 expr.toList placed)
    (hleaves : t.leaves = placed.filterMap Placed.reference?) {fault : Fault} :
    s.resolve expr t = .error (.fault fault) ↔
      ∃ earlier p later name, placed = earlier ++ p :: later ∧ s.FirstUnknown earlier p name ∧
        (∀ q ∈ earlier, ∀ other, q.token = .ref other → ¬ s.Overlong other) ∧
        fault = .undefined expr name p.start p.stop := by
  rw [resolve_eq_error_iff hleaves]
  constructor
  · rintro ⟨earlier, p, later, name, hcut, htoken, hearlier, hlookup⟩
    have hname := hplaces.isName (by simp [hcut]) htoken
    have hknown : ∀ q ∈ earlier, ∀ other, q.token = .ref other →
        ¬ s.Unknown other ∧ ¬ s.Overlong other := by
      intro q hq other hother
      have hother' := hplaces.isName (by simp [hcut, hq]) hother
      exact (lookup_eq_ok_iff hother').1 (hearlier q hq other hother)
    rcases lookup_eq_error hname hlookup with ⟨_, hmishap⟩ | ⟨hunknown, _⟩
    · cases hmishap
    · have hfirst : s.FirstUnknown earlier p name :=
        ⟨htoken, hunknown, fun q hq other hother => (hknown q hq other hother).1⟩
      rw [lookup_of_firstUnknown hplaces hcut hfirst] at hlookup
      cases hlookup
      exact ⟨earlier, p, later, name, hcut, hfirst,
        fun q hq other hother => (hknown q hq other hother).2, rfl⟩
  · rintro ⟨earlier, p, later, name, hcut, hfirst, hshort, rfl⟩
    refine ⟨earlier, p, later, name, hcut, hfirst.token_eq, ?_,
      lookup_of_firstUnknown hplaces hcut hfirst⟩
    intro q hq other hother
    have hname := hplaces.isName (by simp [hcut, hq]) hother
    exact (lookup_eq_ok_iff hname).2
      ⟨hfirst.earlier_known q hq other hother, hshort q hq other hother⟩

/-- A name that stands in a text as a reference is found at the place of one. -/
theorem exists_span? {expr : String} {placed : List Placed} (hplaces : Places 0 expr.toList placed)
    {p : Placed} (hp : p ∈ placed) {name : String} (htoken : p.token = .ref name) :
    ∃ q ∈ placed, q.token = .ref name ∧
      Line.span? name.toList expr.toList = .ok (some (q.start, q.stop)) := by
  have hsome : (placed.find? fun q => decide (q.token = .ref name)).isSome = true :=
    List.find?_isSome.2 ⟨p, hp, by simp [htoken]⟩
  rcases Option.isSome_iff_exists.1 hsome with ⟨q, hq⟩
  rcases List.find?_eq_some_iff_append.1 hq with ⟨hmatch, earlier, later, hcut, hearlier⟩
  have hsame : q.token = .ref name := of_decide_eq_true hmatch
  refine ⟨q, by simp [hcut], hsame, span?_of_places hplaces hcut hsame ?_⟩
  intro r hr
  simpa using hearlier r hr

/-- Resolving a term that was read from a text fails with a fault just if there is an unknown
reference in the text with no overlong numeral before it. The fault blames the first unknown
reference at its place, and all references of the text can be found there. -/
theorem resolve_blames_first_unknown (s : Session) {depth : Nat} {expr : String}
    {t : Named Reference} (h : Named.parse depth expr = .ok t) :
    ∃ placed, (∀ other, Places 0 expr.toList other ↔ other = placed) ∧
      (∀ fault, s.resolve expr t = .error (.fault fault) →
        fault.report.category = .unknownDefinition ∧
        ∃ earlier p later name, placed = earlier ++ p :: later ∧ s.FirstUnknown earlier p name ∧
          p.Delimits expr.toList name ∧ fault = .undefined expr name p.start p.stop) ∧
      ((∃ fault, s.resolve expr t = .error (.fault fault)) ↔
        ∃ earlier p later name, placed = earlier ++ p :: later ∧ s.FirstUnknown earlier p name ∧
          ∀ q ∈ earlier, ∀ other, q.token = .ref other → ¬ s.Overlong other) ∧
      ∀ p ∈ placed, ∀ name, p.token = .ref name → ∃ q ∈ placed, q.token = .ref name ∧
        Line.span? name.toList expr.toList = .ok (some (q.start, q.stop)) := by
  rcases Named.exists_places_of_parse h with ⟨placed, hplaces, hleaves⟩
  refine ⟨placed, ?_, ?_, ?_, ?_⟩
  · intro other
    constructor
    · intro hother
      exact hother.unique hplaces
    · rintro rfl
      exact hplaces
  · intro fault hfault
    rcases (resolve_eq_fault_iff hplaces hleaves).1 hfault with
      ⟨earlier, p, later, name, hcut, hfirst, _, rfl⟩
    have hdelimits := hplaces.delimits (by simp [hcut]) hfirst.token_eq
    exact ⟨rfl, earlier, p, later, name, hcut, hfirst, hdelimits, rfl⟩
  · constructor
    · rintro ⟨fault, hfault⟩
      rcases (resolve_eq_fault_iff hplaces hleaves).1 hfault with
        ⟨earlier, p, later, name, hcut, hfirst, hshort, _⟩
      exact ⟨earlier, p, later, name, hcut, hfirst, hshort⟩
    · rintro ⟨earlier, p, later, name, hcut, hfirst, hshort⟩
      exact ⟨_, (resolve_eq_fault_iff hplaces hleaves).2
        ⟨earlier, p, later, name, hcut, hfirst, hshort, rfl⟩⟩
  · intro p hp name htoken
    exact exists_span? hplaces hp htoken

/-- The name also stands inside a longer one, and again after the place that is blamed. -/
theorem resolve_blames_first_unknown_inside_name :
    let s : Session := { numerals := true, definitions := [("AB", .abs "x" (.sym "x"))] }
    let expr := "(AB (1(A A)))"
    let t : Named Reference :=
      .app (.leaf ⟨"AB"⟩) (.app (.leaf ⟨"1"⟩) (.app (.leaf ⟨"A"⟩) (.leaf ⟨"A"⟩)))
    Named.parse 4 expr = .ok t ∧
      s.resolve expr t = .error (.fault (.undefined expr "A" 7 8)) ∧
      ∃ placed earlier p later, Places 0 expr.toList placed ∧ placed = earlier ++ p :: later ∧
        s.FirstUnknown earlier p "A" ∧ p.Delimits expr.toList "A" ∧ p.start = 7 ∧ p.stop = 8 := by
  intro s expr t
  have hparse : Named.parse 4 expr = .ok t := by decide +kernel
  have hresolve : s.resolve expr t = .error (.fault (.undefined expr "A" 7 8)) := by decide +kernel
  rcases resolve_blames_first_unknown s hparse with ⟨placed, hplaces, hblames, _, _⟩
  rcases hblames _ hresolve with ⟨_, earlier, p, later, name, hcut, hfirst, hdelimits, heq⟩
  rcases Fault.undefined.inj heq with ⟨_, rfl, hstart, hstop⟩
  exact ⟨hparse, hresolve, placed, earlier, p, later, (hplaces placed).2 rfl, hcut, hfirst,
    hdelimits, hstart.symm, hstop.symm⟩

end Session
end Nameless
