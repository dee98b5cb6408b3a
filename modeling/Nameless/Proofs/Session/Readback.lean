import Nameless.Proofs.Numeral
import Nameless.Proofs.Session.Hygiene
import Nameless.Proofs.Session.Notice

/-!
# Reading back what is printed

A session prints the result of an evaluation as a term or, if it is a numeral and numerals are on,
as a number. A term is read back as it is, if its text nests no deeper than texts may. A number is a
name like any other, and numerals are for the names that nothing defines: a number that is defined
is read back as its definition, whatever that is.

Main statements:
- `Session.readTerm_text`, `Session.readTerm_text_of_lt_height`, `Session.readTerm_name`: what texts
  of terms and names are read as,
- `Session.exists_reduceIn?_numeral`, `Session.exists_evaluate_constant`: numerals as results, and
  below one more binder,
- `Session.printed_result_reads_back`: what is read in place of a printed result.
-/

namespace Nameless
namespace Session

variable {s : Session}

/-! ## Reading -/

theorem readTerm_text {t : Named Empty} (ht : t.Lettered) (hheight : t.height ≤ s.limits.parsing) :
    s.readTerm t.text = .ok t := by
  rw [readTerm_of_parse (Named.parse_text_of_height_le ht hheight), Named.expand?_embed,
    Named.embed_self]

theorem readTerm_text_of_lt_height {t : Named Empty} (ht : t.Lettered)
    (hheight : s.limits.parsing < t.height) : s.readTerm t.text = .error .tooDeep :=
  readTerm_of_unparsed (Named.parse_text_of_lt_height ht hheight)

theorem readTerm_name {name : String} (hname : Line.isName name.toList = true)
    (hparsing : 0 < s.limits.parsing) : s.readTerm name = s.fetch name name := by
  have hparse : Named.parse s.limits.parsing name = .ok (.leaf ⟨name⟩) := by
    have hreference := Named.parse_reference hname hparsing
    rwa [String.ofList_toList] at hreference
  rw [readTerm_of_parse hparse]
  rfl

/-- Nothing can be read if texts may not nest at all. -/
theorem parsing_pos_of_readTerm {expr : String} {t : Named Empty} (h : s.readTerm expr = .ok t) :
    0 < s.limits.parsing := by
  rcases readTerm_eq_ok h with ⟨u, hparse, _⟩
  refine Nat.pos_of_ne_zero fun hzero => ?_
  rw [hzero, Named.parse_of_term_tooDeep rfl] at hparse
  cases hparse

/-! ## Evaluating -/

theorem evaluate_of_read {expr : String} {t : Named Empty} (h : s.readTerm expr = .ok t)
    (number : Option Int) (r : Reporter) :
    (s.evaluate expr number r).1 = (s.reduction r.verbose t).result := by
  rcases hreduce : s.reduction r.verbose t with ⟨redexes, failure | u⟩
  · rw [evaluate_of_unreduced h hreduce]
  · rw [evaluate_of_reduced h hreduce]

/-- Evaluating counts and prints nothing if there is nothing to contract. -/
theorem evaluate_of_done {expr : String} {t u : Named Empty} (hread : s.readTerm expr = .ok t)
    {r : Reporter} (hdone : s.reduction r.verbose t = .done u) (number : Option Int) :
    s.evaluate expr number r = (.ok u, r.clear s.path) := by
  rw [evaluate_of_reduced hread hdone]
  refine congrArg (Prod.mk _) ?_
  rw [traced_eq_self (by simp), Notice.contractions_nil]
  change ((r.tell s.path 0 []).during s.path (some ⟨expr, number⟩)).clear s.path = _
  rw [Reporter.tell_nothing]
  exact r.clear_record s.path (some expr) number

theorem exists_read_of_evaluate {expr : String} {number : Option Int} {r : Reporter}
    {u : Named Empty} (h : (s.evaluate expr number r).1 = .ok u) :
    ∃ t redexes, s.readTerm expr = .ok t ∧ s.reduction r.verbose t = ⟨redexes, .ok u⟩ := by
  cases hread : s.readTerm expr with
  | error failure =>
    rw [evaluate_of_unread hread] at h
    cases h
  | ok t =>
    rw [evaluate_of_read hread] at h
    exact ⟨t, _, rfl, Reduction.eq_of_result h⟩

/-! ## Printed results -/

/-- Whatever is read as a result, up to the names of binders, is evaluated to that result. -/
theorem evaluate_of_result {t u w : Named Empty} {verbose : Bool} {redexes : List (Indexed Empty)}
    (h : s.reduction verbose t = ⟨redexes, .ok u⟩) {expr : String} (hread : s.readTerm expr = .ok w)
    (hsame : w.nameless [] = u.nameless []) (number : Option Int) (r : Reporter) :
    s.evaluate expr number r = (.ok u, r.clear s.path) :=
  evaluate_of_done hread (Named.reduceIn?_of_nameless_eq h hsame r.verbose) number

/-- A number that nothing defines is read as its numeral, if it is short enough. -/
theorem readTerm_decimal {n : Nat} (hnumerals : s.numerals = true)
    (hparsing : 0 < s.limits.parsing) (hshort : n < 10 ^ Mishap.maxDigits)
    (hfind : s.definitions.find? (toString n) = none) :
    s.readTerm (toString n) = .ok (Named.numeral n) := by
  rw [readTerm_name (Line.isName_toString n) hparsing, fetch_of_none hfind]
  exact lookup_toString hnumerals hfind hshort _

/-- What is printed of a result as a term is evaluated to that result, without a contraction, if it
nests no deeper than texts may, and else it is too deep. What is printed as a number is read as its
numeral, which is the result up to the names of its binders, and is evaluated to the result as well,
unless the number is defined. Then it is evaluated as its definition, if that can be copied. -/
theorem printed_result_reads_back (hs : s.Reachable) {expr : String} {number : Option Int}
    {r : Reporter} {u : Named Empty} {w : String} (h : (s.evaluate expr number r).1 = .ok u)
    (hw : s.show? u = .ok w) :
    (s.decimal? u = none → w = u.text ∧
      (u.height ≤ s.limits.parsing → ∀ number' r',
        s.evaluate w number' r' = (.ok u, r'.clear s.path)) ∧
      (s.limits.parsing < u.height → ∀ number' r',
        (s.evaluate w number' r').1 = .error .tooDeep)) ∧
      ∀ n, s.decimal? u = some n → w = toString n ∧
        (s.definitions.find? w = none → s.readTerm w = .ok (Named.numeral n) ∧
          (Named.numeral n : Named Empty).alphaEquals? u = .ok true ∧
          ∀ number' r', s.evaluate w number' r' = (.ok u, r'.clear s.path)) ∧
        ∀ d, s.definitions.find? w = some d →
          (d.height ≤ s.limits.copying → ∀ number' r',
            (s.evaluate w number' r').1 = (s.reduction r'.verbose d).result) ∧
          (s.limits.copying < d.height → ∀ number' r',
            (s.evaluate w number' r').1 = .error .tooDeep) := by
  rcases exists_read_of_evaluate h with ⟨t, redexes, hread, hreduce⟩
  have hparsing := parsing_pos_of_readTerm hread
  refine ⟨?_, ?_⟩
  · intro hdecimal
    rcases show?_of_decimal?_eq_none hdecimal hw with ⟨rfl, _⟩
    have hlettered : u.Lettered :=
      Named.lettered_of_reduceIn? (lettered_readTerm hs.wellFormed hread) hreduce
    refine ⟨rfl, fun hheight => ?_, fun hheight number' r' => ?_⟩
    · exact evaluate_of_result hreduce (readTerm_text hlettered hheight) rfl
    · rw [evaluate_of_unread (readTerm_text_of_lt_height hlettered hheight)]
  · intro n hdecimal
    rcases decimal?_eq_some.1 hdecimal with ⟨hnumerals, hn⟩
    rcases show?_of_decimal?_eq_some hdecimal hw with ⟨rfl, hshort⟩
    refine ⟨rfl, fun hfind => ?_, fun d hfind => ⟨fun hheight number' r' => ?_,
      fun hheight number' r' => ?_⟩⟩
    · have hback := readTerm_decimal hnumerals hparsing hshort hfind
      have hsame := Named.nameless_of_numeral? hn
      refine ⟨hback, ?_, evaluate_of_result hreduce hback hsame⟩
      rw [Named.alphaEquals?_eq, hsame]
      simp
    · -- A definition goes before the numeral.
      apply evaluate_of_read
      rw [readTerm_name (Line.isName_toString n) hparsing, fetch_of_height_le hfind hheight]
    · refine congrArg Prod.fst (evaluate_of_unread ?_ number' r')
      rw [readTerm_name (Line.isName_toString n) hparsing, fetch_of_lt_height hfind hheight]

/-- The session with numerals on after one line. -/
def countingAfter (line : String) : Session :=
  (add { numerals := true } line none {}).session

/-- Where three is defined, two is read back and three is not. -/
theorem printed_result_reads_back_two :
    let s := countingAfter "3 = y"
    let two : Named Empty := .abs "a" (.abs "b" (.app (.sym "a") (.app (.sym "a") (.sym "b"))))
    s.Reachable ∧ (s.evaluate "(\\x.x \\s.\\z.(s (s z)))" none {}).1 = .ok two ∧
      s.show? two = .ok "2" ∧ s.evaluate "2" none {} = (.ok two, Reporter.clear {} s.path) ∧
      s.readTerm "2" = .ok (.numeral 2) ∧
      ∃ three, (s.evaluate "\\s.\\z.(s (s (s z)))" none {}).1 = .ok three ∧
        s.show? three = .ok "3" ∧ (s.evaluate "3" none {}).1 = .error (.fault (.unbound "y")) := by
  intro s two
  have hs : s.Reachable := .add _ _ _ (.fresh _ _ _ _)
  have htwo : (s.evaluate "(\\x.x \\s.\\z.(s (s z)))" none {}).1 = .ok two := by decide +kernel
  have htext : s.show? two = .ok "2" := by decide +kernel
  have hnone : s.definitions.find? "2" = none := by decide +kernel
  rcases (printed_result_reads_back hs htwo htext).2 2 (by decide +kernel) with ⟨_, hundefined, _⟩
  rcases hundefined hnone with ⟨hread, _, hback⟩
  let three : Named Empty :=
    .abs "a" (.abs "b" (.app (.sym "a") (.app (.sym "a") (.app (.sym "a") (.sym "b")))))
  have hthree : (s.evaluate "\\s.\\z.(s (s (s z)))" none {}).1 = .ok three := by decide +kernel
  have htext' : s.show? three = .ok "3" := by decide +kernel
  have hsome : s.definitions.find? "3" = some (.sym "y") := by decide +kernel
  rcases (printed_result_reads_back hs hthree htext').2 3 (by decide +kernel) with ⟨_, _, hdefined⟩
  have hthird := (hdefined _ hsome).1 (by decide +kernel) none {}
  exact ⟨hs, htwo, htext, hback none {}, hread, three, hthree, htext', hthird⟩

/-! ## Numerals as results -/

theorem show?_of_numeral? (hnumerals : s.numerals = true) {u : Named Empty} {n : Nat}
    (h : u.numeral? = some n) :
    s.show? u =
      if n < 10 ^ Mishap.maxDigits then .ok (toString n) else .error (.mishap .tooLong) := by
  rw [show?_empty, overrun?_eq, text_eq, decimal?_eq_some.2 ⟨hnumerals, h⟩]
  by_cases hshort : n < 10 ^ Mishap.maxDigits
  · simp only [if_pos hshort]
  · simp only [if_neg hshort]

/-- A numeral is its own result, up to the names of its binders. -/
theorem exists_reduceIn?_numeral {bounds : Bounds} {n : Nat} (hheight : n + 3 ≤ bounds.nesting)
    (allowFree : Bool) :
    ∃ u : Named Empty, u.numeral? = some n ∧
      ∀ traced, (Named.numeral n : Named Empty).reduceIn? bounds traced allowFree = .done u := by
  have hnormal : ((Named.numeral n : Named Empty).nameless []).Normal := by
    rw [Named.nameless_numeral]
    exact Indexed.normal_numeral n
  have hlevels := (Named.height_numeral (ρ := Empty) n).trans_le hheight
  rcases Named.exists_reduceIn?_of_normal (Named.freeNames_numeral n) hnormal hlevels allowFree with
    ⟨u, hu, hdone⟩
  refine ⟨u, ?_, hdone⟩
  rcases Named.reduceIn?_eq_ok (hdone false) with ⟨_, v, _, _, _, hnamed⟩
  rw [Indexed.numeral?_of_toNamed? hnamed, ← Indexed.nameless_toNamed? hnamed, hu,
    Named.nameless_numeral]

/-- A numeral under a binder is its own result, and no numeral. -/
theorem exists_reduceIn?_constant {bounds : Bounds} {n : Nat} (hheight : n + 4 ≤ bounds.nesting)
    (allowFree : Bool) :
    ∃ u : Named Empty, u.numeral? = none ∧ u.height = n + 4 ∧ ∀ traced,
      (Named.abs "y" (.numeral n) : Named Empty).reduceIn? bounds traced allowFree = .done u := by
  let t : Named Empty := .abs "y" (.numeral n)
  have hnameless : t.nameless [] = .lam (Indexed.numeral n) := by
    simp only [t, Named.nameless, Named.nameless_numeral]
  have hclosed : t.freeNames = [] := by simp [t, Named.freeNames, Named.freeNames_numeral]
  have hlevels : t.height = n + 4 := by
    simp only [t, Named.height, Named.height_numeral]
  have hnormal : (t.nameless []).Normal := by
    rw [hnameless]
    exact Indexed.normal_lam.2 (Indexed.normal_numeral n)
  rcases Named.exists_reduceIn?_of_normal hclosed hnormal (hlevels.trans_le hheight) allowFree with
    ⟨u, hu, hdone⟩
  refine ⟨u, ?_, ?_, hdone⟩
  · refine Option.eq_none_iff_forall_ne_some.2 fun m hm => ?_
    have hnumeral := Named.nameless_eq_of_numeral? hm
    rw [hu, hnameless] at hnumeral
    -- There would be three binders on the left, and there are two on the right.
    cases m <;> simp [Indexed.numeral, Indexed.iterate] at hnumeral
  · rw [← Named.height_nameless u [], hu, Named.height_nameless, hlevels]

/-- A number under a binder is evaluated to a numeral under a binder, which is printed as a term. If
that term nests deeper than texts may, then it cannot be read. -/
theorem exists_evaluate_constant {expr : String} {n : Nat} (hnumerals : s.numerals = true)
    (hparse : Named.parse s.limits.parsing expr = .ok (.abs "y" (.leaf ⟨toString n⟩)))
    (hfind : s.definitions.find? (toString n) = none) (hshort : n < 10 ^ Mishap.maxDigits)
    (hnesting : n + 4 ≤ s.limits.nesting) (hprinting : n + 4 ≤ s.limits.printing)
    (hparsing : s.limits.parsing < n + 4) (number : Option Int) (r : Reporter) :
    ∃ u w, (s.evaluate expr number r).1 = .ok u ∧ s.show? u = .ok w ∧
      (s.evaluate w number r).1 = .error .tooDeep := by
  have hread : s.readTerm expr = .ok (.abs "y" (.numeral n)) := by
    rw [readTerm_of_parse hparse]
    simp only [Named.expand?, fetch_of_none hfind, lookup_toString hnumerals hfind hshort]
    rfl
  rcases exists_reduceIn?_constant hnesting s.allowFree with ⟨u, hnumeral, hheight, hdone⟩
  have hbinder : Named.isVariable "y".toList = true := by decide
  have hconstant : (Named.abs "y" (.numeral n) : Named Empty).Lettered :=
    ⟨hbinder, Named.wellNamed_numeral n⟩
  have hlettered : u.Lettered := Named.lettered_of_reduceIn? hconstant (hdone false)
  have hdecimal : s.decimal? u = none := by
    unfold decimal?
    rw [hnumeral, ite_self]
  have hshow : s.show? u = .ok u.text := by
    rw [show?_empty, overrun?_eq, text_eq, hdecimal]
    simp only [hheight, if_pos hprinting]
  refine ⟨u, u.text, ?_, hshow, ?_⟩
  · rw [evaluate_of_done hread (hdone r.verbose)]
  · rw [evaluate_of_unread (readTerm_text_of_lt_height hlettered (hparsing.trans_eq hheight.symm))]

/-- Where one is defined as the identity, the numeral of one is printed as a number that is then
evaluated to the identity. And a numeral below one more binder is printed as a term, which may be
too deep to be read. -/
theorem printed_result_not_read_back :
    let s := countingAfter "1 = \\x.x"
    let one : Named Empty := .abs "a" (.abs "b" (.app (.sym "a") (.sym "b")))
    s.Reachable ∧ (s.evaluate "\\f.\\x.(f x)" none {}).1 = .ok one ∧ s.show? one = .ok "1" ∧
      (s.evaluate "1" none {}).1 = .ok (.abs "a" (.sym "a")) ∧
      (∃ u w, (s.evaluate "\\y.7000" none {}).1 = .ok u ∧ s.show? u = .ok w ∧
        (s.evaluate w none {}).1 = .error .tooDeep) ∧
      ¬ ∀ (s : Session) expr number r u w, s.Reachable → (s.evaluate expr number r).1 = .ok u →
        s.show? u = .ok w → (s.evaluate w number r).1 = .ok u := by
  intro s one
  have hs : s.Reachable := .add _ _ _ (.fresh _ _ _ _)
  have hone : (s.evaluate "\\f.\\x.(f x)" none {}).1 = .ok one := by decide +kernel
  have htext : s.show? one = .ok "1" := by decide +kernel
  have hread : (s.evaluate "1" none {}).1 = .ok (.abs "a" (.sym "a")) := by decide +kernel
  refine ⟨hs, hone, htext, hread, ?_, ?_⟩
  · exact exists_evaluate_constant (n := 7000) rfl (by decide +kernel) (by decide +kernel)
      (by decide +kernel) (by decide) (by decide) (by decide) none {}
  · intro hall
    have hback := hall s _ none {} one "1" hs hone htext
    rw [hread] at hback
    exact absurd hback (by decide)

end Session
end Nameless
