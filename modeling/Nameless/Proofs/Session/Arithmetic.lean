import Nameless.Proofs.Session.Readback

/-!
# Arithmetic in a session

The arithmetic of numerals is left to programs. A session that holds the usual definitions of the
successor, the sum and the product, and no definitions of numbers, computes with decimals: whatever
is written with these three operations is read as a term without references, this term leads to the
numeral of the value, and that is what reduction finds. The only thing that can get in the way is a
bound that is too low. The session prints the value, unless it is too long: numbers are printed with
no more digits than they are read with.

This file defines:
- `Decimal`: numbers as they are written in a session,
- `Calculation`: what is written with decimals and the three operations, with its text and its
  value,
- `Session.Calculates`: sessions that hold the three operations,
- `Session.Evaluates`: what an expression is evaluated to, if the bounds suffice,
- `Session.Yields`: expressions whose value is a number, and what is printed for them.

Main statements:
- `Calculation.reads`, `Session.resolve_calculation`: what a calculation is read as,
- `Calculation.betas`: where contractions lead it,
- `Session.yields_calculation`: its value is the number that is computed,
- `Session.church_arithmetic_exact`: the three operations on decimals,
- `Session.successor_of_longest_not_printed`: a value that is too long to be printed.
-/

namespace Nameless

/-! ## Operations -/

namespace Named

variable {ρ : Type}

/-- The number after a number. -/
def successor : Named ρ :=
  abs "n" (abs "f" (abs "x" (app (sym "f") (app (app (sym "n") (sym "f")) (sym "x")))))

/-- The sum of two numbers. -/
def sum : Named ρ :=
  abs "m" (abs "n" (abs "f" (abs "x"
    (app (app (sym "m") (sym "f")) (app (app (sym "n") (sym "f")) (sym "x"))))))

/-- The product of two numbers. -/
def product : Named ρ :=
  abs "m" (abs "n" (abs "f" (app (sym "m") (app (sym "n") (sym "f")))))

theorem expand?_app {σ ε : Type} {f : ρ → Except ε (Named σ)} {fn arg : Named ρ} {t u : Named σ}
    (hfn : fn.expand? f = .ok t) (harg : arg.expand? f = .ok u) :
    (app fn arg).expand? f = .ok (app t u) := by
  rw [expand?, hfn, harg]
  rfl

end Named

/-! ## Decimals -/

/-- A number as it is written: digits, of which the first ones may be zeros, and no more of them
than are read. -/
structure Decimal where
  digits : List Char
  ne_nil : digits ≠ []
  isDigit : ∀ c ∈ digits, c.isDigit = true
  length_le : digits.length ≤ Mishap.maxDigits

namespace Decimal

def text (d : Decimal) : String :=
  String.ofList d.digits

def value (d : Decimal) : Nat :=
  Nat.ofDigitChars 10 d.digits 0

@[simp] theorem toList_text (d : Decimal) : d.text.toList = d.digits :=
  String.toList_ofList

theorem isDigits (d : Decimal) : Text.isDigits d.text.toList = true := by
  rw [toList_text]
  exact Text.isDigits_of_isDigit d.ne_nil d.isDigit

theorem isName (d : Decimal) : Line.isName d.text.toList = true := by
  rw [toList_text]
  exact Line.isName_of_isDigit d.ne_nil d.isDigit

theorem number? (d : Decimal) : Session.number? d.text.toList = .ok d.value := by
  rw [toList_text]
  exact Session.number?_of_short d.isDigit (Nat.not_lt.2 d.length_le)

end Decimal

/-! ## Calculations -/

/-- What is written with decimals and the three operations. -/
inductive Calculation where
  | decimal (d : Decimal)
  | successor (e : Calculation)
  | sum (d e : Calculation)
  | product (d e : Calculation)

namespace Calculation

/-- The number that is computed. -/
def value : Calculation → Nat
  | decimal d => d.value
  | successor e => e.value + 1
  | sum d e => d.value + e.value
  | product d e => d.value * e.value

/-- A calculation as it is written. -/
def text : Calculation → String
  | decimal d => d.text
  | successor e => "(SUCC " ++ e.text ++ ")"
  | sum d e => "((PLUS " ++ d.text ++ ") " ++ e.text ++ ")"
  | product d e => "((MUL " ++ d.text ++ ") " ++ e.text ++ ")"

/-- The term that is written, in which operations and decimals are references. -/
def term : Calculation → Named Reference
  | decimal d => .leaf ⟨d.text⟩
  | successor e => .app (.leaf ⟨"SUCC"⟩) e.term
  | sum d e => .app (.app (.leaf ⟨"PLUS"⟩) d.term) e.term
  | product d e => .app (.app (.leaf ⟨"MUL"⟩) d.term) e.term

/-- The term with what its references stand for. -/
def resolved : Calculation → Named Empty
  | decimal d => .numeral d.value
  | successor e => .app .successor e.resolved
  | sum d e => .app (.app .sum d.resolved) e.resolved
  | product d e => .app (.app .product d.resolved) e.resolved

theorem freeNames_resolved (e : Calculation) : e.resolved.freeNames = [] := by
  induction e with
  | decimal d => exact Named.freeNames_numeral d.value
  | successor e ih => simp [resolved, Named.freeNames, ih, Named.successor]
  | sum d e ihd ihe => simp [resolved, Named.freeNames, ihd, ihe, Named.sum]
  | product d e ihd ihe => simp [resolved, Named.freeNames, ihd, ihe, Named.product]

/-- Contractions lead to the numeral of the value. -/
theorem betas (e : Calculation) :
    Relation.ReflTransGen Indexed.Beta (e.resolved.nameless []) (.numeral e.value) := by
  -- The operands are made numerals first. Reduction goes another way, which does not matter here.
  induction e with
  | decimal d =>
    rw [resolved, Named.nameless_numeral]
    exact .refl
  | successor e ih =>
    have hoperand := Indexed.betas_app (.refl (a := Indexed.successor)) ih
    exact hoperand.trans (Indexed.betas_successor e.value)
  | sum d e ihd ihe =>
    have hoperands := Indexed.betas_app (Indexed.betas_app (.refl (a := Indexed.sum)) ihd) ihe
    exact hoperands.trans (Indexed.betas_sum d.value e.value)
  | product d e ihd ihe =>
    have hoperands := Indexed.betas_app (Indexed.betas_app (.refl (a := Indexed.product)) ihd) ihe
    exact hoperands.trans (Indexed.betas_product d.value e.value)

/-! ### Reading -/

open Named (Reads)

theorem reads_name {name : String} (hname : Line.isName name.toList = true) {rest : List Char}
    (hrest : ∀ c ∈ rest.head?, isUpperOrDigit c = false) :
    Reads (name.toList ++ rest) (.leaf ⟨name⟩) rest :=
  .reference (.of_writtenAs ⟨rfl, hname⟩ hrest)

theorem reads_application {s s₁ rest : List Char} {fn arg : Named Reference}
    (hfn : Reads s fn (' ' :: s₁)) (harg : Reads s₁ arg (')' :: rest)) :
    Reads ('(' :: s) (.app fn arg) rest :=
  .application (Token.leads_opening.2 rfl) hfn (harg.blank rfl) (Token.leads_closing.2 rfl)

theorem reads (e : Calculation) {rest : List Char}
    (hrest : ∀ c ∈ rest.head?, isUpperOrDigit c = false) :
    Reads (e.text.toList ++ rest) e.term rest := by
  -- Names and decimals end where a blank or a parenthesis stands behind them.
  have hblank (s : List Char) : ∀ c ∈ (' ' :: s).head?, isUpperOrDigit c = false := by
    simp [isUpperOrDigit]
  have hclosing (s : List Char) : ∀ c ∈ (')' :: s).head?, isUpperOrDigit c = false := by
    simp [isUpperOrDigit]
  induction e generalizing rest with
  | decimal d =>
    exact reads_name d.isName hrest
  | successor e ih =>
    have hname : Line.isName "SUCC".toList = true := rfl
    have hreads := reads_application (reads_name hname (hblank _)) (ih (hclosing rest))
    simpa [text, term] using hreads
  | sum d e ihd ihe =>
    have hname : Line.isName "PLUS".toList = true := rfl
    have hreads := reads_application (reads_application (reads_name hname (hblank _))
      (ihd (hclosing _))) (ihe (hclosing rest))
    simpa [text, term] using hreads
  | product d e ihd ihe =>
    have hname : Line.isName "MUL".toList = true := rfl
    have hreads := reads_application (reads_application (reads_name hname (hblank _))
      (ihd (hclosing _))) (ihe (hclosing rest))
    simpa [text, term] using hreads

theorem grammatical (e : Calculation) : Named.Grammatical e.text e.term := by
  have hreads : Reads (e.text.toList ++ []) e.term [] := e.reads (by simp)
  rw [List.append_nil] at hreads
  exact Named.grammatical_iff_reads.2 ⟨[], hreads, rfl⟩

end Calculation

namespace Session

/-! ## Calculating -/

/-- The session holds the three operations under their names, and numbers are numerals in it. -/
structure Calculates (s : Session) : Prop where
  numerals : s.numerals = true
  successor : s.definitions.find? "SUCC" = some .successor
  sum : s.definitions.find? "PLUS" = some .sum
  product : s.definitions.find? "MUL" = some .product
  /-- No number is defined to be something else. -/
  no_digits : ∀ name ∈ s.definitions.names, Text.isDigits name.toList = false

/-- Bounds that are large enough let the session evaluate an expression to the given term, and no
bounds let it come to anything else. -/
def Evaluates (s : Session) (expr : String) (u : Named Empty) : Prop :=
  (∃ enough : Bounds, ∀ bounds, enough ≤ bounds → ∀ number r,
    (evaluate { s with limits := bounds } expr number r).1 = .ok u) ∧
    ∀ bounds number r, (evaluate { s with limits := bounds } expr number r).1 = .ok u ∨
      (evaluate { s with limits := bounds } expr number r).1 = .error .tooDeep

/-- The value of an expression is a number. Whatever the bounds are, it is printed in decimal if it
has no more digits than a number may have, and otherwise printing fails. -/
def Yields (s : Session) (expr : String) (n : Nat) : Prop :=
  ∃ u, s.Evaluates expr u ∧ u.numeral? = some n ∧ ∀ bounds,
    show? { s with limits := bounds } u =
      if n < 10 ^ Mishap.maxDigits then .ok (toString n) else .error (.mishap .tooLong)

variable {s : Session}

theorem Evaluates.unique {expr : String} {u v : Named Empty} (hu : s.Evaluates expr u)
    (hv : s.Evaluates expr v) : u = v := by
  rcases hu with ⟨⟨enough, hu⟩, _⟩
  have hok := hu enough (Bounds.le_refl enough) none {}
  rcases hv.2 enough none {} with hv | hdeep
  · rw [hok] at hv
    exact Except.ok.inj hv
  · rw [hok] at hdeep
    cases hdeep

theorem find?_decimal (hs : s.Calculates) (d : Decimal) : s.definitions.find? d.text = none := by
  apply Definitions.find?_eq_none
  intro hmem
  have hdigits := hs.no_digits _ hmem
  rw [d.isDigits] at hdigits
  cases hdigits

theorem lookup_decimal (hs : s.Calculates) (d : Decimal) (expr : String) :
    s.lookup expr d.text = .ok (.numeral d.value) :=
  lookup_of_number? hs.numerals (find?_decimal hs d) d.isDigits d.number? expr

theorem resolve_calculation (hs : s.Calculates) (e : Calculation) (expr : String) :
    s.resolve expr e.term = .ok e.resolved := by
  induction e with
  | decimal d => exact lookup_decimal hs d expr
  | successor e ih =>
    exact Named.expand?_app (lookup_of_find? hs.successor expr) ih
  | sum d e ihd ihe =>
    exact Named.expand?_app (Named.expand?_app (lookup_of_find? hs.sum expr) ihd) ihe
  | product d e ihd ihe =>
    exact Named.expand?_app (Named.expand?_app (lookup_of_find? hs.product expr) ihd) ihe

/-- No definition that a calculation refers to is higher than the sum. -/
theorem height_of_find? (hs : s.Calculates) {e : Calculation} {r : Reference}
    (hr : r ∈ e.term.leaves) {d : Named Empty} (hd : s.definitions.find? r.name = some d) :
    d.height ≤ 8 := by
  have hname {name : String} {operation : Named Empty} (hfound : s.definitions.find? name =
      some operation) (hheight : operation.height ≤ 8) (heq : r = ⟨name⟩) : d.height ≤ 8 := by
    subst heq
    rw [hfound] at hd
    exact Option.some.inj hd ▸ hheight
  induction e with
  | decimal n =>
    rcases List.mem_singleton.1 hr with rfl
    rw [find?_decimal hs n] at hd
    cases hd
  | successor e ih =>
    rcases List.mem_cons.1 hr with heq | hr
    · exact hname hs.successor (by decide) heq
    · exact ih hr
  | sum m n ihm ihn =>
    rcases List.mem_cons.1 hr with heq | hr
    · exact hname hs.sum (by decide) heq
    · exact (List.mem_append.1 hr).elim ihm ihn
  | product m n ihm ihn =>
    rcases List.mem_cons.1 hr with heq | hr
    · exact hname hs.product (by decide) heq
    · exact (List.mem_append.1 hr).elim ihm ihn

/-- Within bounds that suffice for its text and for the operations, a calculation is read as the
term that it is. -/
theorem readTerm_calculation (hs : s.Calculates) (e : Calculation) :
    s.readTerm e.text = .ok e.resolved ∨ s.readTerm e.text = .error .tooDeep ∧
      (s.limits.parsing ≤ e.text.length ∨ s.limits.copying < 8) := by
  have hresolve := resolve_calculation hs e e.text
  rcases Named.parse_of_grammatical_or_tooDeep e.grammatical s.limits.parsing with hparse | hparse
  · rw [readTerm_of_parse hparse]
    rcases expand?_fetch hresolve with hfetch | ⟨hdeep, r, hr, d, hd, hheight⟩
    · exact .inl hfetch
    · exact .inr ⟨hdeep, .inr (hheight.trans_le (height_of_find? hs hr hd))⟩
  · refine .inr ⟨readTerm_of_unparsed hparse, .inl (Nat.le_of_not_lt fun hparsing => ?_)⟩
    rw [Named.parse_of_grammatical e.grammatical hparsing] at hparse
    cases hparse

theorem Calculates.withLimits (hs : s.Calculates) (bounds : Bounds) :
    Calculates { s with limits := bounds } where
  numerals := hs.numerals
  successor := hs.successor
  sum := hs.sum
  product := hs.product
  no_digits := hs.no_digits

theorem reduce?_calculation (e : Calculation) (allowFree : Bool) :
    ∃ u, u.numeral? = some e.value ∧
      Reduction.ComesTo (fun limits => e.resolved.reduce? limits allowFree) u := by
  -- The numeral is normal, so reduction finds it if any contractions lead to it.
  rcases Indexed.exists_nf_of_betas e.betas (Indexed.normal_numeral e.value) with ⟨limits, hnf⟩
  rcases Indexed.exists_toNamed?_numeral e.value with ⟨u, hu, hnumeral⟩
  have hindexed := Named.toIndexed?_of_closed e.freeNames_resolved allowFree
  exact ⟨u, hnumeral, Named.reduce?_comesTo hindexed hnf hu⟩

theorem evaluates_calculation (hs : s.Calculates) (e : Calculation) :
    ∃ u, u.numeral? = some e.value ∧ s.Evaluates e.text u := by
  rcases reduce?_calculation e s.allowFree with ⟨u, hu, hcomes⟩
  rcases Named.reduceIn?_of_comesTo hcomes with ⟨⟨enough, hresult⟩, hother⟩
  refine ⟨u, hu, ?_, ?_⟩
  · refine ⟨⟨⟨enough, enough⟩, e.text.length + 1, 8, enough, 0⟩, ?_⟩
    rintro bounds ⟨hnesting, hcontractions, hparsing, hcopying, htracing, _⟩ number r
    have hread : readTerm { s with limits := bounds } e.text = .ok e.resolved := by
      rcases readTerm_calculation (hs.withLimits bounds) e with hread | ⟨_, hlow | hlow⟩
      · exact hread
      · exact absurd hparsing (Nat.not_le.2 (Nat.lt_succ_of_le hlow))
      · exact absurd hcopying (Nat.not_le.2 hlow)
    rw [evaluate_of_read hread]
    exact hresult bounds r.verbose hcontractions hnesting fun _ => htracing
  · intro bounds number r
    rcases readTerm_calculation (hs.withLimits bounds) e with hread | ⟨hread, _⟩
    · rw [evaluate_of_read hread]
      exact hother bounds r.verbose
    · rw [evaluate_of_unread hread]
      exact .inr rfl

/-- The value of what is written with the three operations is the number that is computed. -/
theorem yields_calculation (hs : s.Calculates) (e : Calculation) : s.Yields e.text e.value := by
  rcases evaluates_calculation hs e with ⟨u, hnumeral, hevaluates⟩
  exact ⟨u, hevaluates, hnumeral, fun bounds =>
    show?_of_numeral? (hs.withLimits bounds).numerals hnumeral⟩

/-- Arithmetic on decimals is exact. In a session with numerals that holds the three operations and
no definitions of numbers, the successor of a decimal, the sum of two and their product are
evaluated to the numerals of the number after the one, of the sum and of the product of the two, and
evaluation ends with this unless a bound is too low. The values are printed in decimal unless they
have more digits than a number may have. -/
theorem church_arithmetic_exact (hs : s.Calculates) (m n : Decimal) :
    s.Yields ("(SUCC " ++ n.text ++ ")") (n.value + 1) ∧
      s.Yields ("((PLUS " ++ m.text ++ ") " ++ n.text ++ ")") (m.value + n.value) ∧
      s.Yields ("((MUL " ++ m.text ++ ") " ++ n.text ++ ")") (m.value * n.value) :=
  ⟨yields_calculation hs (.successor (.decimal n)),
    yields_calculation hs (.sum (.decimal m) (.decimal n)),
    yields_calculation hs (.product (.decimal m) (.decimal n))⟩

/-- A session with the three operations and numerals. -/
def calculator : Session where
  numerals := true
  definitions := [("SUCC", .successor), ("PLUS", .sum), ("MUL", .product)]

/-- The program of the three operations. -/
def operations : String :=
  "SUCC = \\n.\\f.\\x.(f ((n f) x))\n" ++ "PLUS = \\m.\\n.\\f.\\x.((m f) ((n f) x))\n" ++
    "MUL = \\m.\\n.\\f.(m (n f))"

/-- Three is written with two zeros in front. -/
theorem church_arithmetic_exact_leading_zeros :
    (load { numerals := true } operations.toList {}).session.definitions = calculator.definitions ∧
      calculator.Calculates ∧ calculator.Yields "(SUCC 003)" 4 ∧
      calculator.Yields "((PLUS 12) 003)" 15 ∧ calculator.Yields "((MUL 12) 003)" 36 ∧
      ∃ u, (calculator.evaluate "((MUL 12) 003)" none {}).1 = .ok u ∧
        calculator.show? u = .ok "36" := by
  let twelve : Decimal := ⟨['1', '2'], by simp, List.all_eq_true.1 rfl, by decide +kernel⟩
  let three : Decimal := ⟨['0', '0', '3'], by simp, List.all_eq_true.1 rfl, by decide +kernel⟩
  have hs : calculator.Calculates := ⟨rfl, rfl, rfl, rfl, by decide +kernel⟩
  have htwelve : twelve.text = "12" ∧ twelve.value = 12 := by decide +kernel
  have hthree : three.text = "003" ∧ three.value = 3 := by decide +kernel
  have hexact := church_arithmetic_exact hs twelve three
  rw [htwelve.1, htwelve.2, hthree.1, hthree.2] at hexact
  rcases hexact with ⟨hsuccessor, hsum, hproduct⟩
  refine ⟨by decide +kernel, hs, hsuccessor, hsum, hproduct, ?_⟩
  rcases hproduct with ⟨u, ⟨_, hresult⟩, _, hshow⟩
  have hended : (calculator.evaluate "((MUL 12) 003)" none {}).1 ≠ .error .tooDeep := by
    decide +kernel
  have hshort : 12 * 3 < 10 ^ Mishap.maxDigits := by decide +kernel
  refine ⟨u, (hresult calculator.limits none {}).resolve_right hended, ?_⟩
  exact (hshow calculator.limits).trans (if_pos hshort)

/-! ## The longest decimals -/

theorem ofDigitChars_nines (k acc : Nat) :
    Nat.ofDigitChars 10 (List.replicate k '9') acc + 1 = (acc + 1) * 10 ^ k := by
  induction k generalizing acc with
  | zero => simp [Nat.ofDigitChars]
  | succ k ih =>
    have hnine : 10 * acc + ('9'.toNat - '0'.toNat) + 1 = (acc + 1) * 10 := by
      have hdigit : '9'.toNat - '0'.toNat = 9 := rfl
      omega
    rw [List.replicate_succ, Nat.ofDigitChars_cons, ih, hnine, Nat.pow_succ]
    ring

/-- The greatest number with as many digits as are read. -/
def nines : Decimal where
  digits := List.replicate Mishap.maxDigits '9'
  ne_nil := by
    rw [ne_eq, List.replicate_eq_nil_iff]
    decide
  isDigit := by
    intro c hc
    rw [List.eq_of_mem_replicate hc]
    decide
  length_le := by simp

theorem value_nines : nines.value + 1 = 10 ^ Mishap.maxDigits := by
  have hvalue := ofDigitChars_nines Mishap.maxDigits 0
  rwa [Nat.zero_add, Nat.one_mul] at hvalue

/-- The number after the greatest one that is read is computed, but it has one digit more and is not
printed, whatever the bounds are. -/
theorem successor_of_longest_not_printed :
    let expr := "(SUCC " ++ nines.text ++ ")"
    calculator.Calculates ∧
      (∃ u, calculator.Evaluates expr u ∧ u.numeral? = some (nines.value + 1) ∧ ∀ bounds,
        show? { calculator with limits := bounds } u = .error (.mishap .tooLong)) ∧
      ¬ ∀ (s : Session) (n : Decimal), s.Calculates →
        ∃ u, s.Evaluates ("(SUCC " ++ n.text ++ ")") u ∧
          ∃ bounds, show? { s with limits := bounds } u = .ok (toString (n.value + 1)) := by
  intro expr
  have hs : calculator.Calculates := ⟨rfl, rfl, rfl, rfl, by decide +kernel⟩
  have hlong : ¬ nines.value + 1 < 10 ^ Mishap.maxDigits := by
    rw [value_nines]
    exact Nat.lt_irrefl _
  rcases yields_calculation hs (.successor (.decimal nines)) with ⟨u, hu, hnumeral, hshow⟩
  have hfails (bounds : Bounds) :
      show? { calculator with limits := bounds } u = .error (.mishap .tooLong) :=
    (hshow bounds).trans (if_neg hlong)
  refine ⟨hs, ⟨u, hu, hnumeral, hfails⟩, fun hall => ?_⟩
  rcases hall calculator nines hs with ⟨v, hv, bounds, hprinted⟩
  rcases hu.unique hv with rfl
  rw [hfails bounds] at hprinted
  cases hprinted

end Session
end Nameless
