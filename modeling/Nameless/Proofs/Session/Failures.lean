import Nameless.Proofs.Bounded
import Nameless.Proofs.Line
import Nameless.Proofs.Mishap
import Nameless.Proofs.Named.Leaves
import Nameless.Proofs.Session.Reachable
import Nameless.Session.Evaluate

/-!
# How reading, reducing and printing fail

Reading a line or a term in a session fails in a few ways only: with a fault that has a report of
its own, because something goes too deep, or at a numeral with too many digits. Reducing fails at a
free variable or too deep. Printing fails at a term that is too high, or at a number that is too
long. All of these are told by the reporter. A fatal reporter then asks the run to end; any other
one suppresses the failure, except that of a number with too many digits, which is told as an
unknown error and escapes.

This file defines:
- `Failure.report?`, `Failure.ToldAs`: the report that a failure of a session is told by,
- `Failure.escaping?`: what is left of the failure after that,
- `Session.Overlong`, `Session.Unknown`: numerals with too many digits, and names that are neither
  defined nor numerals,
- `Session.StuckAt`: terms whose first reference that cannot be replaced is an overlong numeral,
- `Session.decimal?`: the number that a term is printed as.

Main statements:
- `Reporter.leave_of_fatal`, `Reporter.leave_of_not_fatal`: what becomes of such a failure,
- `Session.readTerm_eq_mishap_iff`: when reading fails at an overlong numeral,
- `Session.show?_eq_error`: when printing fails,
- `Session.toldAs_of_readTerm`, `Session.toldAs_of_readDefinition`, `Named.toldAs_of_reduceIn?`,
  `Session.toldAs_of_show?`: all failures are told.
-/

namespace Nameless

theorem Text.isDigit_of_mem_toString {n : Nat} {c : Char} (h : c ∈ (toString n).toList) :
    c.isDigit = true := by
  rw [Nat.toString_eq_repr, Nat.toList_repr] at h
  exact Nat.isDigit_of_mem_toDigits (by decide) (by decide) h

/-! ## Reports -/

namespace Reporter

open Text (BraceFree)

/-- The report on a mishap whose wording comes out as it stands. -/
def verbatim (m : Mishap) : Report :=
  mishapReport (mishapWording m) (mishapWording m)

theorem braceFree_valueError : BraceFree "ValueError".toList := by
  decide +kernel

theorem braceFree_toString (n : Nat) : BraceFree (toString n).toList := by
  intro c hc
  have hdigit := Text.isDigit_of_mem_toString hc
  constructor
  · rintro rfl
    exact absurd hdigit (by decide)
  · rintro rfl
    exact absurd hdigit (by decide)

/-- The message about the digits is fixed text, apart from the two numbers in it. -/
theorem braceFree_tooManyDigits (digits : Nat) :
    BraceFree (Mishap.tooManyDigits digits).message.toList := by
  have hlimit : BraceFree "Exceeds the limit (".toList := by decide +kernel
  have hvalue : BraceFree " digits) for integer string conversion: value has ".toList := by
    decide +kernel
  have hdigits : BraceFree " digits".toList := by decide +kernel
  have hadvice : BraceFree Mishap.digitAdvice.toList := by decide +kernel
  unfold Mishap.message
  rw [String.toList_append, String.toList_append, String.toList_append, String.toList_append,
    String.toList_append]
  simp only [Text.braceFree_append]
  exact ⟨⟨⟨⟨⟨hlimit, braceFree_toString _⟩, hvalue⟩, braceFree_toString _⟩, hdigits⟩, hadvice⟩

theorem issue_unknownError_tooManyDigits (digits : Nat) (style : Style) :
    (unknownError (.tooManyDigits digits)).issue style = .ok (verbatim (.tooManyDigits digits)) := by
  have hkind : BraceFree (Mishap.tooManyDigits digits).kind.toList := braceFree_valueError
  exact issue_unknownError_of_braceFree hkind (braceFree_tooManyDigits digits) style

theorem issue_unknownError_tooLong (style : Style) :
    (unknownError .tooLong).issue style = .ok (verbatim .tooLong) := by
  have hkind : BraceFree Mishap.tooLong.kind.toList := braceFree_valueError
  have hmessage : BraceFree Mishap.tooLong.message.toList := by decide +kernel
  exact issue_unknownError_of_braceFree hkind hmessage style

end Reporter

namespace Failure

/-- The report that a failure of a session is told by. Of the mishaps only those about digits arise
in a session. -/
def report? : Failure → Option Report
  | .fault (.worded _) => none
  | .fault cause => some cause.report
  | .tooDeep => some Reporter.exhaustion
  | .mishap (.tooManyDigits digits) => some (Reporter.verbatim (.tooManyDigits digits))
  | .mishap .tooLong => some (Reporter.verbatim .tooLong)
  | _ => none

/-- The failure is told by the report. -/
def ToldAs (failure : Failure) (report : Report) : Prop :=
  failure.report? = some report

/-- What is left of a failure of a session that was told by a reporter that is not fatal. -/
def escaping? : Failure → Option Failure
  | .mishap cause => some (.mishap cause)
  | _ => none

theorem ToldAs.fault {cause : Fault} (h : ∀ report, cause ≠ .worded report) :
    (Failure.fault cause).ToldAs cause.report := by
  cases cause with
  | worded report => exact absurd rfl (h report)
  | _ => rfl

end Failure

namespace Reporter

theorem leave_of_toldAs {failure : Failure} {report : Report} (h : failure.ToldAs report)
    (r : Reporter) :
    r.leave failure =
      match r.throw report with
      | (r, some failure) => (r, some failure)
      | (r, none) => (r, failure.escaping?) := by
  have hthrown : ∀ reported : Report, r.throw reported =
      match r.throw reported with
      | (r, some failure) => (r, some failure)
      | (r, none) => (r, none) := by
    intro reported
    rcases r.throw reported with ⟨r', _ | failure⟩ <;> rfl
  cases failure with
  | fault cause =>
    cases cause with
    | worded report => cases h
    | _ =>
      cases h
      exact hthrown _
  | tooDeep =>
    cases h
    exact hthrown _
  | mishap cause =>
    cases cause with
    | tooManyDigits digits =>
      cases h
      unfold leave
      simp only [issue_unknownError_tooManyDigits]
      rfl
    | tooLong =>
      cases h
      unfold leave
      simp only [issue_unknownError_tooLong]
      rfl
    | _ => cases h
  | interrupted => cases h
  | exit status => cases h

theorem fatal_printError (r : Reporter) (report : Report) :
    (r.printError report).fatal = r.fatal := by
  rw [printError_eq_note, fatal_note]

theorem leave_of_fatal {failure : Failure} {report : Report} (h : failure.ToldAs report)
    {r : Reporter} (hfatal : r.fatal = true) :
    r.leave failure = (r.printError report, some (.exit (.code 1))) := by
  have hthrow : r.throw report = (r.printError report, some (.exit (.code 1))) :=
    if_pos ((fatal_printError r report).trans hfatal)
  rw [leave_of_toldAs h, hthrow]

theorem leave_of_not_fatal {failure : Failure} {report : Report} (h : failure.ToldAs report)
    {r : Reporter} (hfatal : r.fatal = false) :
    r.leave failure = ((r.printError report).clearAll, failure.escaping?) := by
  have hthrow : r.throw report = ((r.printError report).clearAll, none) := by
    simp [throw, fatal_printError, hfatal]
  rw [leave_of_toldAs h, hthrow]

end Reporter

/-! ## Numerals that are too long -/

namespace Text

theorem decimalValue?_of_isDigit {c : Char} (h : c.isDigit = true) :
    decimalValue? c = some (c.toNat - '0'.toNat) := by
  simp only [Char.isDigit, Bool.and_eq_true, decide_eq_true_eq, ge_iff_le,
    UInt32.le_iff_toNat_le] at h
  exact decimalValue?_of_ascii h.1 h.2

theorem decimalValue?_isSome_of_isDigit {c : Char} (h : c.isDigit = true) :
    (decimalValue? c).isSome = true := by
  rw [decimalValue?_of_isDigit h]
  rfl

/-- Of the characters of names, only those of core count as digits. -/
theorem isDigit_of_isUpperOrDigit {c : Char} (hname : isUpperOrDigit c = true)
    (hdigit : isDigit c = true) : c.isDigit = true := by
  have hupper : ∀ n < 26, isDigit (Char.ofNat (65 + n)) = false := by decide +kernel
  rcases toNat_of_isUpperOrDigit hname with ⟨hlow, hhigh⟩ | ⟨hlow, hhigh⟩
  · have hnone := hupper (c.toNat - 65) (by omega)
    rw [Nat.add_sub_cancel' hlow, Char.ofNat_toNat, hdigit] at hnone
    cases hnone
  · simp only [Char.isDigit, Bool.and_eq_true, decide_eq_true_eq, ge_iff_le,
      UInt32.le_iff_toNat_le]
    exact ⟨hlow, hhigh⟩

theorem isDigits_of_isDigit {cs : List Char} (hne : cs ≠ []) (h : ∀ c ∈ cs, c.isDigit = true) :
    isDigits cs = true := by
  simp only [isDigits, Bool.and_eq_true, Bool.not_eq_true', List.isEmpty_eq_false_iff,
    List.all_eq_true]
  refine ⟨hne, ?_⟩
  intro c hc
  simp [isDigit, decimalValue?_isSome_of_isDigit (h c hc)]

theorem readDecimalFrom_of_isDigit {cs : List Char} (h : ∀ c ∈ cs, c.isDigit = true)
    (value : Nat) : readDecimalFrom value cs = some (Nat.ofDigitChars 10 cs value) := by
  induction cs generalizing value with
  | nil => rfl
  | cons c rest ih =>
    rcases List.forall_mem_cons.1 h with ⟨hc, hrest⟩
    rw [readDecimalFrom, decimalValue?_of_isDigit hc]
    exact ih hrest _

end Text

/-- Digits of other scripts do not stand in names. -/
theorem Line.isDigits_iff {name : List Char} (hname : isName name = true) :
    Text.isDigits name = true ↔ ∀ c ∈ name, c.isDigit = true := by
  constructor
  · intro h c hc
    simp only [isName, Text.isDigits, Bool.and_eq_true, List.all_eq_true] at hname h
    exact Text.isDigit_of_isUpperOrDigit (hname.2 c hc) (h.2 c hc)
  · intro h
    rcases Token.exists_cons_of_run hname with ⟨_, _, rfl, _, _⟩
    exact Text.isDigits_of_isDigit (List.cons_ne_nil _ _) h

namespace Session

/-- The name is a numeral that nothing defines, with more digits than are converted. -/
def Overlong (s : Session) (name : String) : Prop :=
  s.numerals = true ∧ s.definitions.find? name = none ∧ (∀ c ∈ name.toList, c.isDigit = true) ∧
    Mishap.maxDigits < name.length

/-- Nothing defines the name, and it is no numeral. -/
def Unknown (s : Session) (name : String) : Prop :=
  s.definitions.find? name = none ∧
    ¬ (s.numerals = true ∧ ∀ c ∈ name.toList, c.isDigit = true)

/-- The first reference of the term that cannot be replaced is an overlong numeral. -/
def StuckAt (s : Session) (t : Named Reference) (name : String) : Prop :=
  s.Overlong name ∧ ∃ before after, t.leaves = before ++ ⟨name⟩ :: after ∧
    ∀ r ∈ before, ∃ d, ∀ expr, s.fetch expr r.name = .ok d

theorem takeWhile_decimal {name : List Char} (h : ∀ c ∈ name, c.isDigit = true) :
    (name.takeWhile fun c => (Text.decimalValue? c).isSome) = name :=
  List.takeWhile_eq_self_iff.2 fun c hc => Text.decimalValue?_isSome_of_isDigit (h c hc)

theorem number?_of_long {name : List Char} (h : ∀ c ∈ name, c.isDigit = true)
    (hlong : Mishap.maxDigits < name.length) :
    number? name = .error (.tooManyDigits name.length) := by
  unfold number?
  simp only [takeWhile_decimal h]
  exact if_pos hlong

theorem number?_of_short {name : List Char} (h : ∀ c ∈ name, c.isDigit = true)
    (hshort : ¬ Mishap.maxDigits < name.length) :
    number? name = .ok (Nat.ofDigitChars 10 name 0) := by
  have hread : Text.readDecimal name = some (Nat.ofDigitChars 10 name 0) :=
    Text.readDecimalFrom_of_isDigit h 0
  unfold number?
  simp only [takeWhile_decimal h]
  rw [if_neg hshort, hread]

theorem lookup_of_overlong {s : Session} {name : String} (h : s.Overlong name) (expr : String) :
    s.lookup expr name = .error (.mishap (.tooManyDigits name.length)) := by
  rcases h with ⟨hnumerals, hfind, hdigits, hlong⟩
  rw [← String.length_toList] at hlong
  have hne : name.toList ≠ [] := List.ne_nil_of_length_pos (by omega)
  have hisDigits : Text.isDigits name.toList = true := Text.isDigits_of_isDigit hne hdigits
  unfold lookup
  simp [hfind, hnumerals, hisDigits, number?_of_long hdigits hlong, String.length_toList]

/-- What is blamed for a name that a definition can have is a place in the expression. -/
theorem undefinedIn_of_isName {name : String} (hname : Line.isName name.toList = true)
    (expr : String) :
    ∃ start stop, undefinedIn expr name = .fault (.undefined expr name start stop) := by
  unfold undefinedIn
  rw [Line.span?_of_isName hname]
  cases Line.occurrence? name.toList expr.toList with
  | none => exact ⟨_, _, rfl⟩
  | some start => exact ⟨_, _, rfl⟩

/-- A reference to a name that a definition can have fails as an overlong numeral or because it is
unknown. -/
theorem lookup_eq_error {s : Session} {expr name : String} {failure : Failure}
    (hname : Line.isName name.toList = true) (h : s.lookup expr name = .error failure) :
    (s.Overlong name ∧ failure = .mishap (.tooManyDigits name.length)) ∨
      (s.Unknown name ∧ failure = undefinedIn expr name) := by
  unfold lookup at h
  split at h
  · cases h
  · next hfind =>
    split at h
    · next hdigits =>
      rw [Bool.and_eq_true, Line.isDigits_iff hname] at hdigits
      rcases hdigits with ⟨hnumerals, hascii⟩
      by_cases hlong : Mishap.maxDigits < name.toList.length
      · rw [number?_of_long hascii hlong] at h
        cases h
        rw [String.length_toList] at hlong ⊢
        exact .inl ⟨⟨hnumerals, hfind, hascii, hlong⟩, rfl⟩
      · rw [number?_of_short hascii hlong] at h
        cases h
    · next hdigits =>
      rw [Bool.and_eq_true, Line.isDigits_iff hname] at hdigits
      cases h
      exact .inr ⟨⟨hfind, hdigits⟩, rfl⟩

/-- What a reference stands for does not depend on where it is used. -/
theorem lookup_expr {s : Session} {expr name : String} {d : Named Empty}
    (h : s.lookup expr name = .ok d) (other : String) : s.lookup other name = .ok d := by
  unfold lookup at h ⊢
  split at h
  · exact h
  · split at h
    · next hdigits =>
      rw [if_pos hdigits]
      exact h
    · cases h

/-! ## Failures of reading -/

theorem parse_eq_error {depth : Nat} {text : String} {failure : Failure}
    (h : Named.parse depth text = .error failure) :
    failure = .tooDeep ∨
      ∃ cause offset, offset ≤ text.length ∧ failure = .fault (.malformed text cause offset) := by
  unfold Named.parse at h
  split at h
  · cases h
  · next refusal _ =>
    cases h
    cases refusal with
    | malformed cause rest => exact .inr ⟨cause, _, Nat.sub_le _ _, rfl⟩
    | tooDeep => exact .inl rfl

/-- A reference to a name that a definition can have is not replaced because of what it stands for,
or because that is too high to be copied. -/
theorem fetch_eq_error {s : Session} {expr name : String} {failure : Failure}
    (hname : Line.isName name.toList = true) (h : s.fetch expr name = .error failure) :
    failure = .tooDeep ∨ (s.Overlong name ∧ failure = .mishap (.tooManyDigits name.length)) ∨
      ∃ start stop, failure = .fault (.undefined expr name start stop) := by
  rcases fetch_eq s expr name with ⟨heq, _⟩ | ⟨hdeep, _⟩
  · rcases lookup_eq_error hname (heq ▸ h) with hlong | ⟨_, rfl⟩
    · exact .inr (.inl hlong)
    · exact .inr (.inr (undefinedIn_of_isName hname expr))
  · rw [hdeep] at h
    cases h
    exact .inl rfl

theorem fetch_expr {s : Session} {expr name : String} {d : Named Empty}
    (h : s.fetch expr name = .ok d) (other : String) : s.fetch other name = .ok d := by
  unfold fetch at h ⊢
  split at h
  · exact h
  · exact lookup_expr h other

/-- Replacing the references of a term by copies of what they stand for gives the resolved term,
unless one of them stands for a definition that is too high to be copied. -/
theorem expand?_fetch {s : Session} {expr : String} {t : Named Reference} {u : Named Empty}
    (h : s.resolve expr t = .ok u) :
    t.expand? (fun r => s.fetch expr r.name) = .ok u ∨
      t.expand? (fun r => s.fetch expr r.name) = .error .tooDeep ∧
        ∃ r ∈ t.leaves, ∃ d, s.definitions.find? r.name = some d ∧ s.limits.copying < d.height := by
  have hlookup := Named.leaves_ok_of_expand? h
  cases hexpand : t.expand? fun r => s.fetch expr r.name with
  | ok u' =>
    have hfetch := Named.leaves_ok_of_expand? hexpand
    have hsame : ∀ r ∈ t.leaves, s.fetch expr r.name = s.lookup expr r.name := by
      intro r hr
      rcases hfetch r hr with ⟨d, hd⟩
      rw [hd, (fetch_eq_ok hd).1]
    rw [Named.expand?_congr hsame] at hexpand
    exact .inl (hexpand.symm.trans h)
  | error failure =>
    rcases Named.expand?_eq_error_iff.1 hexpand with ⟨before, r, after, hleaves, _, hr⟩
    have hmem : r ∈ t.leaves := by simp [hleaves]
    rcases fetch_eq s expr r.name with ⟨heq, _⟩ | ⟨hdeep, d, hd, hheight⟩
    · rcases hlookup r hmem with ⟨d, hd⟩
      rw [heq, hd] at hr
      cases hr
    · rw [hdeep] at hr
      cases hr
      exact .inr ⟨rfl, r, hmem, d, hd, hheight⟩

/-- Reading a term fails as an overlong numeral or with a fault, or because something nests too
deep. -/
theorem readTerm_eq_error {s : Session} {expr : String} {failure : Failure}
    (h : s.readTerm expr = .error failure) :
    (∃ t name, Named.parse s.limits.parsing expr = .ok t ∧ s.StuckAt t name ∧
        failure = .mishap (.tooManyDigits name.length)) ∨
      failure = .tooDeep ∨
      (∃ cause offset, failure = .fault (.malformed expr cause offset)) ∨
      ∃ name start stop, failure = .fault (.undefined expr name start stop) := by
  rcases Except.bind_eq_error h with hparse | ⟨t, hparse, hexpand⟩
  · rcases parse_eq_error hparse with rfl | ⟨cause, offset, _, rfl⟩
    · exact .inr (.inl rfl)
    · exact .inr (.inr (.inl ⟨cause, offset, rfl⟩))
  · -- The first reference from the left that fails decides.
    rcases Named.expand?_eq_error_iff.1 hexpand with ⟨before, r, after, hleaves, hbefore, hr⟩
    have hname : r.IsNamed :=
      (Named.wellNamed_of_parse hparse).of_mem_leaves (by simp [hleaves])
    rcases fetch_eq_error hname hr with rfl | ⟨hlong, rfl⟩ | hundefined
    · exact .inr (.inl rfl)
    · refine .inl ⟨t, r.name, hparse, ⟨hlong, before, after, hleaves, ?_⟩, rfl⟩
      intro other hother
      rcases hbefore other hother with ⟨d, hd⟩
      exact ⟨d, fetch_expr hd⟩
    · exact .inr (.inr (.inr ⟨r.name, hundefined⟩))

theorem fetch_of_overlong {s : Session} {name : String} (h : s.Overlong name) (expr : String) :
    s.fetch expr name = .error (.mishap (.tooManyDigits name.length)) :=
  (fetch_of_none h.2.1).trans (lookup_of_overlong h expr)

theorem readTerm_eq_mishap_iff {s : Session} {expr : String} {cause : Mishap} :
    s.readTerm expr = .error (.mishap cause) ↔
      ∃ t name, Named.parse s.limits.parsing expr = .ok t ∧ s.StuckAt t name ∧
        cause = .tooManyDigits name.length := by
  constructor
  · intro h
    rcases readTerm_eq_error h with
      ⟨t, name, hparse, hstuck, heq⟩ | heq | ⟨_, _, heq⟩ | ⟨_, _, _, heq⟩
    · cases heq
      exact ⟨t, name, hparse, hstuck, rfl⟩
    · cases heq
    · cases heq
    · cases heq
  · rintro ⟨t, name, hparse, ⟨hlong, before, after, hleaves, hbefore⟩, rfl⟩
    rw [readTerm_of_parse hparse]
    refine Named.expand?_of_first hleaves ?_ (fetch_of_overlong hlong expr)
    intro r hr
    rcases hbefore r hr with ⟨d, hd⟩
    exact ⟨d, hd expr⟩

theorem toldAs_of_readTerm {s : Session} {expr : String} {failure : Failure}
    (h : s.readTerm expr = .error failure) : ∃ report, failure.ToldAs report := by
  rcases readTerm_eq_error h with ⟨_, name, _, _, rfl⟩ | rfl | ⟨_, _, rfl⟩ | ⟨_, _, _, rfl⟩
  · exact ⟨_, rfl⟩
  · exact ⟨_, rfl⟩
  · exact ⟨_, .fault (by simp)⟩
  · exact ⟨_, .fault (by simp)⟩

theorem split_eq_error {line : String} {fault : Fault} (h : Line.split line = .error fault) :
    ∃ stop, stop ≤ line.length ∧ fault = .notDefinition line stop := by
  unfold Line.split at h
  simp only at h
  split at h
  · cases h
    exact ⟨_, Nat.le_refl _, rfl⟩
  · split at h
    · cases h
    · cases h
      exact ⟨_, Line.length_nameText_le line, rfl⟩

/-- Reading a definition fails because the line is none, or as reading its term does. -/
theorem readDefinition_eq_error {s : Session} {line : String} {failure : Failure}
    (h : s.readDefinition line = .error failure) :
    (∃ stop, failure = .fault (.notDefinition line stop)) ∨
      ∃ name expr, Line.split line = .ok (name, expr) ∧ s.readTerm expr = .error failure := by
  rcases Except.bind_eq_error h with hsplit | ⟨⟨name, expr⟩, hsplit, hrest⟩
  · cases hline : Line.split line with
    | ok parts =>
      rw [hline] at hsplit
      cases hsplit
    | error fault =>
      rcases split_eq_error hline with ⟨stop, _, rfl⟩
      rw [hline] at hsplit
      cases hsplit
      exact .inl ⟨stop, rfl⟩
  · rcases Except.bind_eq_error hrest with hterm | ⟨_, _, hdone⟩
    · exact .inr ⟨name, expr, Failure.ofFault_eq_ok hsplit, hterm⟩
    · cases hdone

theorem toldAs_of_readDefinition {s : Session} {line : String} {failure : Failure}
    (h : s.readDefinition line = .error failure) : ∃ report, failure.ToldAs report := by
  rcases readDefinition_eq_error h with ⟨stop, rfl⟩ | ⟨_, expr, _, hterm⟩
  · exact ⟨_, .fault (by simp)⟩
  · exact toldAs_of_readTerm hterm

end Session

/-! ## Failures of reducing -/

namespace Named

theorem reduceIn?_eq_error {bounds : Bounds} {traced allowFree : Bool} {t : Named Empty}
    {failure : Failure} (h : (t.reduceIn? bounds traced allowFree).result = .error failure) :
    failure = .tooDeep ∨ allowFree = false ∧ ∃ x ∈ t.freeNames, failure = .fault (.unbound x) := by
  rcases (reduceIn?_within bounds traced allowFree t).result_eq with heq | hdeep
  · rw [heq] at h
    cases hindexed : t.toIndexed? allowFree [] with
    | error fault =>
      rcases toIndexed?_eq_error hindexed with ⟨hfree, p, x, rfl, hp, _, _⟩
      rw [reduce?_of_unbound hindexed] at h
      cases h
      exact .inr ⟨hfree, x, mem_freeNames_iff.2 ⟨p, hp⟩, rfl⟩
    | ok u =>
      -- Without bounds there is a result, or none within any limits.
      rcases returns_or_diverges hindexed with ⟨r, hcomes, _⟩ | ⟨hdiverges, _⟩
      · rcases hcomes.2 bounds.toLimits with hok | hdeep
        · rw [hok] at h
          cases h
        · rw [hdeep] at h
          cases h
          exact .inl rfl
      · rw [hdiverges bounds.toLimits] at h
        cases h
        exact .inl rfl
  · rw [hdeep] at h
    cases h
    exact .inl rfl

/-- The faults of leaving out names have a report of their own. -/
theorem toIndexed?_ne_worded {ρ : Type} [Leaf ρ] {allowFree : Bool} {scope : List String}
    {t : Named ρ} {report : Report} : t.toIndexed? allowFree scope ≠ .error (.worded report) := by
  intro h
  induction t generalizing scope with
  | abs name body ih =>
    rcases Except.bind_eq_error h with hbody | ⟨_, _, hdone⟩
    · exact ih hbody
    · cases hdone
  | app fn arg ihf iha =>
    rcases Except.bind_eq_error h with hfn | ⟨_, _, hrest⟩
    · exact ihf hfn
    · rcases Except.bind_eq_error hrest with harg | ⟨_, _, hdone⟩
      · exact iha harg
      · cases hdone
  | sym name =>
    unfold toIndexed? at h
    split at h
    · cases h
    · split at h <;> cases h
  | leaf x => cases h

end Named

/-- The faults of giving names have a report of their own. -/
theorem Indexed.toNamedFrom?_ne_worded {ρ : Type} [Leaf ρ] {reserved scope : List String}
    {next : Nat} {t : Indexed ρ} {report : Report} :
    t.toNamedFrom? reserved next scope ≠ .error (.worded report) := by
  intro h
  induction t generalizing next scope with
  | lam body ih =>
    rcases Except.bind_eq_error h with hbody | ⟨_, _, hdone⟩
    · exact ih hbody
    · cases hdone
  | app fn arg ihf iha =>
    rcases Except.bind_eq_error h with hfn | ⟨_, _, hrest⟩
    · exact ihf hfn
    · rcases Except.bind_eq_error hrest with harg | ⟨_, _, hdone⟩
      · exact iha harg
      · cases hdone
  | var index =>
    unfold toNamedFrom? at h
    split at h <;> cases h
  | free name => cases h
  | leaf x => cases h

namespace Named

/-- Whatever leaves a term has, a failure of reducing it is told and does not escape. -/
theorem toldAs_of_reduceIn? {ρ : Type} [Leaf ρ] {bounds : Bounds} {traced allowFree : Bool}
    {t : Named ρ} {failure : Failure}
    (h : (t.reduceIn? bounds traced allowFree).result = .error failure) :
    failure.escaping? = none ∧ ∃ report, failure.ToldAs report := by
  have hfault {α : Type} {result : Except Fault α}
      (hworded : ∀ report, result ≠ .error (.worded report))
      (hresult : Failure.ofFault result = .error failure) :
      failure.escaping? = none ∧ ∃ report, failure.ToldAs report := by
    cases result with
    | ok a => cases hresult
    | error cause =>
      cases hresult
      refine ⟨rfl, _, .fault ?_⟩
      rintro report rfl
      exact hworded report rfl
  rcases (reduceIn?_within bounds traced allowFree t).result_eq with heq | hdeep
  · rw [heq] at h
    rcases Reduction.andThen_eq_error h with hindexed | ⟨u, hrest⟩
    · exact hfault (fun _ => toIndexed?_ne_worded) hindexed
    · rcases Reduction.andThen_eq_error hrest with hnf | ⟨v, hnamed⟩
      · rcases Indexed.nfWithin_error hnf with rfl
        exact ⟨rfl, _, rfl⟩
      · exact hfault (fun _ => Indexed.toNamedFrom?_ne_worded) hnamed
  · rw [hdeep] at h
    cases h
    exact ⟨rfl, _, rfl⟩

end Named

/-! ## Failures of printing -/

namespace Session

/-- The number that a term is printed as, if it is printed as one. -/
def decimal? (s : Session) (t : Named Empty) : Option Nat :=
  if s.numerals then t.numeral? else none

variable {s : Session} {t : Named Empty}

theorem decimal?_eq_some {n : Nat} :
    s.decimal? t = some n ↔ s.numerals = true ∧ t.numeral? = some n := by
  unfold decimal?
  cases s.numerals <;> simp

theorem length_toString_le_iff {n : Nat} :
    (toString n).toList.length ≤ Mishap.maxDigits ↔ n < 10 ^ Mishap.maxDigits := by
  rw [Nat.toString_eq_repr, Nat.toList_repr]
  exact Nat.length_toDigits_le_iff (by decide) (by decide)

/-- What is printed as a number may have too many digits, and any other term too many levels. -/
theorem overrun?_eq (s : Session) (t : Named Empty) :
    s.overrun? t =
      match s.decimal? t with
      | some n => if n < 10 ^ Mishap.maxDigits then none else some (.mishap .tooLong)
      | none => if t.height ≤ s.limits.printing then none else some .tooDeep := by
  unfold overrun? decimal? Mishap.digits?
  simp only [length_toString_le_iff]
  cases s.numerals with
  | false => rfl
  | true =>
    cases t.numeral? with
    | none => rfl
    | some n =>
      by_cases hshort : n < 10 ^ Mishap.maxDigits
      · simp only [if_true, if_pos hshort]
      · simp only [if_true, if_neg hshort]

/-- A term is printed as such, or as a number if it is a numeral and numerals are on. -/
theorem text_eq (s : Session) (t : Named Empty) :
    s.text t =
      match s.decimal? t with
      | some n => toString n
      | none => t.text := by
  unfold text decimal?
  cases s.numerals with
  | false => rfl
  | true => cases t.numeral? <;> rfl

/-- A term that is printed as such is low enough for that. -/
theorem show?_of_decimal?_eq_none {w : String} (hdecimal : s.decimal? t = none)
    (h : s.show? t = .ok w) : w = t.text ∧ t.height ≤ s.limits.printing := by
  rw [show?_empty, overrun?_eq, text_eq, hdecimal] at h
  by_cases hheight : t.height ≤ s.limits.printing
  · simp only [if_pos hheight] at h
    exact ⟨(Except.ok.inj h).symm, hheight⟩
  · simp only [if_neg hheight] at h
    cases h

/-- A term that is printed as a number is short enough for that. -/
theorem show?_of_decimal?_eq_some {w : String} {n : Nat} (hdecimal : s.decimal? t = some n)
    (h : s.show? t = .ok w) : w = toString n ∧ n < 10 ^ Mishap.maxDigits := by
  rw [show?_empty, overrun?_eq, text_eq, hdecimal] at h
  by_cases hshort : n < 10 ^ Mishap.maxDigits
  · simp only [if_pos hshort] at h
    exact ⟨(Except.ok.inj h).symm, hshort⟩
  · simp only [if_neg hshort] at h
    cases h

theorem show?_eq_error {failure : Failure} (h : s.show? t = .error failure) :
    (∃ n, s.decimal? t = some n ∧ 10 ^ Mishap.maxDigits ≤ n ∧ failure = .mishap .tooLong) ∨
      s.decimal? t = none ∧ s.limits.printing < t.height ∧ failure = .tooDeep := by
  rw [show?_empty, overrun?_eq] at h
  cases hdecimal : s.decimal? t with
  | some n =>
    rw [hdecimal] at h
    by_cases hshort : n < 10 ^ Mishap.maxDigits
    · simp only [if_pos hshort] at h
      cases h
    · simp only [if_neg hshort] at h
      cases h
      exact .inl ⟨n, rfl, Nat.le_of_not_lt hshort, rfl⟩
  | none =>
    rw [hdecimal] at h
    by_cases hheight : t.height ≤ s.limits.printing
    · simp only [if_pos hheight] at h
      cases h
    · simp only [if_neg hheight] at h
      cases h
      exact .inr ⟨rfl, Nat.lt_of_not_le hheight, rfl⟩

theorem toldAs_of_show? {failure : Failure} (h : s.show? t = .error failure) :
    ∃ report, failure.ToldAs report := by
  rcases show?_eq_error h with ⟨_, _, _, rfl⟩ | ⟨_, _, rfl⟩
  · exact ⟨_, rfl⟩
  · exact ⟨_, rfl⟩

end Session
end Nameless
