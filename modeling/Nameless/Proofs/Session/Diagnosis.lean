import Nameless.Proofs.Session.Unknown

/-!
# The underline below an expression

A report shows the expression at fault and marks the part to blame below it. The bounds of that part
are signed, and bounds outside the expression, or inverted ones, would lose or repeat some of it.
The reports of a session have bounds inside their expression, or an upper one just behind it. So the
expression is shown as it stands, with one mark below each character that is blamed, and a single
mark behind it if there is none.

This file defines:
- `Report.underline`: the marks below a part of an expression,
- `Report.Aligned`: how an expression with its underline is shown.

Main statements:
- `Report.aligned_of_bounds`: bounds that keep the underline aligned,
- `Session.diagnoses_aligned`: all reports on reading have them.
-/

namespace Nameless
namespace Report

/-! ## Alignment -/

/-- The marks below a part of an expression, and one mark for the empty part. -/
def underline (blamed : List Char) : List Char :=
  '^' :: blamed.tail.map fun _ => '~'

/-- The report shows the expression as it stands, and below it the marks for the part from `start`
up to `stop`, or up to the next character if that is further. Only behind the expression this part
is empty. -/
structure Aligned (r : Report) (expr : String) : Prop where
  expr_eq : r.expr = expr
  marked : ∃ before blamed after, expr.toList = before ++ (blamed ++ after) ∧
    r.start = before.length ∧
    Text.between expr.toList r.start (max r.stop (r.start + 1)) = blamed ∧
    (blamed = [] → after = []) ∧
    ∀ color, r.diagnose .plain color = "  " ++ expr ++ "\n" ++
      "  " ++ String.ofList (List.replicate before.length ' ') ++ String.ofList (underline blamed)

/-- If the slices of an expression make it up, it is shown as it stands. -/
theorem diagnose_plain {r : Report}
    (h : Text.before r.expr.toList r.start ++ (Text.between r.expr.toList r.start r.underlineStop ++
      Text.after r.expr.toList r.underlineStop) = r.expr.toList) (color : Color) :
    r.diagnose .plain color = "  " ++ r.expr ++ "\n" ++
      "  " ++ String.ofList (Text.fill ' ' r.start) ++
      String.ofList ('^' :: Text.fill '~' r.furtherMarks) := by
  have hshown : "  " ++ String.ofList (Text.before r.expr.toList r.start) ++
      String.ofList (Text.between r.expr.toList r.start r.underlineStop) ++
      String.ofList (Text.after r.expr.toList r.underlineStop) = "  " ++ r.expr := by
    rw [String.append_assoc, String.append_assoc, ← String.ofList_append, ← String.ofList_append, h,
      String.ofList_toList]
  simp only [diagnose, Style.bold_plain]
  rw [hshown]

/-- Bounds inside the expression, or an upper one just behind it, keep the underline aligned. -/
theorem aligned_of_bounds {r : Report} {start stop : Nat} (hstart : r.start = start)
    (hstop : r.stop = stop) (hle : start ≤ r.expr.length)
    (hstop_le : stop ≤ max r.expr.length (start + 1)) : r.Aligned r.expr := by
  rw [← String.length_toList] at hle hstop_le
  -- The underline ends at `last` in the expression, and further right only if it starts at its end.
  let last := min (max stop (start + 1)) r.expr.toList.length
  have hlast : start ≤ last ∧ (last = start → last = r.expr.toList.length) := by omega
  have hcut : Text.cut r.expr.toList.length r.underlineStop = last := by
    have hends : r.underlineStop = (max stop (start + 1) : Nat) := by
      unfold underlineStop
      omega
    rw [hends, Text.cut_eq_min]
  have hbefore : Text.before r.expr.toList r.start = r.expr.toList.take start := by
    rw [hstart, Text.before, Text.cut_natCast hle]
  have hbetween : Text.between r.expr.toList r.start r.underlineStop =
      (r.expr.toList.take last).drop start := by
    rw [Text.between, hcut, hstart, Text.cut_natCast hle]
  have hparts : r.expr.toList = r.expr.toList.take start ++
      ((r.expr.toList.take last).drop start ++ r.expr.toList.drop last) := by
    have hfront : r.expr.toList.take start = (r.expr.toList.take last).take start := by
      rw [List.take_take, Nat.min_eq_left hlast.1]
    rw [← List.append_assoc, hfront, List.take_append_drop, List.take_append_drop]
  have hlength : ((r.expr.toList.take last).drop start).length = last - start := by
    rw [List.length_drop, List.length_take_of_le (Nat.min_le_right _ _)]
  refine ⟨rfl, _, _, _, hparts, ?_, hbetween, ?_, ?_⟩
  · rw [hstart, List.length_take_of_le hle]
  · intro hblamed
    rw [hblamed, List.length_nil] at hlength
    rw [hlast.2 (by omega), List.drop_length]
  · intro color
    have hcount : r.furtherMarks.toNat = last - start - 1 := by
      unfold furtherMarks underlineStop
      omega
    have hmarks : '^' :: Text.fill '~' r.furtherMarks =
        underline ((r.expr.toList.take last).drop start) := by
      rw [underline, List.map_const', List.length_tail, hlength, Text.fill, hcount]
    have hblanks : Text.fill ' ' r.start =
        List.replicate (r.expr.toList.take start).length ' ' := by
      rw [hstart, List.length_take_of_le hle]
      rfl
    rw [diagnose_plain _ color, hmarks, hblanks]
    rw [hbefore, hbetween, Text.after, hcut]
    exact hparts.symm

end Report

/-! ## Reports of a session -/

namespace Session

theorem aligned_of_parse {depth : Nat} {text : String} {fault : Fault}
    (h : Named.parse depth text = .error (.fault fault)) : fault.report.Aligned text := by
  rcases parse_eq_error h with hdeep | ⟨cause, offset, hle, heq⟩
  · cases hdeep
  · cases heq
    refine Report.aligned_of_bounds rfl rfl hle ?_
    change cause.stop text offset ≤ max text.length (offset + 1)
    unfold SyntaxFault.stop
    split <;> omega

theorem aligned_of_split {line : String} {fault : Fault} (h : Line.split line = .error fault) :
    fault.report.Aligned line := by
  rcases split_eq_error h with ⟨stop, hle, rfl⟩
  exact Report.aligned_of_bounds rfl rfl (Nat.zero_le _) (Nat.le_trans hle (Nat.le_max_left _ _))

theorem aligned_of_resolve {s : Session} {depth : Nat} {expr : String} {t : Named Reference}
    {fault : Fault} (hparse : Named.parse depth expr = .ok t)
    (h : s.resolve expr t = .error (.fault fault)) : fault.report.Aligned expr := by
  rcases Named.exists_places_of_parse hparse with ⟨placed, hplaces, hleaves⟩
  rcases (resolve_eq_fault_iff hplaces hleaves).1 h with
    ⟨earlier, p, later, name, hcut, hfirst, _, rfl⟩
  have hdelimits := hplaces.delimits (by simp [hcut]) hfirst.token_eq
  have hstop : p.stop ≤ expr.length := String.length_toList ▸ hdelimits.stop_le
  have hstart : p.start ≤ p.stop := hdelimits.stop_eq ▸ Nat.le_add_right _ _
  exact Report.aligned_of_bounds rfl rfl (Nat.le_trans hstart hstop)
    (Nat.le_trans hstop (Nat.le_max_left _ _))

/-- The name of a definition stands in its line. -/
theorem length_le_of_readDefinition {s : Session} {line name : String} {t : Named Empty}
    (h : s.readDefinition line = .ok (name, t)) : name.length ≤ line.length := by
  rcases readDefinition_eq_ok h with ⟨expr, hsplit, _⟩
  unfold Line.split at hsplit
  simp only at hsplit
  split at hsplit
  · cases hsplit
  · split at hsplit
    · cases hsplit
      rw [String.length_ofList]
      exact Line.length_nameText_le line
    · cases hsplit

theorem aligned_redefinition {s : Session} {line name : String} {t : Named Empty}
    (h : s.readDefinition line = .ok (name, t)) : (redefinition line name).Aligned line :=
  Report.aligned_of_bounds rfl rfl (Nat.zero_le _)
    (Nat.le_trans (length_le_of_readDefinition h) (Nat.le_max_left _ _))

/-- Adding a line prints nothing, or the warning that it redefines a name. -/
theorem printed_add (s : Session) (line : String) (number : Option Int) (r : Reporter) :
    (s.add line number r).reporter.printed = r.printed ∨
      ∃ name t, s.readDefinition line = .ok (name, t) ∧
        (s.add line number r).reporter =
          ((r.record s.path (some line) number).warn (redefinition line name)).clear s.path := by
  unfold add
  cases hread : s.readDefinition line with
  | error failure => exact .inl rfl
  | ok definition =>
    rcases definition with ⟨name, t⟩
    cases hfind : (s.definitions.find? name).isSome with
    | false =>
      refine .inl ?_
      simp only [hfind, Bool.false_eq_true, if_false]
      rfl
    | true =>
      refine .inr ⟨name, t, rfl, ?_⟩
      simp only [hfind, if_true]

/-- Whatever is wrong with a text that is read as a term or as a definition, with a reference in a
term that was read, or with the name of a line that is added, the report shows that text aligned
with its underline. -/
theorem diagnoses_aligned :
    (∀ {depth : Nat} {text : String} {fault : Fault},
      Named.parse depth text = .error (.fault fault) → fault.report.Aligned text) ∧
    (∀ {line : String} {fault : Fault},
      Line.split line = .error fault → fault.report.Aligned line) ∧
    (∀ {s : Session} {depth : Nat} {expr : String} {t : Named Reference} {fault : Fault},
      Named.parse depth expr = .ok t → s.resolve expr t = .error (.fault fault) →
        fault.report.Aligned expr) ∧
    ∀ (s : Session) (line : String) (number : Option Int) (r : Reporter),
      (s.add line number r).reporter.printed = r.printed ∨
        ∃ name, (redefinition line name).Aligned line ∧ (s.add line number r).reporter =
          ((r.record s.path (some line) number).warn (redefinition line name)).clear s.path := by
  refine ⟨aligned_of_parse, aligned_of_split, aligned_of_resolve, ?_⟩
  intro s line number r
  rcases printed_add s line number r with hnothing | ⟨name, t, hread, hwarned⟩
  · exact .inl hnothing
  · exact .inr ⟨name, aligned_redefinition hread, hwarned⟩

/-- The underline is a single mark behind a text that ends early, and stands below the first
characters of a line, and below a name that also stands inside a longer one. -/
theorem diagnoses_aligned_ends :
    (Named.parse 8 "(x" = .error (.fault (.malformed "(x" .incomplete 2)) ∧
      (Fault.malformed "(x" .incomplete 2).report.Aligned "(x") ∧
    (Line.split "Ab = x" = .error (.notDefinition "Ab = x" 2) ∧
      (Fault.notDefinition "Ab = x" 2).report.Aligned "Ab = x") ∧
    (Named.parse 8 "(AB A)" = .ok (.app (.leaf ⟨"AB"⟩) (.leaf ⟨"A"⟩)) ∧
      ({ definitions := [("AB", .sym "x")] } : Session).resolve "(AB A)"
        (.app (.leaf ⟨"AB"⟩) (.leaf ⟨"A"⟩)) = .error (.fault (.undefined "(AB A)" "A" 4 5)) ∧
      (Fault.undefined "(AB A)" "A" 4 5).report.Aligned "(AB A)") := by
  have hparse : Named.parse 8 "(x" = .error (.fault (.malformed "(x" .incomplete 2)) := by
    decide +kernel
  have hsplit : Line.split "Ab = x" = .error (.notDefinition "Ab = x" 2) := by decide +kernel
  have hterm : Named.parse 8 "(AB A)" = .ok (.app (.leaf ⟨"AB"⟩) (.leaf ⟨"A"⟩)) := by decide +kernel
  have hresolve : ({ definitions := [("AB", .sym "x")] } : Session).resolve "(AB A)"
      (.app (.leaf ⟨"AB"⟩) (.leaf ⟨"A"⟩)) = .error (.fault (.undefined "(AB A)" "A" 4 5)) := by
    decide +kernel
  exact ⟨⟨hparse, diagnoses_aligned.1 hparse⟩, ⟨hsplit, diagnoses_aligned.2.1 hsplit⟩, hterm,
    hresolve, diagnoses_aligned.2.2.1 hterm hresolve⟩

end Session
end Nameless
