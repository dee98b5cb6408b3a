import Nameless.Proofs.Line
import Nameless.Proofs.Session.Loading

/-!
# Programs one after the other

What a program makes of a session depends on the contents of its lines alone: not on their numbers,
on the blank lines and comments between them, or on what the reporter knows. Two programs that are
put together with a line feed between them have the contents of the one and then those of the other,
whatever the first one ends with. A break at its end may leave a blank line, and a carriage return
there is one break together with the line feed. So a program can be loaded in parts.

This file defines:
- `Line.contents`: the contents of the lines that are not skipped.

Main statements:
- `Text.lines_append_feed_cases`: the lines of two texts with a line feed between them,
- `Line.map_line_tasks`: what is worked on, apart from the numbers,
- `Session.load_of_parts`: a program in two parts.
-/

namespace Nameless

/-! ## Lines of two texts -/

namespace Text

theorem lines_of_isBreak {c : Char} (hc : isBreak c = true) {s : List Char}
    (hpair : ∀ rest, c = '\r' → s ≠ '\n' :: rest) : lines (c :: s) = [] :: lines s := by
  rw [lines]
  · simp [hc]
  · intro rest hreturn hs
    exact hpair rest hreturn hs

theorem lines_ne_nil {s : List Char} (h : s ≠ []) : lines s ≠ [] := by
  fun_cases lines s with
  | case1 => exact absurd rfl h
  | case2 rest => simp
  | case3 c rest _ hbreak => simp
  | case4 c rest _ hbreak => cases hlines : lines rest <;> simp [consLine]

theorem consLine_append (c : Char) {ls : List (List Char)} (h : ls ≠ []) (more : List (List Char)) :
    consLine c (ls ++ more) = consLine c ls ++ more := by
  cases ls with
  | nil => exact absurd rfl h
  | cons line rest => rfl

/-- The lines of two texts with a line feed between them are those of the one and those of the
other, with a blank line between them or not. -/
theorem lines_append_feed_cases (a b : List Char) :
    ∃ blank, (blank = [] ∨ blank = [[]]) ∧
      lines (a ++ '\n' :: b) = lines a ++ blank ++ lines b := by
  fun_induction lines a with
  | case1 => exact ⟨[[]], .inr rfl, rfl⟩
  | case2 rest ih =>
    rcases ih with ⟨blank, hblank, hlines⟩
    refine ⟨blank, hblank, ?_⟩
    have hcons : lines ('\r' :: '\n' :: rest ++ '\n' :: b) = [] :: lines (rest ++ '\n' :: b) := rfl
    rw [hcons, hlines]
    rfl
  | case3 c rest hpair hbreak ih =>
    cases rest with
    | nil =>
      -- A carriage return at the end is one break with the line feed, any other break is not.
      by_cases hreturn : c = '\r'
      · subst hreturn
        exact ⟨[], .inl rfl, rfl⟩
      · refine ⟨[[]], .inr rfl, ?_⟩
        have hcons : lines (c :: '\n' :: b) = [] :: lines ('\n' :: b) :=
          lines_of_isBreak hbreak fun _ h => absurd h hreturn
        exact hcons
    | cons d rest =>
      rcases ih with ⟨blank, hblank, hlines⟩
      refine ⟨blank, hblank, ?_⟩
      have hcons : lines (c :: (d :: rest ++ '\n' :: b)) = [] :: lines (d :: rest ++ '\n' :: b) := by
        refine lines_of_isBreak hbreak ?_
        rintro _ hreturn hfeed
        exact hpair rest hreturn (by rw [(List.cons.inj hfeed).1])
      rw [List.cons_append, hcons, hlines]
      rfl
  | case4 c rest _ hbreak ih =>
    have hplain : isBreak c = false := by simpa using hbreak
    rw [List.cons_append, lines_cons hplain]
    cases rest with
    | nil =>
      -- The line feed is the break of a last line that has none.
      exact ⟨[], .inl rfl, rfl⟩
    | cons d rest =>
      rcases ih with ⟨blank, hblank, hlines⟩
      refine ⟨blank, hblank, ?_⟩
      have hne : lines (d :: rest) ≠ [] := lines_ne_nil (by simp)
      rw [hlines, List.append_assoc, consLine_append c hne, ← List.append_assoc]

end Text

/-! ## Contents -/

namespace Line

/-- The contents of the lines that are neither blank nor comments. -/
def contents (lines : List (List Char)) : List (List Char) :=
  (lines.map content).filter (· ≠ [])

theorem contents_cons_of_skip {line : List Char} (h : content line = [])
    (lines : List (List Char)) : contents (line :: lines) = contents lines := by
  simp [contents, h]

theorem contents_cons {line : List Char} (h : content line ≠ []) (lines : List (List Char)) :
    contents (line :: lines) = content line :: contents lines := by
  simp [contents, h]

theorem contents_append (lines more : List (List Char)) :
    contents (lines ++ more) = contents lines ++ contents more := by
  simp [contents]

/-- What is worked on are the contents, with some numbers. -/
theorem map_line_tasks (number : Nat) (lines : List (List Char)) :
    (tasks number lines).map Task.line = (contents lines).map String.ofList := by
  induction lines generalizing number with
  | nil => rfl
  | cons line lines ih =>
    by_cases hcontent : content line = []
    · rw [tasks_of_skip hcontent, contents_cons_of_skip hcontent, ih]
    · rw [tasks_of_content hcontent, contents_cons hcontent, List.map_cons, List.map_cons, ih]

/-- A blank line between two texts has no content. -/
theorem contents_append_feed (a b : List Char) :
    contents (Text.lines (a ++ '\n' :: b)) =
      contents (Text.lines a) ++ contents (Text.lines b) := by
  rcases Text.lines_append_feed_cases a b with ⟨blank, hblank, hlines⟩
  have hskip : contents blank = [] := by
    rcases hblank with rfl | rfl
    · rfl
    · rfl
  rw [hlines, contents_append, contents_append, hskip, List.append_nil]

end Line

/-! ## Programs in two parts -/

namespace Session

/-- A program can be loaded in parts. Two programs with a line feed between them, whatever breaks
the first one ends with, make of a session what the first one makes of it and then the second one
of that. They fail as the first part does if it fails, with what was defined up to there, and
otherwise as the second part does. -/
theorem load_of_parts (s : Session) (first second : List Char) (r : Reporter) :
    let together := s.load (first ++ '\n' :: second) r
    let begun := s.load first r
    let ended := begun.session.load second begun.reporter
    (∀ failure, begun.result = .error failure →
      together.result = .error failure ∧ together.session = begun.session) ∧
      (begun.result = .ok () →
        together.result = ended.result ∧ together.session = ended.session) := by
  intro together begun ended
  rcases addAll_eq_extend s (Line.tasks 1 (Text.lines first)) r with ⟨hbegun, hmade, _⟩
  rcases addAll_eq_extend s (Line.tasks 1 (Text.lines (first ++ '\n' :: second))) r with
    ⟨htogether, hall, _⟩
  rcases addAll_eq_extend begun.session (Line.tasks 1 (Text.lines second)) begun.reporter with
    ⟨hended, hmore, _⟩
  -- Apart from their numbers the lines are those of the one part and those of the other.
  have hlines : (Line.tasks 1 (Text.lines (first ++ '\n' :: second))).map Task.line =
      (Line.tasks 1 (Text.lines first) ++ Line.tasks 1 (Text.lines second)).map Task.line := by
    simp only [List.map_append, Line.map_line_tasks, Line.contents_append_feed]
  rcases extend_congr s hlines with ⟨hresult, hsession⟩
  rw [extend_append] at hresult hsession
  rcases hfirst : s.extend (Line.tasks 1 (Text.lines first)) with ⟨s', warnings, _ | stopped⟩
  · rw [hfirst] at hbegun hmade hresult hsession
    have hs' : begun.session = s' := hmade
    have hrest : ended.result = (s'.extend (Line.tasks 1 (Text.lines second))).result :=
      hs' ▸ hended
    have hrest' : ended.session = (s'.extend (Line.tasks 1 (Text.lines second))).session :=
      hs' ▸ hmore
    have hloaded : begun.result = .ok () := hbegun
    refine ⟨fun failure hfailed => ?_, fun _ => ?_⟩
    · rw [hloaded] at hfailed
      cases hfailed
    · exact ⟨htogether.trans (hresult.trans hrest.symm), hall.trans (hsession.trans hrest'.symm)⟩
  · rw [hfirst] at hbegun hmade hresult hsession
    have hstopped : begun.result = .error stopped.2 := hbegun
    refine ⟨fun failure hfailed => ?_, fun hloaded => ?_⟩
    · exact ⟨htogether.trans (hresult.trans (hbegun.symm.trans hfailed)),
        hall.trans (hsession.trans hmade.symm)⟩
    · rw [hstopped] at hloaded
      cases hloaded

/-- The first part ends with a carriage return and defines a name that the second part uses and then
defines anew, before a line that cannot be read. -/
theorem load_of_parts_carriage_return :
    let s : Session := { numerals := true }
    let first := "A = 2\r".toList
    let second := "B = (A 3)\r\n\x0bA = B\nC = NO\nD = A".toList
    let begun := s.load first {}
    begun.result = .ok () ∧
      (s.load (first ++ '\n' :: second) {}).result = .error (.fault (.undefined "NO" "NO" 0 2)) ∧
      (s.load (first ++ '\n' :: second) {}).session.definitions =
        (begun.session.load second begun.reporter).session.definitions ∧
      (s.load (first ++ '\n' :: second) {}).session.definitions.names = ["A", "B"] := by
  intro s first second begun
  have hbegun : begun.result = .ok () := by decide +kernel
  rcases (load_of_parts s first second {}).2 hbegun with ⟨hresult, hsession⟩
  have hended : (begun.session.load second begun.reporter).result =
      .error (.fault (.undefined "NO" "NO" 0 2)) := by decide +kernel
  exact ⟨hbegun, hresult.trans hended, by rw [hsession], by decide +kernel⟩

end Session
end Nameless
