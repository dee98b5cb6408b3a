import Mathlib.Data.List.DropRight
import Nameless.Proofs.Named.Token
import Nameless.Shell

/-!
# How lines are taken apart

A definition is a name, some blanks, an equals sign and the text of a term. A program and the shell
look at it in different ways: a program splits it at its first equals sign, while the shell first
splits off the characters of its first word, and puts the line together again if the word is the one
that stands for the end of the input. Both come to the same name and the same text.

This file defines:
- `Text.Trimmed`: no blanks at either end,
- `Text.unlines`: lines put together to a text,
- `Line.written`: a definition as it is written,
- `Command.entered?`: the entry that a command is, if it is one.

Main statements:
- `Text.trimmed_trim`, `Text.exists_blanks_trim`, `Text.trim_surrounded`: trimming takes away the
  blanks at both ends, and nothing else,
- `Text.lines_unlines`, `Text.not_isBreak_of_mem_lines`: lines are put together and cut apart again,
- `Line.split_eq_ok`, `Line.split_written`: which lines can be split, and into what,
- `Command.entered?_of_comment`, `Command.entered?_of_written`: what the shell is left with of the
  lines of a program,
- `Command.read_eq_exit_iff`, `Command.read_eq_endOfInput_iff`: the lines that end the shell.
-/

namespace Nameless

/-! ## Trimming -/

namespace Text

/-- No blank stands at either end. -/
def Trimmed (s : List Char) : Prop :=
  (∀ c ∈ s.head?, isBlank c = false) ∧ ∀ c ∈ s.getLast?, isBlank c = false

theorem trimmed_trim (s : List Char) : Trimmed (trim s) := by
  constructor
  · intro c hc
    rcases List.rdropWhile_prefix isBlank (skipBlanks s) with ⟨blanks, hsplit⟩
    have hhead : (skipBlanks s).head? = some c := by
      rw [← hsplit]
      exact List.mem_head?_append_of_mem_head? hc
    have hnot := List.head?_dropWhile_not isBlank s
    rw [skipBlanks] at hhead
    rw [hhead] at hnot
    exact hnot
  · intro c hc
    rcases List.mem_getLast?_eq_getLast hc with ⟨hne, rfl⟩
    have hlast := List.rdropWhile_last_not isBlank (skipBlanks s) hne
    exact Bool.eq_false_iff.2 hlast

/-- Trimming takes away blanks and nothing else. -/
theorem exists_blanks_trim (s : List Char) :
    ∃ before after, (∀ c ∈ before, isBlank c = true) ∧ (∀ c ∈ after, isBlank c = true) ∧
      s = before ++ trim s ++ after := by
  refine ⟨s.takeWhile isBlank, (skipBlanks s).rtakeWhile isBlank, ?_, ?_, ?_⟩
  · exact fun c hc => List.mem_takeWhile_imp hc
  · exact fun c hc => List.mem_rtakeWhile_imp hc
  · have hright : trim s ++ (skipBlanks s).rtakeWhile isBlank = skipBlanks s :=
      List.rdropWhile_append_rtakeWhile
    rw [List.append_assoc, hright]
    exact List.takeWhile_append_dropWhile.symm

/-- Whatever blanks stand around it, a text that is trimmed comes out of trimming. -/
theorem trim_surrounded {before s after : List Char} (hbefore : ∀ c ∈ before, isBlank c = true)
    (hs : Trimmed s) (hafter : ∀ c ∈ after, isBlank c = true) :
    trim (before ++ s ++ after) = s := by
  have hright : ∀ t, (t ++ after).rdropWhile isBlank = t.rdropWhile isBlank := by
    intro t
    have hreverse : ∀ c ∈ after.reverse, isBlank c = true :=
      fun c hc => hafter c (List.mem_reverse.1 hc)
    rw [List.rdropWhile, List.reverse_append, List.dropWhile_append_of_pos hreverse]
    rfl
  cases s with
  | nil =>
    have hall : skipBlanks (before ++ [] ++ after) = [] := by
      rw [List.append_nil]
      refine List.dropWhile_eq_nil_iff.2 ?_
      exact List.forall_mem_append.2 ⟨hbefore, hafter⟩
    rw [trim, hall]
    rfl
  | cons c tail =>
    have hleft : skipBlanks (before ++ c :: tail ++ after) = c :: tail ++ after := by
      rw [List.append_assoc, skipBlanks, List.dropWhile_append_of_pos hbefore]
      exact List.dropWhile_cons_of_neg (by simp [hs.1 c rfl])
    have hlast : (c :: tail).rdropWhile isBlank = c :: tail := by
      refine List.rdropWhile_eq_self_iff.2 ?_
      intro hne hblank
      rw [hs.2 _ (List.getLast?_eq_some_getLast hne)] at hblank
      cases hblank
    calc trim (before ++ c :: tail ++ after)
        = (c :: tail ++ after).rdropWhile isBlank := by rw [trim, hleft]; rfl
      _ = c :: tail := by rw [hright, hlast]

theorem trim_of_trimmed {s : List Char} (h : Trimmed s) : trim s = s := by
  have htrim : trim ([] ++ s ++ []) = s := trim_surrounded (by simp) h (by simp)
  simpa using htrim

theorem blank_of_trim_eq_nil {s : List Char} (h : trim s = []) : ∀ c ∈ s, isBlank c = true := by
  rcases exists_blanks_trim s with ⟨before, after, hbefore, hafter, hs⟩
  rw [h, List.append_nil] at hs
  rw [hs]
  exact List.forall_mem_append.2 ⟨hbefore, hafter⟩

theorem trimmed_append {s t : List Char} (hs : s ≠ []) (ht : t ≠ []) :
    Trimmed (s ++ t) ↔
      (∀ c ∈ s.head?, isBlank c = false) ∧ ∀ c ∈ t.getLast?, isBlank c = false := by
  rw [Trimmed, List.head?_append_of_ne_nil s hs, List.getLast?_append_of_ne_nil s ht]

/-! ## Lines of a text -/

/-- The text of some lines, each of them ended by a line feed. -/
def unlines (ls : List (List Char)) : List Char :=
  ls.flatMap (· ++ ['\n'])

theorem lines_cons {c : Char} (hc : isBreak c = false) (s : List Char) :
    lines (c :: s) = consLine c (lines s) := by
  have hreturn : c ≠ '\r' := by
    rintro rfl
    cases hc
  rw [lines]
  · simp [hc]
  · intro rest heq
    exact absurd heq hreturn

theorem lines_append_feed {line : List Char} (h : ∀ c ∈ line, isBreak c = false)
    (rest : List Char) : lines (line ++ '\n' :: rest) = line :: lines rest := by
  induction line with
  | nil => rfl
  | cons c line ih =>
    rcases List.forall_mem_cons.1 h with ⟨hc, hline⟩
    rw [List.cons_append, lines_cons hc, ih hline]
    rfl

theorem lines_unlines {ls : List (List Char)} (h : ∀ line ∈ ls, ∀ c ∈ line, isBreak c = false) :
    lines (unlines ls) = ls := by
  induction ls with
  | nil => rfl
  | cons line rest ih =>
    rcases List.forall_mem_cons.1 h with ⟨hline, hrest⟩
    have hcons : unlines (line :: rest) = line ++ '\n' :: unlines rest := by simp [unlines]
    rw [hcons, lines_append_feed hline, ih hrest]

theorem not_isBreak_of_mem_consLine {c : Char} (hc : isBreak c = false) {ls : List (List Char)}
    (h : ∀ line ∈ ls, ∀ d ∈ line, isBreak d = false) :
    ∀ line ∈ consLine c ls, ∀ d ∈ line, isBreak d = false := by
  cases ls with
  | nil => simp [consLine, hc]
  | cons line rest =>
    rcases List.forall_mem_cons.1 h with ⟨hline, hrest⟩
    exact List.forall_mem_cons.2 ⟨List.forall_mem_cons.2 ⟨hc, hline⟩, hrest⟩

/-- No line has a break in it. -/
theorem not_isBreak_of_mem_lines (s : List Char) :
    ∀ line ∈ lines s, ∀ c ∈ line, isBreak c = false := by
  fun_induction lines s with
  | case1 => simp
  | case2 rest ih => exact List.forall_mem_cons.2 ⟨by simp, ih⟩
  | case3 c rest _ hbreak ih => exact List.forall_mem_cons.2 ⟨by simp, ih⟩
  | case4 c rest _ hbreak ih => exact not_isBreak_of_mem_consLine (by simpa using hbreak) ih

end Text

/-! ## Definitions -/

namespace Line

/-- A definition as it is written: a name, some blanks, an equals sign and the rest. -/
def written (name blanks rest : List Char) : List Char :=
  name ++ blanks ++ '=' :: rest

/-- A name starts with one of its characters. -/
theorem exists_cons_of_isName {name : List Char} (h : isName name = true) :
    ∃ c tail, name = c :: tail ∧ isUpperOrDigit c = true := by
  cases name with
  | nil => cases h
  | cons c tail =>
    simp only [isName, Bool.and_eq_true, List.all_eq_true] at h
    exact ⟨c, tail, rfl, h.2 c List.mem_cons_self⟩

theorem isUpperOrDigit_of_isName {name : List Char} (h : isName name = true) :
    ∀ c ∈ name, isUpperOrDigit c = true := by
  simp only [isName, Bool.and_eq_true, List.all_eq_true] at h
  exact h.2

theorem trimmed_of_isName {name : List Char} (h : isName name = true) : Text.Trimmed name := by
  have hall : ∀ c ∈ name, Text.isBlank c = false :=
    fun c hc => isBlank_of_isUpperOrDigit (isUpperOrDigit_of_isName h c hc)
  exact ⟨fun c hc => hall c (List.mem_of_head? hc), fun c hc => hall c (List.mem_of_getLast? hc)⟩

/-- The content of a line that is not skipped. -/
theorem content_eq_trim {line : List Char} (h : content line ≠ []) :
    content line = Text.trim line := by
  unfold content at h ⊢
  split
  · next hcomment => exact absurd (if_pos hcomment) h
  · rfl

variable {name blanks rest : List Char}

/-- No equals sign stands in a name, nor is one blank. -/
theorem ne_equals_of_mem (hname : isName name = true)
    (hblanks : ∀ c ∈ blanks, Text.isBlank c = true) :
    ∀ c ∈ name ++ blanks, decide (c ≠ '=') = true := by
  refine List.forall_mem_append.2 ⟨?_, ?_⟩
  · intro c hc
    refine decide_eq_true ?_
    rintro rfl
    exact absurd (isUpperOrDigit_of_isName hname _ hc) (by decide)
  · intro c hc
    refine decide_eq_true ?_
    rintro rfl
    exact absurd (hblanks _ hc) (by decide)

theorem split_written (hname : isName name = true)
    (hblanks : ∀ c ∈ blanks, Text.isBlank c = true) (rest : List Char) :
    split (String.ofList (written name blanks rest)) =
      .ok (String.ofList name, String.ofList (Text.trim rest)) := by
  have hequals := ne_equals_of_mem hname hblanks
  have hnameText : nameText (written name blanks rest) = name := by
    have htake : (written name blanks rest).takeWhile (fun c => decide (c ≠ '=')) =
        name ++ blanks := by
      rw [written, List.takeWhile_append_of_pos hequals]
      simp
    have htrim : Text.trim ([] ++ name ++ blanks) = name :=
      Text.trim_surrounded (by simp) (trimmed_of_isName hname) hblanks
    rw [nameText, htake]
    exact htrim
  have htermText : termText (written name blanks rest) = Text.trim rest := by
    have hdrop : (written name blanks rest).dropWhile (fun c => decide (c ≠ '=')) =
        '=' :: rest := by
      rw [written, List.dropWhile_append_of_pos hequals]
      simp
    rw [termText, hdrop]
    rfl
  have hmem : '=' ∈ written name blanks rest := by simp [written]
  simp [split, hnameText, htermText, hname, hmem]

/-- A text with an equals sign is what stands before the first one, and what follows from there. -/
theorem exists_cut {s : List Char} (h : '=' ∈ s) :
    ∃ rest, s = s.takeWhile (· ≠ '=') ++ '=' :: rest ∧ s.dropWhile (· ≠ '=') = '=' :: rest := by
  cases hdrop : s.dropWhile (· ≠ '=') with
  | nil =>
    have hall := List.dropWhile_eq_nil_iff.1 hdrop '=' h
    simp at hall
  | cons c rest =>
    have hstop := List.head?_dropWhile_not (fun c => decide (c ≠ '=')) s
    rw [hdrop] at hstop
    have hc : c = '=' := by simpa using hstop
    subst hc
    refine ⟨rest, ?_, rfl⟩
    rw [← hdrop]
    exact List.takeWhile_append_dropWhile.symm

/-- The name at the front of a line is part of it. -/
theorem length_nameText_le (line : String) : (nameText line.toList).length ≤ line.length := by
  rcases Text.exists_blanks_trim (line.toList.takeWhile (· ≠ '=')) with ⟨before, after, _, _, hcut⟩
  have htrim := congrArg List.length hcut
  simp only [List.length_append] at htrim
  calc
    (nameText line.toList).length ≤ (line.toList.takeWhile (· ≠ '=')).length := by
      unfold nameText
      omega
    _ ≤ line.toList.length := (List.takeWhile_prefix _).length_le
    _ = line.length := String.length_toList

/-- A trimmed line that can be split is a definition as it is written. -/
theorem split_eq_ok {content : List Char} (htrimmed : Text.Trimmed content) {name expr : String}
    (h : split (String.ofList content) = .ok (name, expr)) :
    ∃ blanks rest, (∀ c ∈ blanks, Text.isBlank c = true) ∧ isName name.toList = true ∧
      content = written name.toList blanks rest ∧ expr = String.ofList (Text.trim rest) := by
  simp only [split, String.toList_ofList] at h
  split at h
  · cases h
  · next hcontains =>
    split at h
    · next hname =>
      cases h
      have hmem : '=' ∈ content := by simpa using hcontains
      rcases exists_cut hmem with ⟨rest, hcut, hdrop⟩
      rcases Text.exists_blanks_trim (content.takeWhile (· ≠ '=')) with
        ⟨before, blanks, hbefore, hblanks, hsplit⟩
      -- The line is trimmed, so no blank stands in front of its name.
      have hnone : before = [] := by
        cases before with
        | nil => rfl
        | cons b before =>
          have hblank := hbefore b List.mem_cons_self
          have hhead : b ∈ content.head? := by
            rw [hcut, hsplit]
            rfl
          rw [htrimmed.1 b hhead] at hblank
          cases hblank
      refine ⟨blanks, rest, hblanks, ?_, ?_, ?_⟩
      · rw [String.toList_ofList]
        exact hname
      · rw [hnone, List.nil_append] at hsplit
        rw [String.toList_ofList, written, nameText, ← hsplit]
        exact hcut
      · rw [termText, hdrop]
        rfl
    · cases h

theorem isComment_cons {c : Char} (hc : isUpperOrDigit c = true) (tail : List Char) :
    isComment (c :: tail) = false := by
  have hslash : c ≠ '/' := by
    rintro rfl
    exact absurd hc (by decide)
  unfold isComment
  split
  · next heq => exact absurd (List.cons.inj heq).1 hslash
  · rfl

/-- A line that starts with a name and has no blanks at its ends is its own content. -/
theorem content_append (hname : isName name = true) {s : List Char}
    (htrimmed : Text.Trimmed (name ++ s)) : content (name ++ s) = name ++ s := by
  have hcomment : isComment (name ++ s) = false := by
    rcases exists_cons_of_isName hname with ⟨c, tail, rfl, hc⟩
    exact isComment_cons hc (tail ++ s)
  rw [content, hcomment, Text.trim_of_trimmed htrimmed]
  rfl

theorem trimmed_written (hname : isName name = true) (blanks : List Char) :
    Text.Trimmed (written name blanks rest) ↔ Text.Trimmed ('=' :: rest) := by
  rcases exists_cons_of_isName hname with ⟨c, tail, rfl, hc⟩
  have hhead : Text.isBlank c = false := isBlank_of_isUpperOrDigit hc
  have hequals : Text.isBlank '=' = false := rfl
  rw [written, Text.trimmed_append (by simp) (by simp)]
  simp [Text.Trimmed, hhead, hequals]

theorem content_written (hname : isName name = true)
    (htrimmed : Text.Trimmed (written name blanks rest)) :
    content (written name blanks rest) = written name blanks rest := by
  rw [written, List.append_assoc] at htrimmed ⊢
  exact content_append hname htrimmed

end Line

/-! ## Commands -/

namespace Command

/-- The entry that a command is, if it is one. -/
def entered? : Command → Option (List Char)
  | enter line => some line
  | endOfInput [] => none
  | endOfInput arg => some ("EOF ".toList ++ arg)
  | _ => none

/-- The first word of a line. -/
def word (line : List Char) : String :=
  String.ofList ((Text.trim line).takeWhile isWordChar)

/-- The codes of the characters of command words. -/
theorem isWordChar_iff {c : Char} :
    isWordChar c = true ↔
      ((65 ≤ c.toNat ∧ c.toNat ≤ 90 ∨ 97 ≤ c.toNat ∧ c.toNat ≤ 122) ∨
        48 ≤ c.toNat ∧ c.toNat ≤ 57) ∨ c = '_' := by
  have hclasses : isWordChar c =
      (((decide ('A'.val ≤ c.val ∧ c.val ≤ 'Z'.val) ||
        decide ('a'.val ≤ c.val) && decide (c.val ≤ 'z'.val)) ||
        decide ('0'.val ≤ c.val) && decide (c.val ≤ '9'.val)) || c == '_') := rfl
  rw [hclasses]
  simp only [Bool.or_eq_true, Bool.and_eq_true, decide_eq_true_eq, UInt32.le_iff_toNat_le,
    beq_iff_eq]
  rfl

theorem isWordChar_of_isUpperOrDigit {c : Char} (h : isUpperOrDigit c = true) :
    isWordChar c = true := by
  apply isWordChar_iff.2
  rcases toNat_of_isUpperOrDigit h with hupper | hdigit
  · exact .inl (.inl (.inl hupper))
  · exact .inl (.inr hdigit)

theorem not_isWordChar_of_isBlank {c : Char} (h : Text.isBlank c = true) :
    isWordChar c = false := by
  cases hword : isWordChar c with
  | false => rfl
  | true =>
    have hcode : 48 ≤ c.toNat ∧ c.toNat ≤ 122 := by
      rcases isWordChar_iff.1 hword with hcodes | rfl
      · omega
      · decide
    simp only [Text.isBlank, Bool.or_eq_true, Bool.and_eq_true, decide_eq_true_eq,
      beq_iff_eq] at h
    omega

/-- A line that neither asks for help nor is marked as an entry is read by its first word. -/
theorem read_of_cons {line tail : List Char} {c : Char} (h : Text.trim line = c :: tail)
    (hhelp : c ≠ '?') (hmark : c ≠ '!') : read line = ofWord (c :: tail) := by
  unfold read
  rw [h]
  split
  · next heq => cases heq
  · next heq => exact absurd (List.cons.inj heq).1 hhelp
  · next heq => exact absurd (List.cons.inj heq).1 hmark
  · rfl

/-- A line with a first word is read by it. -/
theorem read_of_word {line : List Char} (h : word line ≠ "") :
    read line = ofWord (Text.trim line) := by
  cases hline : Text.trim line with
  | nil => exact absurd (by rw [word, hline]; rfl) h
  | cons c tail =>
    have hword : isWordChar c = true := by
      by_contra hnot
      exact h (by simp [word, hline, hnot])
    have hhelp : c ≠ '?' := by
      rintro rfl
      exact absurd hword (by decide)
    have hmark : c ≠ '!' := by
      rintro rfl
      exact absurd hword (by decide)
    exact read_of_cons hline hhelp hmark

theorem ofWord_of_no_word {line : List Char}
    (h : String.ofList (line.takeWhile isWordChar) = "") : ofWord line = enter line := by
  unfold ofWord
  simp [h]

/-- A line without a first word ends nothing. -/
theorem read_of_no_word {line : List Char} (h : word line = "") :
    read line = nothing ∨ read line = help ∨ read line = enter (Text.trim line) := by
  unfold read
  split
  · exact .inl rfl
  · exact .inr (.inl rfl)
  · next heq => exact .inr (.inr (by rw [heq]))
  · exact .inr (.inr (ofWord_of_no_word h))

/-- What a trimmed line asks for, by its first word. -/
theorem ofWord_cases (line : List Char) :
    let first := String.ofList (line.takeWhile isWordChar)
    (first = "defs" ∧ ofWord line = listDefinitions) ∨ (first = "help" ∧ ofWord line = help) ∨
      (first = "exit" ∧ ofWord line = exit) ∨
      (first = "EOF" ∧ ofWord line = endOfInput (Text.trim (line.dropWhile isWordChar))) ∨
      (first ≠ "exit" ∧ first ≠ "EOF" ∧ ofWord line = enter line) := by
  intro first
  unfold ofWord
  simp only
  split_ifs with hdefs hhelp hexit heof
  · exact .inl ⟨hdefs, rfl⟩
  · exact .inr (.inl ⟨hhelp, rfl⟩)
  · exact .inr (.inr (.inl ⟨hexit, rfl⟩))
  · exact .inr (.inr (.inr (.inl ⟨heof, rfl⟩)))
  · exact .inr (.inr (.inr (.inr ⟨hexit, heof, rfl⟩)))

/-- What a line asks for. Only its first word makes it end the shell. -/
theorem read_cases (line : List Char) :
    (word line = "exit" ∧ read line = exit) ∨
      (word line = "EOF" ∧
        read line = endOfInput (Text.trim ((Text.trim line).dropWhile isWordChar))) ∨
      (word line ≠ "exit" ∧ word line ≠ "EOF" ∧
        (read line = nothing ∨ read line = listDefinitions ∨ read line = help ∨
          read line = enter (Text.trim line))) := by
  by_cases hword : word line = ""
  · rw [hword]
    refine .inr (.inr ⟨by decide, by decide, ?_⟩)
    rcases read_of_no_word hword with hread | hread | hread
    · exact .inl hread
    · exact .inr (.inr (.inl hread))
    · exact .inr (.inr (.inr hread))
  · rw [read_of_word hword]
    rcases ofWord_cases (Text.trim line) with
      ⟨hdefs, hread⟩ | ⟨hhelp, hread⟩ | hexit | heof | ⟨hexit, heof, hread⟩
    · refine .inr (.inr ⟨?_, ?_, .inr (.inl hread)⟩) <;> rw [word, hdefs] <;> decide
    · refine .inr (.inr ⟨?_, ?_, .inr (.inr (.inl hread))⟩) <;> rw [word, hhelp] <;> decide
    · exact .inl hexit
    · exact .inr (.inl heof)
    · exact .inr (.inr ⟨hexit, heof, .inr (.inr (.inr hread))⟩)

theorem read_eq_exit_iff {line : List Char} : read line = exit ↔ word line = "exit" := by
  rcases read_cases line with ⟨hword, hread⟩ | ⟨hword, hread⟩ | ⟨hexit, _, hread⟩
  · simp [hword, hread]
  · simp [hword, hread]
  · rcases hread with hread | hread | hread | hread <;> simp [hread, hexit]

/-- The word that stands for the end of the input ends the shell if nothing follows it. -/
theorem read_eq_endOfInput_iff {line : List Char} :
    read line = endOfInput [] ↔ Text.trim line = "EOF".toList := by
  constructor
  · intro h
    rcases read_cases line with ⟨_, hread⟩ | ⟨hword, hread⟩ | ⟨_, _, hread⟩
    · rw [hread] at h
      cases h
    · have hempty : Text.trim ((Text.trim line).dropWhile isWordChar) = [] := by
        rw [hread] at h
        exact endOfInput.inj h
      have hcut : Text.trim line = "EOF".toList ++ (Text.trim line).dropWhile isWordChar := by
        rw [← hword, word, String.toList_ofList]
        exact List.takeWhile_append_dropWhile.symm
      -- Only blanks could follow the word, and the line does not end with one.
      have hrest : (Text.trim line).dropWhile isWordChar = [] := by
        by_contra hne
        have hlast := List.getLast_mem hne
        have hblank := Text.blank_of_trim_eq_nil hempty _ hlast
        have htrimmed := Text.trimmed_trim line
        rw [hcut, Text.trimmed_append (by decide) hne] at htrimmed
        rw [htrimmed.2 _ (List.getLast?_eq_some_getLast hne)] at hblank
        cases hblank
      rw [hcut, hrest, List.append_nil]
    · rcases hread with hread | hread | hread | hread <;> rw [hread] at h <;> cases h
  · intro h
    have hword : word line = "EOF" := by
      rw [word, h]
      decide
    rw [read_of_word (by rw [hword]; decide), h]
    decide

/-! ## The lines of a program -/

theorem exists_slashes_trim (tail : List Char) :
    ∃ rest, Text.trim ('/' :: '/' :: tail) = '/' :: '/' :: rest := by
  have hslash : Text.isBlank '/' ≠ true := by decide
  rcases Text.exists_blanks_trim ('/' :: '/' :: tail) with ⟨before, after, hbefore, hafter, hsplit⟩
  cases before with
  | cons b before =>
    rcases List.cons.inj hsplit with ⟨rfl, _⟩
    exact absurd (hbefore _ List.mem_cons_self) hslash
  | nil =>
    -- What is trimmed away at the end is blank, so the two strokes stay.
    rcases htrim : Text.trim ('/' :: '/' :: tail) with _ | ⟨c, _ | ⟨d, rest⟩⟩
    · rw [htrim] at hsplit
      have hafter' : '/' :: '/' :: tail = after := hsplit
      exact absurd (hafter '/' (by simp [← hafter'])) hslash
    · rw [htrim] at hsplit
      have hafter' : '/' :: tail = after := (List.cons.inj hsplit).2
      exact absurd (hafter '/' (by simp [← hafter'])) hslash
    · rw [htrim] at hsplit
      rcases List.cons.inj hsplit with ⟨rfl, htail⟩
      rcases List.cons.inj htail with ⟨rfl, _⟩
      exact ⟨rest, rfl⟩

/-- The shell skips what a program skips as a comment. -/
theorem entered?_of_comment {line : List Char} (h : Line.isComment line = true) :
    ∃ entry, (read line).entered? = some entry ∧ Line.content entry = [] := by
  have hslashes : ∃ tail, line = '/' :: '/' :: tail := by
    unfold Line.isComment at h
    split at h
    · exact ⟨_, rfl⟩
    · cases h
  rcases hslashes with ⟨tail, rfl⟩
  rcases exists_slashes_trim tail with ⟨rest, htrim⟩
  have hread : read ('/' :: '/' :: tail) = enter ('/' :: '/' :: rest) := by
    rw [read_of_cons htrim (by decide) (by decide)]
    exact ofWord_of_no_word rfl
  exact ⟨_, by rw [hread]; rfl, rfl⟩

/-- Only one name of a definition is a command. -/
theorem ofWord_of_name {line name : List Char} (hname : Line.isName name = true)
    (htake : line.takeWhile isWordChar = name) :
    (name = "EOF".toList ∧ ofWord line = endOfInput (Text.trim (line.dropWhile isWordChar))) ∨
      (name ≠ "EOF".toList ∧ ofWord line = enter line) := by
  have hupper : ∀ text : String, Line.isName text.toList = false → String.ofList name ≠ text := by
    rintro _ hnot rfl
    rw [String.toList_ofList, hname] at hnot
    cases hnot
  have hcases := ofWord_cases line
  rw [htake] at hcases
  rcases hcases with ⟨hdefs, _⟩ | ⟨hhelp, _⟩ | ⟨hexit, _⟩ | ⟨heof, hread⟩ | ⟨_, heof, hread⟩
  · exact absurd hdefs (hupper "defs" (by decide))
  · exact absurd hhelp (hupper "help" (by decide))
  · exact absurd hexit (hupper "exit" (by decide))
  · exact .inl ⟨by rw [← heof, String.toList_ofList], hread⟩
  · refine .inr ⟨?_, hread⟩
    rintro rfl
    exact heof String.ofList_toList

theorem word_ne_of_name {line name : List Char} (hname : Line.isName name = true)
    (htake : (Text.trim line).takeWhile isWordChar = name) : word line ≠ "" := by
  rw [word, htake]
  rcases Line.exists_cons_of_isName hname with ⟨c, tail, rfl, _⟩
  simp

theorem isWordChar_of_isName {name : List Char} (hname : Line.isName name = true) :
    ∀ c ∈ name, isWordChar c = true :=
  fun c hc => isWordChar_of_isUpperOrDigit (Line.isUpperOrDigit_of_isName hname c hc)

/-- A name by itself is an entry, apart from that one. -/
theorem entered?_of_name {name : List Char} (hname : Line.isName name = true)
    (hne : name ≠ "EOF".toList) :
    (read name).entered? = some name ∧ Line.content name = name := by
  have htrim : Text.trim name = name := Text.trim_of_trimmed (Line.trimmed_of_isName hname)
  have htake : name.takeWhile isWordChar = name :=
    List.takeWhile_eq_self_iff.2 (isWordChar_of_isName hname)
  constructor
  · rw [read_of_word (word_ne_of_name hname (htrim.symm ▸ htake)), htrim]
    rcases ofWord_of_name hname htake with ⟨heof, _⟩ | ⟨_, hread⟩
    · exact absurd heof hne
    · rw [hread]
      rfl
  · have hcontent := Line.content_append (s := []) hname
    rw [List.append_nil] at hcontent
    exact hcontent (Line.trimmed_of_isName hname)

theorem takeWhile_written {name blanks : List Char} (hname : Line.isName name = true)
    (hblanks : ∀ c ∈ blanks, Text.isBlank c = true) (rest : List Char) :
    (Line.written name blanks rest).takeWhile isWordChar = name ∧
      (Line.written name blanks rest).dropWhile isWordChar = blanks ++ '=' :: rest := by
  have hrun := isWordChar_of_isName hname
  rw [Line.written, List.append_assoc, List.takeWhile_append_of_pos hrun,
    List.dropWhile_append_of_pos hrun]
  cases blanks with
  | nil => simp [isWordChar]
  | cons b blanks =>
    have hb := not_isWordChar_of_isBlank (hblanks b List.mem_cons_self)
    simp [hb]

/-- The shell comes to the name and the term that a program comes to. -/
theorem entered?_of_written {line name blanks rest : List Char} (hname : Line.isName name = true)
    (hblanks : ∀ c ∈ blanks, Text.isBlank c = true)
    (h : Text.trim line = Line.written name blanks rest) :
    ∃ entry blanks', (read line).entered? = some entry ∧
      (∀ c ∈ blanks', Text.isBlank c = true) ∧
      Line.content entry = Line.written name blanks' rest := by
  have htrimmed : Text.Trimmed (Line.written name blanks rest) := h ▸ Text.trimmed_trim line
  have hrest : Text.Trimmed ('=' :: rest) := (Line.trimmed_written hname blanks).1 htrimmed
  rcases takeWhile_written hname hblanks rest with ⟨htake, hdrop⟩
  rw [read_of_word (word_ne_of_name hname (h ▸ htake)), h]
  rcases ofWord_of_name hname htake with ⟨rfl, hread⟩ | ⟨_, hread⟩
  · -- The line is put together again, with one blank.
    have hargument : Text.trim (blanks ++ '=' :: rest) = '=' :: rest := by
      have htrim : Text.trim (blanks ++ '=' :: rest ++ []) = '=' :: rest :=
        Text.trim_surrounded hblanks hrest (by simp)
      simpa using htrim
    rw [hread, hdrop, hargument]
    refine ⟨_, [' '], rfl, List.forall_mem_singleton.2 rfl, ?_⟩
    exact Line.content_written hname ((Line.trimmed_written hname [' ']).2 hrest)
  · rw [hread]
    exact ⟨_, blanks, rfl, hblanks, Line.content_written hname htrimmed⟩

end Command
end Nameless
