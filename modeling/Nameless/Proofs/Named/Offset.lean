import Nameless.Proofs.Named.Locality

/-!
# Reading from an offset

A term is read from an offset on as if the text started there. What stands before that offset only
adds to the offsets that are given, and what stands behind the term matters only if a name at its
end runs on.

Reading a term asks for the terms inside it. These stand further on in the text, so all that is
asked for is the reading of shorter texts, and what was read is taken off them. Therefore reading
comes to an end, and a depth beyond the length of the text makes no difference.

This file defines:
- `Named.Parser.Advances`: readers that take something off every text they read,
- `Named.Parser.AgreeBelow`: readers that do the same on shorter texts,
- `Named.RefusesAt`: a fault of syntax, and where it is reported.

Main statements:
- `Named.Parser.abstraction_congr`, `Named.Parser.parenthesis_congr`: a term is read by reading
  shorter texts,
- `Named.Parser.term_eq_of_length_lt`: depths beyond the length of a text are all the same,
- `Named.parseAt_is_local`: reading depends on what it passes over, and on nothing else.
-/

namespace Nameless

namespace Text

/-- The last character of what is cut off the front decides whether a name runs on. -/
theorem apart_take_iff {s rest : List Char} {n : Nat} (hpos : 0 < n) (hle : n ≤ s.length) :
    Apart (s.take n) rest ↔ ∀ c ∈ s[n - 1]?, ∀ d ∈ rest.head?, joins c d = false := by
  have hlast : (s.take n).getLast? = s[n - 1]? := by
    rw [List.getLast?_take, if_neg (Nat.ne_of_gt hpos), List.getElem?_eq_getElem (by omega)]
    rfl
  rw [Apart, hlast]

end Text

namespace Named.Parser

open Text (skipBlanks)
open Token (Leads)

/-! ## Shorter texts -/

/-- Whatever the reader reads, it takes something off the text. -/
def Advances (read : List Char → Result) : Prop :=
  ∀ s t rest, read s = .ok (t, rest) → rest.length < s.length

/-- The two readers do the same on every text that is shorter. -/
def AgreeBelow (s : List Char) (read read' : List Char → Result) : Prop :=
  ∀ s', s'.length < s.length → read s' = read' s'

variable {read read' : List Char → Result}

theorem term_advances (depth : Nat) : Advances (term depth) :=
  fun _ _ _ h => (reads_of_term h).length_lt

theorem Advances.abstraction (h : Advances read) : Advances (abstraction read) := by
  intro s t rest hs
  rcases abstraction_eq_ok hs with ⟨_, _, s', _, _, hperiod, hbody, _⟩
  exact Nat.lt_trans (h _ _ _ hbody) (length_lt_of_period hperiod)

theorem Advances.parenthesis (h : Advances read) : Advances (parenthesis read) := by
  intro s t rest hs
  rcases parenthesis_eq_ok hs with ⟨fn, s₁, hfn, ⟨hclosing, _⟩ | ⟨arg, s₂, harg, hclosing, _⟩⟩
  · have hlt₁ := h _ _ _ hfn
    have hlt₂ := (Token.leads_closing.2 hclosing).length_lt
    omega
  · have hlt₁ := h _ _ _ hfn
    have hblanks := Text.length_skipBlanks_le s₁
    have hlt₂ := h _ _ _ harg
    have hlt₃ := (Token.leads_closing.2 (expect_eq_ok_iff.1 hclosing)).length_lt
    omega

theorem abstraction_congr {sign : Char} {s : List Char} (h : AgreeBelow (sign :: s) read read') :
    abstraction read s = abstraction read' s := by
  unfold abstraction
  simp only
  split
  · rfl
  · cases hperiod : expect '.' ((skipBlanks s).dropWhile isLower) with
    | error refusal => rfl
    | ok s' =>
      have hlt := length_lt_of_period hperiod
      have hbody : read s' = read' s' := h s' (Nat.lt_succ_of_lt hlt)
      simp only [bind, Except.bind, hbody]

theorem parenthesis_congr {sign : Char} {s : List Char} (hread : Advances read)
    (h : AgreeBelow (sign :: s) read read') : parenthesis read s = parenthesis read' s := by
  have hfn : read s = read' s := h s (Nat.lt_succ_self _)
  unfold parenthesis
  rw [← hfn]
  cases hs : read s with
  | error refusal => rfl
  | ok result =>
    rcases result with ⟨fn, s₁⟩
    -- The argument is read from what the function leaves.
    have hlt := hread _ _ _ hs
    have hblanks := Text.length_skipBlanks_le s₁
    have harg : read (skipBlanks s₁) = read' (skipBlanks s₁) := by
      apply h
      rw [List.length_cons]
      omega
    simp only [bind, Except.bind]
    split
    · rfl
    · rw [harg]

theorem term_eq_of_length_lt {depth depth' : Nat} {s : List Char} (h : s.length < depth)
    (h' : s.length < depth') : term depth s = term depth' s := by
  -- One level asks the level below for shorter texts only, and there both depths still suffice.
  induction depth generalizing depth' s with
  | zero => omega
  | succ depth ih =>
    cases depth' with
    | zero => omega
    | succ depth' =>
      have hblanks := Text.length_skipBlanks_le s
      unfold term
      cases hs : skipBlanks s with
      | nil => rfl
      | cons c rest =>
        rw [hs] at hblanks
        have hagree : AgreeBelow (c :: rest) (term depth) (term depth') :=
          fun s' hs' => ih (by omega) (by omega)
        simp only [abstraction_congr hagree, parenthesis_congr (term_advances depth) hagree]

/-- What is left where the reading of a term stops is an end of the text. -/
theorem length_le_of_malformed {depth : Nat} {s rest : List Char} {cause : SyntaxFault}
    (h : term depth s = .error (.malformed cause rest)) : rest.length ≤ s.length := by
  cases rest with
  | nil => exact Nat.zero_le _
  | cons c rest =>
    rcases term_haltsLocally depth cause s c rest h with ⟨_, before, rfl, _⟩
    rw [List.length_append]
    exact Nat.le_add_left _ _

end Named.Parser

namespace Named

/-! ## Offsets -/

/-- Reading from an offset on meets a fault of syntax, which is reported at `start`. -/
def RefusesAt (depth : Nat) (text : String) (offset : Nat) (start : Int) : Prop :=
  ∃ fault, parseAt depth text offset = .error (.fault fault) ∧
    fault.report.category = .invalidSyntax ∧ fault.report.start = start

variable {depth : Nat} {text : String} {offset : Nat}

theorem parseAt_eq_ok_iff {t : Named Reference} {stop : Nat} :
    parseAt depth text offset = .ok (t, stop) ↔
      ∃ rest, Parser.term depth (text.toList.drop offset) = .ok (t, rest) ∧
        stop = text.length - rest.length := by
  unfold parseAt
  cases Parser.term depth (text.toList.drop offset) with
  | error refusal => simp
  | ok result =>
    rcases result with ⟨u, rest⟩
    constructor
    · intro h
      cases h
      exact ⟨rest, rfl, rfl⟩
    · rintro ⟨_, h, rfl⟩
      cases h
      rfl

theorem refusesAt_iff {start : Int} :
    RefusesAt depth text offset start ↔
      ∃ cause rest, Parser.term depth (text.toList.drop offset) = .error (.malformed cause rest) ∧
        start = (text.length - rest.length : Nat) := by
  unfold RefusesAt parseAt
  cases Parser.term depth (text.toList.drop offset) with
  | ok result => simp
  | error refusal =>
    cases refusal with
    | tooDeep => simp [Refusal.failure]
    | malformed cause rest =>
      constructor
      · rintro ⟨fault, hfault, _, rfl⟩
        cases hfault
        exact ⟨cause, rest, rfl, rfl⟩
      · rintro ⟨_, _, h, rfl⟩
        cases h
        exact ⟨_, rfl, rfl, rfl⟩

theorem drop_length_append (pre text : String) :
    (pre ++ text).toList.drop pre.length = text.toList := by
  rw [String.toList_append, ← String.length_toList, List.drop_left]

theorem parseAt_behind_iff (pre : String) {t : Named Reference} {stop : Nat} :
    parseAt depth (pre ++ text) pre.length = .ok (t, stop) ↔
      ∃ e, stop = pre.length + e ∧ parseAt depth text 0 = .ok (t, e) := by
  simp only [parseAt_eq_ok_iff, drop_length_append, List.drop_zero, String.length_append]
  -- The same is left of both texts, so the offsets differ by what stands before.
  constructor
  · rintro ⟨rest, hterm, rfl⟩
    have hlt := Parser.term_advances depth _ _ _ hterm
    rw [String.length_toList] at hlt
    exact ⟨_, by omega, rest, hterm, rfl⟩
  · rintro ⟨_, rfl, rest, hterm, rfl⟩
    have hlt := Parser.term_advances depth _ _ _ hterm
    rw [String.length_toList] at hlt
    exact ⟨rest, hterm, by omega⟩

theorem refusesAt_behind_iff (pre : String) {start : Int} :
    RefusesAt depth (pre ++ text) pre.length (pre.length + start) ↔
      RefusesAt depth text 0 start := by
  simp only [refusesAt_iff, drop_length_append, List.drop_zero, String.length_append]
  refine exists_congr fun cause => exists_congr fun rest => and_congr_right fun hterm => ?_
  have hle := Parser.length_le_of_malformed hterm
  rw [String.length_toList] at hle
  omega

theorem parseAt_before_iff {t : Named Reference} {e : Nat} (h : parseAt depth text 0 = .ok (t, e)) :
    0 < e ∧ e ≤ text.length ∧ ∀ rest : String,
      parseAt depth (String.ofList (text.toList.take e) ++ rest) 0 = .ok (t, e) ↔
        Text.Apart (text.toList.take e) rest.toList := by
  rcases parseAt_eq_ok_iff.1 h with ⟨tail, hterm, rfl⟩
  rw [List.drop_zero] at hterm
  rcases Parser.term_local depth t _ _ hterm with ⟨before, hsplit, hne, _, hagain⟩
  have hlength : text.length = before.length + tail.length := by
    rw [← String.length_toList, hsplit, List.length_append]
  have hpos : 0 < before.length := List.length_pos_iff.2 hne
  have hstop : text.length - tail.length = before.length := by omega
  rw [hstop, hsplit, List.take_left]
  refine ⟨hpos, by omega, ?_⟩
  intro rest
  rw [parseAt_eq_ok_iff, List.drop_zero, String.toList_append, String.toList_ofList,
    String.length_append, String.length_ofList]
  constructor
  · rintro ⟨tail', hterm', hstop'⟩
    -- Reading ends where it did, so what it leaves is the rest.
    rcases Parser.term_local depth t _ _ hterm' with ⟨before', hsplit', _, hapart, _⟩
    have hsum := congrArg List.length hsplit'
    rw [List.length_append, List.length_append, String.length_toList] at hsum
    rcases List.append_inj hsplit' (by omega) with ⟨rfl, rfl⟩
    exact hapart
  · intro hapart
    refine ⟨rest.toList, hagain _ hapart, ?_⟩
    rw [String.length_toList]
    omega

/-- A depth beyond the length of the text is enough, and more makes no difference. -/
theorem parseAt_of_length_lt (h : text.length < depth) :
    ((∃ t e, parseAt depth text 0 = .ok (t, e)) ∨ ∃ start, RefusesAt depth text 0 start) ∧
      ∀ depth', text.length < depth' → parseAt depth' text 0 = parseAt depth text 0 := by
  rw [← String.length_toList] at h
  constructor
  · cases hterm : Parser.term depth text.toList with
    | ok result => exact .inl ⟨result.1, _, parseAt_eq_ok_iff.2 ⟨result.2, hterm, rfl⟩⟩
    | error refusal =>
      cases refusal with
      | malformed cause rest => exact .inr ⟨_, refusesAt_iff.2 ⟨cause, rest, hterm, rfl⟩⟩
      | tooDeep => exact absurd hterm (Parser.term_ne_tooDeep h)
  · intro depth' h'
    rw [← String.length_toList] at h'
    rw [parseAt, parseAt, List.drop_zero, Parser.term_eq_of_length_lt h' h]

/-- Reading from an offset on gives what reading from the start gives of a text without the part
before it, with the offsets moved: the same term, or a fault of syntax. A term that was read is read
again if anything else follows it, unless that goes on with a name at its end. All three functions
that read terms take something off the text, and the two for longer terms ask for the reading of
texts that are shorter than the one with their sign. So reading comes to an end: at all depths
beyond the length of the text it has the same outcome, a term or a fault of syntax. -/
theorem parseAt_is_local (depth : Nat) (text : String) :
    (∀ (pre : String) (t : Named Reference) (stop : Nat),
        parseAt depth (pre ++ text) pre.length = .ok (t, stop) ↔
          ∃ e, stop = pre.length + e ∧ parseAt depth text 0 = .ok (t, e)) ∧
      (∀ (pre : String) (start : Int),
        RefusesAt depth (pre ++ text) pre.length (pre.length + start) ↔
          RefusesAt depth text 0 start) ∧
      (∀ (t : Named Reference) (e : Nat), parseAt depth text 0 = .ok (t, e) →
        0 < e ∧ e ≤ text.length ∧ ∀ rest : String,
          parseAt depth (String.ofList (text.toList.take e) ++ rest) 0 = .ok (t, e) ↔
            ∀ c ∈ text.toList[e - 1]?, ∀ d ∈ rest.toList.head?, Text.joins c d = false) ∧
      (Parser.Advances (Parser.term depth) ∧
        ∀ read, Parser.Advances read →
          Parser.Advances (Parser.abstraction read) ∧ Parser.Advances (Parser.parenthesis read) ∧
          ∀ sign s read', Parser.AgreeBelow (sign :: s) read read' →
            Parser.abstraction read s = Parser.abstraction read' s ∧
              Parser.parenthesis read s = Parser.parenthesis read' s) ∧
      (text.length < depth →
        ((∃ t e, parseAt depth text 0 = .ok (t, e)) ∨ ∃ start, RefusesAt depth text 0 start) ∧
          ∀ depth', text.length < depth' → parseAt depth' text 0 = parseAt depth text 0) := by
  refine ⟨fun pre t stop => parseAt_behind_iff pre, fun pre start => refusesAt_behind_iff pre, ?_,
    ⟨Parser.term_advances depth, ?_⟩, parseAt_of_length_lt⟩
  · intro t e h
    rcases parseAt_before_iff h with ⟨hpos, hle, hrest⟩
    refine ⟨hpos, hle, fun rest => (hrest rest).trans (Text.apart_take_iff hpos ?_)⟩
    rwa [String.length_toList]
  · intro read hread
    refine ⟨hread.abstraction, hread.parenthesis, ?_⟩
    intro sign s read' hagree
    exact ⟨Parser.abstraction_congr hagree, Parser.parenthesis_congr hread hagree⟩

/-- The variable `xy` is read at the start of a text and behind `(λ`. It stays the same before a
capital and becomes another one before a letter. A parenthesis that is not closed is reported at the
end of the text. Five levels do for the four characters of `λx.y`, and six do not change that. -/
theorem parseAt_is_local_variable :
    (parseAt 8 "xy." 0 = .ok (sym "xy", 2) ∧ parseAt 8 ("(λ" ++ "xy.") 2 = .ok (sym "xy", 4) ∧
      parseAt 8 ("xy" ++ "Z") 0 = .ok (sym "xy", 2) ∧
      parseAt 8 ("xy" ++ "z") 0 ≠ .ok (sym "xy", 2)) ∧
    (RefusesAt 8 "(x" 0 2 ∧ RefusesAt 8 (".. " ++ "(x") 3 5) ∧
    (Parser.AgreeBelow ('λ' :: "x.y".toList) (Parser.term 5) (Parser.term 6) ∧
      Parser.abstraction (Parser.term 5) "x.y".toList =
        Parser.abstraction (Parser.term 6) "x.y".toList) ∧
    "λx.y".length < 5 ∧ parseAt 6 "λx.y" 0 = parseAt 5 "λx.y" 0 := by
  have hname : parseAt 8 "xy." 0 = .ok (sym "xy", 2) := by decide +kernel
  have hfault : RefusesAt 8 "(x" 0 2 :=
    ⟨.malformed "(x" .incomplete 2, by decide +kernel, rfl, rfl⟩
  have hagree : Parser.AgreeBelow ('λ' :: "x.y".toList) (Parser.term 5) (Parser.term 6) := by
    intro s hs
    have hshort : s.length < 4 := hs
    exact Parser.term_eq_of_length_lt (by omega) (by omega)
  have hshort : "λx.y".length < 5 := by decide
  have hlast : "xy.".toList[2 - 1]? = some 'y' := rfl
  have hcapital : "Z".toList.head? = some 'Z' := rfl
  rcases parseAt_is_local 8 "xy." with ⟨hbehind, _, hbefore, _⟩
  have hrest := (hbefore _ _ hname).2.2
  have hcalls := (parseAt_is_local 5 "λx.y").2.2.2.1
  refine ⟨⟨hname, (hbehind "(λ" _ _).2 ⟨2, rfl, hname⟩, (hrest "Z").2 ?_, ?_⟩,
    ⟨hfault, ((parseAt_is_local 8 "(x").2.1 ".. " 2).2 hfault⟩,
    ⟨hagree, ((hcalls.2 _ hcalls.1).2.2 'λ' _ _ hagree).1⟩, hshort,
    ((parseAt_is_local 5 "λx.y").2.2.2.2 hshort).2 6 (by decide)⟩
  · intro c hc d hd
    rcases Option.some.inj (hlast.symm.trans hc) with rfl
    rcases Option.some.inj (hcapital.symm.trans hd) with rfl
    rfl
  · intro hz
    have hjoins : Text.joins 'y' 'z' = false := (hrest "z").1 hz 'y' hlast 'z' rfl
    cases hjoins

end Named
end Nameless
