import Nameless.Named.Printer
import Nameless.Proofs.Named.Grammar

/-!
# Reading what is written

A term that is written down is read as that term, up to its end. For terms as they are printed this
needs names of variables that are names of variables, and no further letter right behind the term.

Main statements:
- `Named.reads_chars`: a printed term is read up to where it ends,
- `Named.parse_text`: reading the text of a term gives the term,
- `Named.Parser.term_reference`: a name of a definition is read as a reference,
- `Named.Parser.term_abstraction`: a backslash, a name, a period and a body are read as an
  abstraction,
- `Named.parse_abstraction_reference`: reading an abstraction whose body is a reference.
-/

namespace Nameless
namespace Named

open Token (Leads)

namespace Parser

/-! ## Pieces -/

/-- A name is read up to where it ends. -/
theorem term_reference {name rest : List Char} (hname : Line.isName name = true)
    (hrest : ∀ d ∈ rest.head?, isUpperOrDigit d = false) (depth : Nat) :
    term (depth + 1) (name ++ rest) = .ok (leaf ⟨String.ofList name⟩, rest) := by
  have hwritten : (Token.ref (String.ofList name)).WrittenAs name :=
    ⟨String.toList_ofList.symm, hname⟩
  exact term_ref (.of_writtenAs hwritten hrest) depth

/-- A backslash, the name of a variable, a period and a body are read as an abstraction. -/
theorem term_abstraction {name : List Char} (hname : isVariable name = true) {depth : Nat}
    {s rest : List Char} {body : Named Reference} (hbody : term depth s = .ok (body, rest)) :
    term (depth + 1) ('\\' :: (name ++ '.' :: s)) =
      .ok (abs (String.ofList name) body, rest) := by
  have hwritten : (Token.sym (String.ofList name)).WrittenAs name :=
    ⟨String.toList_ofList.symm, hname⟩
  have hbinder : Leads (name ++ '.' :: s) (.sym (String.ofList name)) ('.' :: s) :=
    .of_writtenAs hwritten (by simp [Token.extendedBy, isLower])
  have hperiod : Leads ('.' :: s) .period s := Token.leads_period.2 rfl
  exact abstraction_of_leads hbinder hperiod hbody

end Parser

/-- Reading a reference that stands alone. -/
theorem parse_reference {name : List Char} (hname : Line.isName name = true) {depth : Nat}
    (hdepth : 0 < depth) :
    parse depth (String.ofList name) = .ok (leaf ⟨String.ofList name⟩) := by
  rcases Nat.exists_eq_add_of_le' hdepth with ⟨depth', rfl⟩
  have hend : ∀ d ∈ ([] : List Char).head?, isUpperOrDigit d = false := by simp
  have hterm := Parser.term_reference hname hend depth'
  rw [List.append_nil] at hterm
  have hwhole : Parser.whole (depth' + 1) name = .ok (leaf ⟨String.ofList name⟩) := by
    unfold Parser.whole
    rw [hterm]
    rfl
  unfold parse
  rw [String.toList_ofList, hwhole]

/-- Reading an abstraction whose body is a reference. -/
theorem parse_abstraction_reference {name ref : String} (hname : isVariable name.toList = true)
    (href : Line.isName ref.toList = true) {depth : Nat} (hdepth : 2 ≤ depth) :
    parse depth (String.ofList ('\\' :: (name.toList ++ '.' :: ref.toList))) =
      .ok (abs name (leaf ⟨ref⟩)) := by
  rcases Nat.exists_eq_add_of_le' hdepth with ⟨depth', rfl⟩
  have hend : ∀ d ∈ ([] : List Char).head?, isUpperOrDigit d = false := by simp
  have hterm := Parser.term_abstraction hname (Parser.term_reference href hend depth')
  rw [List.append_nil] at hterm
  have hwhole : Parser.whole (depth' + 2) ('\\' :: (name.toList ++ '.' :: ref.toList)) =
      .ok (abs name (leaf ⟨ref⟩)) := by
    unfold Parser.whole
    rw [hterm]
    simp only [String.ofList_toList]
    rfl
  unfold parse
  rw [String.toList_ofList, hwhole]

/-! ## Printed terms -/

theorem reads_chars {t : Named Empty} (ht : t.Lettered) {rest : List Char}
    (hrest : ∀ c ∈ rest.head?, isLower c = false) : Reads (t.chars ++ rest) t.embed rest := by
  induction t generalizing rest with
  | abs name body ih =>
    have hlambda : Leads ('λ' :: (name.toList ++ '.' :: (body.chars ++ rest))) .lambda
        (name.toList ++ '.' :: (body.chars ++ rest)) := Token.leads_lambda.2 ⟨'λ', rfl, rfl⟩
    have hname : Leads (name.toList ++ '.' :: (body.chars ++ rest)) (.sym name)
        ('.' :: (body.chars ++ rest)) := .of_variable ht.1 (by simp [isLower])
    have hperiod : Leads ('.' :: (body.chars ++ rest)) .period (body.chars ++ rest) :=
      Token.leads_period.2 rfl
    simpa [chars, embed, map] using Reads.abstraction hlambda hname hperiod (ih ht.2 hrest)
  | app fn arg ihf iha =>
    have hopening : Leads ('(' :: (fn.chars ++ ' ' :: (arg.chars ++ ')' :: rest))) .opening
        (fn.chars ++ ' ' :: (arg.chars ++ ')' :: rest)) := Token.leads_opening.2 rfl
    -- The blank behind the function and the parenthesis behind the argument end their names.
    have hfn : Reads (fn.chars ++ ' ' :: (arg.chars ++ ')' :: rest)) fn.embed
        (' ' :: (arg.chars ++ ')' :: rest)) := ihf ht.1 (by simp [isLower])
    have harg : Reads (arg.chars ++ ')' :: rest) arg.embed (')' :: rest) :=
      iha ht.2 (by simp [isLower])
    have hclosing : Leads (')' :: rest) .closing rest := Token.leads_closing.2 rfl
    simpa [chars, embed, map] using Reads.application hopening hfn (harg.blank rfl) hclosing
  | sym name => exact .symbol (.of_variable ht hrest)
  | leaf x => exact x.elim

theorem grammatical_text {t : Named Empty} (ht : t.Lettered) : Grammatical t.text t.embed := by
  have hreads : Reads (t.chars ++ []) t.embed [] := reads_chars ht (by simp)
  refine grammatical_iff_reads.2 ⟨[], ?_, rfl⟩
  simpa [text] using hreads

theorem parse_text {t : Named Empty} (ht : t.Lettered) {depth : Nat}
    (hdepth : t.text.length < depth) : parse depth t.text = .ok t.embed :=
  parse_of_grammatical (grammatical_text ht) hdepth

end Named
end Nameless
