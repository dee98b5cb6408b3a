import Mathlib.Control.Monad.Basic
import Nameless.Proofs.Reporter
import Nameless.Proofs.Text.Template

/-!
# How mishaps are told

A mishap is told by its kind and its message, and escapes all the same. The wording is used as a
template with one empty snippet. Without braces it comes out as it stands. With braces it does not:
either something else is told, or the template cannot be filled in, and then nothing is told and the
fault of the template escapes in the place of the mishap.

This file defines:
- `Reporter.mishapWording`, `Reporter.mishapReport`: the wording of a mishap, and its report,
- `Reporter.tellMishap`: what becomes of a mishap that is told by a text.

Main statements:
- `Reporter.issue_unknownError_of_braceFree`: the report on a mishap without braces,
- `Reporter.leave_mishap_cases`: what becomes of any mishap,
- `Reporter.mishap_told_verbatim_iff`: which mishaps are told by their wording.
-/

namespace Nameless
namespace Reporter

open Text (BraceFree braceFree_append)

/-! ## Wording -/

/-- What is to be told of a mishap. -/
def mishapWording (m : Mishap) : String :=
  "unknown error: '" ++ m.kind ++ ": " ++ m.message ++ "'"

/-- The report on a mishap, worded without emphasis and with it. -/
def mishapReport (plain stressed : String) : Report where
  phrase := [.prepared plain stressed]
  expr := ""
  start := 0
  stop := 0
  internal := true

theorem braceFree_mishapWording {m : Mishap} :
    BraceFree (mishapWording m).toList ↔
      BraceFree m.kind.toList ∧ BraceFree m.message.toList := by
  have hfront : BraceFree "unknown error: '".toList := by decide +kernel
  have hcolon : BraceFree ": ".toList := by decide +kernel
  have hquote : BraceFree "'".toList := by decide +kernel
  unfold mishapWording
  rw [String.toList_append, String.toList_append, String.toList_append, String.toList_append,
    braceFree_append, braceFree_append, braceFree_append, braceFree_append]
  constructor
  · intro h
    exact ⟨h.1.1.1.2, h.1.2⟩
  · intro h
    exact ⟨⟨⟨⟨hfront, h.1⟩, hcolon⟩, h.2⟩, hquote⟩

/-- The snippet that the wording of a mishap is filled in with. -/
theorem braceFree_bold_empty (style : Style) :
    ∀ t ∈ [style.bold none ""], BraceFree t.toList := by
  cases style <;> decide +kernel

theorem obstacle?_unknownError (m : Mishap) : (unknownError m).obstacle? = none :=
  rfl

section Issue

variable {m : Mishap} {style : Style} {plain stressed text : String} {fault : TemplateFault}

theorem wording_unknownError_of_ok
    (h : Template.fill (mishapWording m) [style.bold none ""] = .ok text) :
    (unknownError m).wording style = .ok text := by
  have htemplate : (unknownError m).template = some (mishapWording m) := rfl
  have hsnippets : (unknownError m).snippets = [""] := rfl
  unfold Draft.wording
  simp only [htemplate, hsnippets, Option.getD_some, List.map_cons, List.map_nil, h]

theorem wording_unknownError_of_error
    (h : Template.fill (mishapWording m) [style.bold none ""] = .error fault) :
    (unknownError m).wording style = .error (.template fault) := by
  have htemplate : (unknownError m).template = some (mishapWording m) := rfl
  have hsnippets : (unknownError m).snippets = [""] := rfl
  unfold Draft.wording
  simp only [htemplate, hsnippets, Option.getD_some, List.map_cons, List.map_nil, h]

theorem issue_unknownError_of_ok
    (hstressed : Template.fill (mishapWording m) [style.bold none ""] = .ok stressed)
    (hplain : Template.fill (mishapWording m) [Style.plain.bold none ""] = .ok plain) :
    (unknownError m).issue style = .ok (mishapReport plain stressed) := by
  unfold Draft.issue
  rw [obstacle?_unknownError, wording_unknownError_of_ok hstressed,
    wording_unknownError_of_ok hplain]
  rfl

theorem issue_unknownError_of_error
    (h : Template.fill (mishapWording m) [style.bold none ""] = .error fault) :
    (unknownError m).issue style = .error (.template fault) := by
  unfold Draft.issue
  rw [obstacle?_unknownError, wording_unknownError_of_error h]
  rfl

theorem issue_unknownError_of_plain_error
    (hstressed : Template.fill (mishapWording m) [style.bold none ""] = .ok stressed)
    (hplain : Template.fill (mishapWording m) [Style.plain.bold none ""] = .error fault) :
    (unknownError m).issue style = .error (.template fault) := by
  unfold Draft.issue
  rw [obstacle?_unknownError, wording_unknownError_of_ok hstressed,
    wording_unknownError_of_error hplain]
  rfl

end Issue

/-- A mishap without braces in it is worded as it stands. -/
theorem issue_unknownError_of_braceFree {m : Mishap} (hkind : BraceFree m.kind.toList)
    (hmessage : BraceFree m.message.toList) (style : Style) :
    (unknownError m).issue style = .ok (mishapReport (mishapWording m) (mishapWording m)) := by
  have hwording := braceFree_mishapWording.2 ⟨hkind, hmessage⟩
  exact issue_unknownError_of_ok (Template.fill_of_no_brace _ hwording)
    (Template.fill_of_no_brace _ hwording)

/-! ## Telling -/

/-- The line that tells an error of the interpreter. -/
def internalLine (r : Reporter) (text : String) : String :=
  r.tracebackText ++ r.style.bold (some .red) "[internal] " ++ r.style.bold (some .red) "error: " ++
    text

/-- What becomes of a mishap that is told by a text: a fatal reporter asks the run to end, and any
other one forgets the lines in progress and lets the mishap escape. -/
def tellMishap (r : Reporter) (m : Mishap) (text : String) : Reporter × Option Failure :=
  if r.fatal then (r.print (r.internalLine text), some (.exit (.code 1)))
  else ((r.print (r.internalLine text)).clearAll, some (.mishap m))

theorem printed_tellMishap (r : Reporter) (m : Mishap) (text : String) :
    (r.tellMishap m text).1.printed = r.printed ++ r.internalLine text ++ "\n" := by
  unfold tellMishap
  split <;> rfl

theorem printError_mishapReport {r : Reporter} {m : Mishap} {plain stressed : String}
    (hstressed : Template.fill (mishapWording m) [r.style.bold none ""] = .ok stressed)
    (hplain : Template.fill (mishapWording m) [""] = .ok plain) :
    r.printError (mishapReport plain stressed) = r.print (r.internalLine stressed) := by
  have hstyled : Phrase.styled r.style (mishapReport plain stressed).phrase = stressed := by
    cases hstyle : r.style with
    | plain =>
      -- Without escape sequences the wording is filled in twice with the same snippet.
      rw [hstyle] at hstressed
      have hsame : plain = stressed := Except.ok.inj (hplain.symm.trans hstressed)
      exact String.append_empty.trans hsame
    | escaped => exact String.append_empty
  calc
    r.printError (mishapReport plain stressed)
      = r.print (r.internalLine (Phrase.styled r.style (mishapReport plain stressed).phrase)) := rfl
    _ = r.print (r.internalLine stressed) := by rw [hstyled]

theorem leave_mishap_of_error {r : Reporter} {m : Mishap} {fault : TemplateFault}
    (h : Template.fill (mishapWording m) [r.style.bold none ""] = .error fault) :
    r.leave (.mishap m) = (r, some (.mishap (.badDraft (.template fault)))) := by
  unfold leave
  simp only [issue_unknownError_of_error h]

/-- A mishap is told by the text that its wording comes to, or it is not told and a fault of its
wording escapes. -/
theorem leave_mishap_cases (r : Reporter) (m : Mishap) :
    (∃ text, Template.fill (mishapWording m) [r.style.bold none ""] = .ok text ∧
        r.leave (.mishap m) = r.tellMishap m text) ∨
      ∃ fault, (Template.fill (mishapWording m) [r.style.bold none ""] = .error fault ∨
          Template.fill (mishapWording m) [""] = .error fault) ∧
        r.leave (.mishap m) = (r, some (.mishap (.badDraft (.template fault)))) := by
  cases hstressed : Template.fill (mishapWording m) [r.style.bold none ""] with
  | error fault => exact .inr ⟨fault, .inl rfl, leave_mishap_of_error hstressed⟩
  | ok stressed =>
    cases hplain : Template.fill (mishapWording m) [""] with
    | error fault =>
      refine .inr ⟨fault, .inr rfl, ?_⟩
      unfold leave
      simp only [issue_unknownError_of_plain_error hstressed hplain]
    | ok plain =>
      refine .inl ⟨stressed, rfl, ?_⟩
      have hfatal : (r.print (r.internalLine stressed)).fatal = r.fatal := rfl
      unfold leave
      simp only [issue_unknownError_of_ok hstressed hplain, throw,
        printError_mishapReport hstressed hplain, tellMishap, hfatal]
      cases r.fatal <;> rfl

/-- What is told tells the text. -/
theorem tellMishap_injective {r : Reporter} {m : Mishap} {text text' : String}
    (h : r.tellMishap m text = r.tellMishap m text') : text = text' := by
  have hprinted := congrArg (fun outcome => outcome.1.printed) h
  simp only [printed_tellMishap, internalLine] at hprinted
  have hlines := String.append_right_inj _ |>.1 (String.append_left_inj _ |>.1 hprinted)
  exact String.append_right_inj _ |>.1 hlines

/-- Something is told. -/
theorem tellMishap_ne_self {r : Reporter} {m : Mishap} {text : String} {escaping : Option Failure} :
    r.tellMishap m text ≠ (r, escaping) := by
  intro h
  have hprinted := congrArg (fun outcome => outcome.1.printed.length) h
  simp only [printed_tellMishap, String.length_append] at hprinted
  have hfeed : "\n".length = 1 := rfl
  omega

/-- A mishap is told by its wording just if there are no braces in its kind and its message. With
braces in it another text is told, and the mishap escapes or the run ends as before; or nothing is
told, and a fault of the wording escapes in the place of the mishap. -/
theorem mishap_told_verbatim_iff (r : Reporter) (m : Mishap) :
    (r.leave (.mishap m) = r.tellMishap m (mishapWording m) ↔
        BraceFree m.kind.toList ∧ BraceFree m.message.toList) ∧
      ((∃ text, Template.fill (mishapWording m) [r.style.bold none ""] = .ok text ∧
          r.leave (.mishap m) = r.tellMishap m text) ∨
        ∃ fault, (Template.fill (mishapWording m) [r.style.bold none ""] = .error fault ∨
            Template.fill (mishapWording m) [""] = .error fault) ∧
          r.leave (.mishap m) = (r, some (.mishap (.badDraft (.template fault))))) := by
  refine ⟨?_, leave_mishap_cases r m⟩
  rw [← braceFree_mishapWording, ← Template.fill_eq_self_iff (braceFree_bold_empty r.style)]
  rcases leave_mishap_cases r m with ⟨text, hfill, hleave⟩ | ⟨fault, hfault, hleave⟩
  · rw [hleave, hfill]
    constructor
    · intro h
      rw [tellMishap_injective h]
    · intro h
      rw [Except.ok.inj h]
  · constructor
    · intro h
      exact absurd (h.symm.trans hleave) tellMishap_ne_self
    · intro h
      -- A wording that comes out as it stands has no braces, and so no fault with any snippet.
      have hwording := (Template.fill_eq_self_iff (braceFree_bold_empty r.style)).1 h
      rcases hfault with hfault | hfault
      · rw [h] at hfault
        cases hfault
      · rw [Template.fill_of_no_brace _ hwording] at hfault
        cases hfault

/-- Two slots in a message ask for a second snippet, so that nothing is told and the complaint about
the snippet escapes. -/
theorem mishap_with_slots_replaced :
    let r : Reporter := { fatal := false }
    let m : Mishap := .other "ValueError" "\x7b\x7d \x7b\x7d"
    let escaping : Mishap := .badDraft (.template (.noSnippet 1))
    r.leave (.mishap m) = (r, some (.mishap escaping)) ∧ escaping.kind = "IndexError" ∧
      r.leave (.mishap m) ≠ r.tellMishap m "unknown error: 'ValueError: \x7b\x7d \x7b\x7d'" := by
  intro r m escaping
  have hfill : Template.fill (mishapWording m) [r.style.bold none ""] = .error (.noSnippet 1) := by
    decide +kernel
  have hleave : r.leave (.mishap m) = (r, some (.mishap escaping)) := leave_mishap_of_error hfill
  refine ⟨hleave, rfl, ?_⟩
  rw [hleave]
  exact tellMishap_ne_self.symm

end Reporter
end Nameless
