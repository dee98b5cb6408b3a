import Nameless.Proofs.Named.Locality

/-!
# Faults of syntax are found at once

A text that is refused is refused at the first character with which no text of a term can go on.
What stands before that character can be completed: wherever reading stops, a few tokens in place of
the rest bring every part that was begun to its end. A variable does for each term that is missing,
so the tokens follow from the parts that are open, from the innermost one outwards.

This file defines:
- `Text.CompletedBy`: what stands before a place is completed by something in place of the rest,
- `Named.Extendable`: the beginnings of texts that are read.

Main statements:
- `Text.Local.completedBy_comp`, `Text.CompletedBy.comp`: completing chains of relations,
- `Named.Parser.completedBy_of_term`: what was read of a term before a fault can be completed,
- `Named.fault_at_first_impossible`: a fault is where a text stops being extendable.
-/

namespace Nameless

/-! ## Completions -/

namespace Text

/-- What stands before `rest` is completed by some text in its place, so that the relation holds
with anything behind it that does not start with a letter. A blank keeps the two from running
together. -/
def CompletedBy (R : List Char → List Char → Prop) (s rest : List Char) : Prop :=
  ∃ before ending, s = before ++ rest ∧ ∀ tail, (∀ d ∈ tail.head?, isLower d = false) →
    R (before ++ ' ' :: (ending ++ tail)) tail

variable {R Q : List Char → List Char → Prop} {s mid rest : List Char}

theorem CompletedBy.mono (h : CompletedBy R s rest) (himp : ∀ s rest, R s rest → Q s rest) :
    CompletedBy Q s rest := by
  rcases h with ⟨before, ending, hs, hread⟩
  exact ⟨before, ending, hs, fun tail htail => himp _ _ (hread tail htail)⟩

/-- Two relations are completed one after the other. -/
theorem CompletedBy.comp (hR : CompletedBy R s rest) (hQ : CompletedBy Q [] []) :
    CompletedBy (Relation.Comp R Q) s rest := by
  rcases hR with ⟨before, ending, rfl, hR⟩
  rcases hQ with ⟨none, second, hnone, hQ⟩
  rcases List.append_eq_nil_iff.1 hnone.symm with ⟨rfl, _⟩
  refine ⟨before, ending ++ ' ' :: second, rfl, ?_⟩
  intro tail htail
  -- The blank in front of the second ending is what lets the first one stop.
  refine ⟨' ' :: (second ++ tail), ?_, hQ tail htail⟩
  have hblank : ∀ d ∈ (' ' :: (second ++ tail)).head?, isLower d = false := by simp [isLower]
  simpa using hR (' ' :: (second ++ tail)) hblank

/-- What was taken before may stay, and what comes after it is completed. -/
theorem Local.completedBy_comp (hR : Local R) (h : R s mid) (hQ : CompletedBy Q mid rest) :
    CompletedBy (Relation.Comp R Q) s rest := by
  rcases hQ with ⟨last, ending, rfl, hlast⟩
  rcases hR.exchange h with ⟨first, rfl, hfirst⟩
  refine ⟨first ++ last, ending, (List.append_assoc _ _ _).symm, ?_⟩
  intro tail htail
  rw [List.append_assoc]
  exact ⟨_, hfirst ' ' _ (.inr rfl), hlast tail htail⟩

end Text

open Text (skipBlanks CompletedBy)

namespace Token

/-- A token that only a letter extends can be written where blanks end. -/
theorem completedBy_leads {token : Token} {written : List Char} (hwritten : token.WrittenAs written)
    (hextended : ∀ d, isLower d = false → token.extendedBy d = false) {s rest : List Char}
    (hs : skipBlanks s = rest) : CompletedBy (fun s rest => Leads s token rest) s rest := by
  rcases Text.exists_blanks s with ⟨blanks, hsplit, hblanks⟩
  refine ⟨blanks, written, hs ▸ hsplit, ?_⟩
  intro tail htail
  refine ⟨blanks ++ [' '], written, by simp, ?_, hwritten, fun d hd => hextended d (htail d hd)⟩
  intro c hc
  rcases List.mem_append.1 hc with hc | hc
  · exact hblanks c hc
  · rcases List.mem_singleton.1 hc with rfl
    rfl

variable {s rest : List Char}

theorem completedBy_sym (hs : skipBlanks s = rest) :
    CompletedBy (fun s rest => Leads s (.sym "x") rest) s rest := by
  have hwritten : (Token.sym "x").WrittenAs ['x'] := ⟨by decide, rfl⟩
  exact completedBy_leads hwritten (fun _ hd => hd) hs

theorem completedBy_period (hs : skipBlanks s = rest) :
    CompletedBy (fun s rest => Leads s .period rest) s rest := by
  have hwritten : Token.period.WrittenAs ['.'] := rfl
  exact completedBy_leads hwritten (fun _ _ => rfl) hs

theorem completedBy_closing (hs : skipBlanks s = rest) :
    CompletedBy (fun s rest => Leads s .closing rest) s rest := by
  have hwritten : Token.closing.WrittenAs [')'] := rfl
  exact completedBy_leads hwritten (fun _ _ => rfl) hs

end Token

/-! ## Terms that were begun -/

namespace Named

open Token (Leads leads_local completedBy_sym completedBy_period completedBy_closing)

namespace Parser

/-- What was read of a term when its reading stopped can be completed to a term. -/
theorem completedBy_of_term {depth : Nat} {cause : SyntaxFault} {s rest : List Char}
    (h : term depth s = .error (.malformed cause rest)) :
    CompletedBy (fun s rest => ∃ t, Reads s t rest) s rest := by
  induction depth generalizing s with
  | zero => cases h
  | succ depth ih =>
    -- What was read stays, and what is missing behind it is put in, part by part.
    cases stops_of_term h with
    | ended hs => exact (completedBy_sym hs).mono fun s rest hname => ⟨_, .symbol hname⟩
    | unexpected hskips =>
      exact (completedBy_sym hskips.1).mono fun s rest hname => ⟨_, .symbol hname⟩
    | noName hlambda hskips =>
      refine ((leads_local .lambda).completedBy_comp hlambda
        (((completedBy_sym hskips.1).comp (completedBy_period rfl)).comp
          (completedBy_sym rfl))).mono ?_
      rintro s rest ⟨s₁, hlambda, s₃, ⟨s₂, hname, hperiod⟩, hbody⟩
      exact ⟨_, .abstraction hlambda hname hperiod (.symbol hbody)⟩
    | noPeriod hlambda hname hperiod =>
      have hskips := expect_eq_malformed_iff.1 hperiod
      refine (((leads_local .lambda).comp (leads_local _)).completedBy_comp ⟨_, hlambda, hname⟩
        ((completedBy_period hskips.1).comp (completedBy_sym rfl))).mono ?_
      rintro s rest ⟨s₂, ⟨s₁, hlambda, hname⟩, s₃, hperiod, hbody⟩
      exact ⟨_, .abstraction hlambda hname hperiod (.symbol hbody)⟩
    | body hlambda hname hperiod hbody =>
      refine (((leads_local .lambda).comp ((leads_local _).comp
        (leads_local .period))).completedBy_comp ⟨_, hlambda, _, hname, hperiod⟩ (ih hbody)).mono ?_
      rintro s rest ⟨s₃, ⟨s₁, hlambda, s₂, hname, hperiod⟩, body, hbody⟩
      exact ⟨_, .abstraction hlambda hname hperiod hbody⟩
    | fn hopening hfn =>
      refine ((leads_local .opening).completedBy_comp hopening
        ((ih hfn).comp (completedBy_closing rfl))).mono ?_
      rintro s rest ⟨s₁, hopening, s₂, ⟨t, ht⟩, hclosing⟩
      exact ⟨t, .group hopening ht hclosing⟩
    | arg hopening hfn hne harg =>
      refine (((leads_local .opening).comp (term_local depth _)).completedBy_comp
        ⟨_, hopening, hfn⟩ ((ih harg).comp (completedBy_closing rfl))).mono ?_
      rintro s rest ⟨s₂, ⟨s₁, hopening, hfn⟩, s₃, ⟨arg, harg⟩, hclosing⟩
      exact ⟨_, .application hopening (reads_of_term hfn) harg hclosing⟩
    | noClosing hopening hfn harg hclosing =>
      have hskips := expect_eq_malformed_iff.1 hclosing
      refine (((leads_local .opening).comp ((term_local depth _).comp
        (term_local depth _))).completedBy_comp ⟨_, hopening, _, hfn, harg⟩
        (completedBy_closing hskips.1)).mono ?_
      rintro s rest ⟨s₃, ⟨s₁, hopening, s₂, hfn, harg⟩, hclosing⟩
      exact ⟨_, .application hopening (reads_of_term hfn) (reads_of_term harg) hclosing⟩

end Parser

/-! ## Where a text stops being extendable -/

/-- Some text that starts like this is read as a term, if nesting may go deep enough. -/
def Extendable (s : List Char) : Prop :=
  ∃ rest depth t, parse depth (String.ofList (s ++ rest)) = .ok t

theorem Extendable.of_append {s more : List Char} (h : Extendable (s ++ more)) : Extendable s := by
  rcases h with ⟨rest, depth, t, hparse⟩
  exact ⟨more ++ rest, depth, t, List.append_assoc s more rest ▸ hparse⟩

theorem extendable_of_reads {s rest after : List Char} {t : Named Reference}
    (h : Reads (s ++ rest) t after) (hafter : skipBlanks after = []) : Extendable s := by
  have hgrammatical : Grammatical (String.ofList (s ++ rest)) t :=
    grammatical_iff_reads.2 ⟨after, String.toList_ofList.symm ▸ h, hafter⟩
  exact ⟨rest, _, t, parse_of_grammatical hgrammatical (Nat.lt_succ_self _)⟩

namespace Parser

/-- What was read of a text when it was refused is extendable. -/
theorem extendable_of_malformed {depth : Nat} {s rest : List Char} {cause : SyntaxFault}
    (h : whole depth s = .error (.malformed cause rest)) :
    ∃ before, s = before ++ rest ∧ Extendable before := by
  rcases whole_eq_malformed_iff.1 h with hterm | ⟨_, t, s₁, hterm, hskips⟩
  · rcases completedBy_of_term hterm with ⟨before, ending, hs, hread⟩
    rcases hread [] (by simp) with ⟨t, ht⟩
    exact ⟨before, hs, extendable_of_reads ht rfl⟩
  · -- The term and the blanks behind it make a text on their own.
    rcases Text.exists_blanks s₁ with ⟨blanks, hsplit, hblanks⟩
    rw [hsplit, hskips.1] at hterm
    rcases (term_local depth t).exchange hterm with ⟨before, hs, hagain⟩
    refine ⟨before ++ blanks, by rw [hs, List.append_assoc], ?_⟩
    have hreads := reads_of_term (hagain ' ' [] (.inr rfl))
    rw [← List.append_assoc] at hreads
    exact extendable_of_reads hreads (Text.skipBlanks_append hblanks [' '])

/-- With the character at which a text is refused it is extendable no more: at that depth every text
that starts like this is refused there, and what is malformed at one depth is read at none. -/
theorem not_extendable_of_malformed {depth : Nat} {c : Char} {before rest : List Char}
    {cause : SyntaxFault}
    (h : whole depth (before ++ c :: rest) = .error (.malformed cause (c :: rest))) :
    ¬ Extendable (before ++ [c]) := by
  rcases whole_haltsLocally depth cause _ c rest h with ⟨_, before', hsplit, hagain⟩
  rcases List.append_cancel_right hsplit with rfl
  rintro ⟨rest', depth', t, hparse⟩
  have hwhole : whole depth (String.ofList (before ++ [c] ++ rest')).toList =
      .error (.malformed cause (c :: rest')) := by
    simpa using hagain rest'
  rcases parse_of_grammatical_or_tooDeep (grammatical_of_parse hparse) depth with hok | hdeep
  · rw [parse_eq_ok_iff.1 hok] at hwhole
    cases hwhole
  · rw [parse, hwhole] at hdeep
    cases hdeep

end Parser

/-- A fault is told of the text that was read, at the first character with which no text of a term
goes on: what stands before that character can be extended to a text that is read, and with it it
cannot. The end of the text is where the whole of it can be extended. -/
theorem fault_at_first_impossible {depth : Nat} {text : String} {fault : Fault}
    (h : parse depth text = .error (.fault fault)) :
    fault.report.category = .invalidSyntax ∧ fault.report.expr = text ∧
      ∃ start : Nat, fault.report.start = start ∧ start ≤ text.length ∧
        Extendable (text.toList.take start) ∧
        (start < text.length → ¬ Extendable (text.toList.take (start + 1))) ∧
        (start = text.length ↔ Extendable text.toList) := by
  unfold parse at h
  split at h
  · cases h
  · next refusal hwhole =>
    cases refusal with
    | tooDeep => cases h
    | malformed cause rest =>
      cases h
      rcases Parser.extendable_of_malformed hwhole with ⟨before, hsplit, hbefore⟩
      have hlength : text.length = before.length + rest.length := by
        rw [← String.length_toList, hsplit, List.length_append]
      have hstart : text.length - rest.length = before.length := by omega
      refine ⟨rfl, rfl, before.length, congrArg Int.ofNat hstart, by omega, ?_⟩
      rw [hsplit] at hwhole ⊢
      rw [List.take_left]
      refine ⟨hbefore, ?_⟩
      cases rest with
      | nil => simp [hlength, hbefore]
      | cons c rest =>
        have hnone := Parser.not_extendable_of_malformed hwhole
        rw [List.append_cons, List.take_left' (by simp)]
        refine ⟨fun _ => hnone, ?_⟩
        constructor
        · intro hend
          simp [hlength] at hend
        · intro hextendable
          exact absurd hextendable.of_append hnone

/-- In `(λf.(f λ .x) y)` the second sign of an abstraction lacks its name, and the blank behind it
may stay: what comes before the second period can still become a term. -/
theorem fault_at_first_impossible_no_name :
    parse 8 "(λf.(f λ .x) y)" =
        .error (.fault (.malformed "(λf.(f λ .x) y)" .unnamedBinder 9)) ∧
      Extendable "(λf.(f λ ".toList ∧ ¬ Extendable "(λf.(f λ .".toList ∧
      ¬ Extendable "(λf.(f λ .x) y)".toList := by
  have hparse : parse 8 "(λf.(f λ .x) y)" =
      .error (.fault (.malformed "(λf.(f λ .x) y)" .unnamedBinder 9)) := by
    decide +kernel
  rcases fault_at_first_impossible hparse with ⟨_, _, start, hstart, _, hbefore, hnext, hend⟩
  rcases Int.ofNat.inj hstart with rfl
  exact ⟨hparse, hbefore, hnext (by decide), fun hall => absurd (hend.2 hall) (by decide)⟩

end Named
end Nameless
