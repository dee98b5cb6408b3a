import Nameless.Proofs.Indexed.Church
import Nameless.Proofs.Indexed.UniqueReading
import Nameless.Proofs.Shell.Listing

/-!
# The lines of a trace

A verbose reporter prints a line for every redex right before it is contracted. Such a line is the
text of the redex behind a sign that is always the same, so it stands for one redex only, as long as
free variables are named like variables. In terms that are read they are, and reduction brings in no
names: all that is contracted stands in terms that contractions lead to, whether or not a normal
form is found in the end.

This file defines:
- `Indexed.Meets`: contractions lead to a term in which a redex stands,
- `Session.traceLine`: the line of a redex,
- `Reporter.linesSince`, `Reporter.Traces`: the lines that were printed since, and that they are the
  lines of some redexes.

Main statements:
- `Indexed.meets_of_mem_nfWithin`: all redexes that are recorded are met,
- `Named.lettered_of_mem_redexes`: their free variables are named like variables,
- `Session.traces_reduce`, `Session.traced_reduction`: reducing prints one line for each redex, but
  for one that is too high,
- `Session.trace_lines_tell_redexes`: texts and lines stand for one term only.
-/

namespace Nameless

open Relation (ReflTransGen)

/-! ## Redexes that are met -/

namespace Indexed

variable {ρ : Type}

/-- Contractions lead from a term to one in which a redex stands. -/
def Meets (t redex : Indexed ρ) : Prop :=
  ∃ u p v, ReflTransGen Beta t u ∧ ContractsAt u p redex v

theorem ContractsAt.freeNames_redex {t redex u : Indexed ρ} {p : Place}
    (h : ContractsAt t p redex u) : redex.freeNames ⊆ t.freeNames := by
  induction h with
  | here body arg => exact List.Subset.refl _
  | body _ ih => exact ih
  | fn a _ ih => exact List.subset_append_of_subset_left _ ih
  | arg f _ ih => exact List.subset_append_of_subset_right _ ih

namespace Meets

variable {t u redex : Indexed ρ}

theorem of_betas (h : ReflTransGen Beta t u) (hu : u.Meets redex) : t.Meets redex := by
  rcases hu with ⟨w, p, v, hbetas, hcontracts⟩
  exact ⟨w, p, v, h.trans hbetas, hcontracts⟩

theorem body {b : Indexed ρ} (h : b.Meets redex) : (lam b).Meets redex := by
  rcases h with ⟨w, p, v, hbetas, hcontracts⟩
  exact ⟨_, _, _, betas_lam hbetas, .body hcontracts⟩

theorem fn {f : Indexed ρ} (h : f.Meets redex) (a : Indexed ρ) : (app f a).Meets redex := by
  rcases h with ⟨w, p, v, hbetas, hcontracts⟩
  exact ⟨_, _, _, betas_app hbetas .refl, .fn a hcontracts⟩

theorem arg {a : Indexed ρ} (h : a.Meets redex) (f : Indexed ρ) : (app f a).Meets redex := by
  rcases h with ⟨w, p, v, hbetas, hcontracts⟩
  exact ⟨_, _, _, betas_app .refl hbetas, .arg f hcontracts⟩

theorem freeNames_subset (h : t.Meets redex) : redex.freeNames ⊆ t.freeNames := by
  rcases h with ⟨w, p, v, hbetas, hcontracts⟩
  exact List.Subset.trans hcontracts.freeNames_redex (freeNames_of_betas hbetas)

end Meets
end Indexed

namespace Reduction

variable {ρ α β : Type}

/-- The redexes of a reduction in two parts are those of its parts. -/
theorem mem_redexes_andThen {r : Reduction ρ α} {next : α → Reduction ρ β} {redex : Indexed ρ}
    (h : redex ∈ (r.andThen next).redexes) :
    redex ∈ r.redexes ∨ ∃ a, r.result = .ok a ∧ redex ∈ (next a).redexes := by
  rcases r with ⟨redexes, failure | a⟩
  · exact .inl h
  · exact (List.mem_append.1 h).imp_right fun hnext => ⟨a, rfl, hnext⟩

end Reduction

namespace Indexed

variable {ρ : Type} [Leaf ρ]

theorem meets_of_mem_whnfFrom {contractions : Nat} {seen args : List (Indexed ρ)}
    {t redex : Indexed ρ} (h : redex ∈ (whnfFrom contract? contractions seen t args).redexes) :
    redex ∈ seen ∨ (t.rewind args).Meets redex := by
  -- By induction on the contractions that are left, as for the run itself.
  induction contractions generalizing seen t args with
  | zero =>
    rcases whnfFrom_cases t args with ⟨_, heq⟩ | ⟨body, arg, rest, _, heq⟩
    · rw [heq] at h
      exact .inl (List.mem_reverse.1 h)
    · rw [heq] at h
      exact .inl (List.mem_reverse.1 h)
  | succ contractions ih =>
    rcases whnfFrom_cases t args with ⟨_, heq⟩ | ⟨body, arg, rest, hterm, heq⟩
    · rw [heq] at h
      exact .inl (List.mem_reverse.1 h)
    · -- The redex at the head is on record even if contracting it fails.
      have hfirst := (Leftmost.here body arg).rewind (by simp) rest
      have hmet : (t.rewind args).Meets (app (lam body) arg) := by
        rcases hfirst with ⟨p, hp, _⟩
        rw [hterm]
        exact ⟨_, p, _, .refl, hp⟩
      have hseen : redex ∈ app (lam body) arg :: seen →
          redex ∈ seen ∨ (t.rewind args).Meets redex := by
        intro hmem
        rcases List.mem_cons.1 hmem with rfl | hmem
        · exact .inr hmet
        · exact .inl hmem
      rw [heq, whnfFrom_lam_cons] at h
      split at h
      · exact hseen (List.mem_reverse.1 h)
      · next u hu =>
        rcases eq_contract_of_contract? hu with rfl
        rcases ih h with hmem | hmeets
        · exact hseen hmem
        · rw [hterm]
          exact .inr (hmeets.of_betas (.single hfirst.beta))

/-- Every redex that is recorded stands in a term that contractions lead to, also if the reduction
comes to no result. -/
theorem meets_of_mem_nfWithin {contractions depth : Nat} {t redex : Indexed ρ}
    (h : redex ∈ (nfWithin contractions depth t).redexes) : t.Meets redex := by
  induction depth generalizing t with
  | zero => cases h
  | succ depth ih =>
    simp only [nfWithin_succ, Reduction.bind_eq_andThen, Reduction.pure_eq_done] at h
    rcases Reduction.mem_redexes_andThen h with hwhnf | ⟨w, hw, hrest⟩
    · exact (meets_of_mem_whnfFrom hwhnf).resolve_left List.not_mem_nil
    · -- What is met in the weak head normal form is met in the term.
      rcases whnfFrom_leftmostRun (Reduction.eq_of_result hw) with ⟨_, _, hrun, _⟩
      refine Meets.of_betas hrun.betas ?_
      cases w with
      | lam body =>
        rcases Reduction.mem_redexes_andThen hrest with hbody | ⟨_, _, hdone⟩
        · exact (ih hbody).body
        · cases hdone
      | app fn arg =>
        rcases Reduction.mem_redexes_andThen hrest with hfn | ⟨_, _, hrest'⟩
        · exact (ih hfn).fn arg
        · rcases Reduction.mem_redexes_andThen hrest' with harg | ⟨_, _, hdone⟩
          · exact (ih harg).arg fn
          · cases hdone
      | _ => cases hrest

end Indexed

/-! ## Names of free variables -/

namespace Named

variable {ρ : Type} [Leaf ρ]

/-- What is free in a nameless form is free in the term. -/
theorem freeNames_of_toIndexed? {allowFree : Bool} {scope : List String} {t : Named ρ}
    {u : Indexed Empty} (h : t.toIndexed? allowFree scope = .ok u) {x : String}
    (hx : x ∈ u.freeNames) : x ∈ t.freeNames ∧ x ∉ scope := by
  induction t generalizing scope u with
  | abs name body ih =>
    rcases Except.bind_eq_ok h with ⟨body', hbody, hdone⟩
    cases hdone
    rcases ih hbody hx with ⟨hfree, hscope⟩
    rw [List.mem_cons, not_or] at hscope
    exact ⟨List.mem_filter.2 ⟨hfree, by simpa using hscope.1⟩, hscope.2⟩
  | app fn arg ihf iha =>
    rcases Except.bind_eq_ok h with ⟨fn', hfn, hrest⟩
    rcases Except.bind_eq_ok hrest with ⟨arg', harg, hdone⟩
    cases hdone
    rcases List.mem_append.1 hx with hx | hx
    · exact (ihf hfn hx).imp_left (List.mem_append_left _)
    · exact (iha harg hx).imp_left (List.mem_append_right _)
  | sym name =>
    by_cases hname : name ∈ scope
    · simp only [toIndexed?, hname, if_true] at h
      cases h
      cases hx
    · cases allowFree with
      | false => simp [toIndexed?, hname] at h
      | true =>
        simp only [toIndexed?, hname, if_false, if_true] at h
        cases h
        rcases List.mem_singleton.1 hx with rfl
        exact ⟨List.mem_singleton.2 rfl, hname⟩
  | leaf y => cases h

/-- The nameless form of a term that is read has free variables named like variables. -/
theorem lettered_of_parse {depth : Nat} {expr : String} {t : Named Reference} {allowFree : Bool}
    {u : Indexed Empty} (hparse : parse depth expr = .ok t)
    (h : t.toIndexed? allowFree [] = .ok u) : u.Lettered := by
  intro name hname
  exact (wellNamed_of_parse hparse).of_mem_freeNames (freeNames_of_toIndexed? h hname).1

theorem lettered_of_mem_redexes {limits : Limits} {allowFree : Bool} {t : Named ρ}
    (ht : ∀ name ∈ t.freeNames, isVariable name.toList = true) {redex : Indexed Empty}
    (h : redex ∈ (t.reduce? limits allowFree).redexes) : redex.Lettered := by
  -- Only the reduction of the nameless form records redexes, and not giving or leaving out names.
  rcases Reduction.mem_redexes_andThen h with hnone | ⟨u, hu, hrest⟩
  · cases hnone
  · rcases Reduction.mem_redexes_andThen hrest with hnf | ⟨_, _, hnone⟩
    · have hindexed : t.toIndexed? allowFree [] = .ok u := Failure.ofFault_eq_ok hu
      have hsubset := (Indexed.meets_of_mem_nfWithin hnf).freeNames_subset
      intro name hname
      exact ht name (freeNames_of_toIndexed? hindexed (hsubset hname)).1
    · cases hnone

end Named

/-! ## Lines -/

namespace Session

/-- The line that is printed of a redex. -/
def traceLine (style : Style) (redex : Indexed Empty) : List Char :=
  (style.bold (some .cyan) (contraction ++ " ")).toList ++ redex.chars

theorem traceLine_inj (style : Style) {u v : Indexed Empty} (hu : u.Lettered) (hv : v.Lettered) :
    traceLine style u = traceLine style v ↔ u = v := by
  rw [traceLine, traceLine, List.append_cancel_left_eq, ← Indexed.text_inj hu hv]
  exact String.ofList_inj.symm

end Session

/-- A term is written on one line. -/
theorem Indexed.not_isBreak_of_mem_chars {t : Indexed Empty} (ht : t.Lettered) :
    ∀ c ∈ t.chars, Text.isBreak c = false := by
  induction t with
  | lam body ih =>
    intro c hc
    simp only [chars, List.mem_cons] at hc
    rcases hc with rfl | rfl | hc
    · rfl
    · rfl
    · exact ih (lettered_lam.1 ht) c hc
  | app fn arg ihf iha =>
    rcases lettered_app.1 ht with ⟨hfn, harg⟩
    intro c hc
    simp only [chars, List.mem_cons, List.mem_append, List.not_mem_nil, or_false] at hc
    rcases hc with rfl | hc | rfl | hc | rfl
    · rfl
    · exact ihf hfn c hc
    · rfl
    · exact iha harg c hc
    · rfl
  | var index =>
    intro c hc
    have hdigit := Line.isUpperOrDigit_of_isName (Line.isName_toString index) c hc
    exact Text.not_isBreak_of_not_isBlank (isBlank_of_isUpperOrDigit hdigit)
  | free name =>
    intro c hc
    exact Text.not_isBreak_of_not_isBlank
      (Named.not_isBlank_of_mem_variable (lettered_free.1 ht) c hc)
  | leaf x => exact x.elim

namespace Session

theorem not_isBreak_of_mem_traceLine (style : Style) {redex : Indexed Empty}
    (h : redex.Lettered) : ∀ c ∈ traceLine style redex, Text.isBreak c = false := by
  have hsign : (style.bold (some .cyan) (contraction ++ " ")).toList.all
      (fun c => !Text.isBreak c) = true := by
    cases style <;> decide
  refine List.forall_mem_append.2 ⟨?_, Indexed.not_isBreak_of_mem_chars h⟩
  intro c hc
  simpa using List.all_eq_true.1 hsign c hc

/-- What is printed of redexes one after the other are their lines. -/
theorem toList_stepTexts (style : Style) (redexes : List (Indexed Empty)) :
    (Reporter.stepTexts style contraction (redexes.map Indexed.text)).toList =
      Text.unlines (redexes.map (traceLine style)) := by
  induction redexes with
  | nil => rfl
  | cons redex rest ih =>
    have hcons : Reporter.stepTexts style contraction ((redex :: rest).map Indexed.text) =
        Reporter.stepText style contraction redex.text ++
          Reporter.stepTexts style contraction (rest.map Indexed.text) := rfl
    rw [hcons, String.toList_append, ih]
    simp [Reporter.stepText, Text.unlines, traceLine, Indexed.text]

end Session

namespace Reporter

/-- The lines that were printed between two states of a reporter. -/
def linesSince (before after : Reporter) : List (List Char) :=
  Text.lines (after.printed.toList.drop before.printed.toList.length)

/-- Between two states of a reporter the lines of some redexes were printed, in their order and
nothing else. -/
structure Traces (before after : Reporter) (redexes : List (Indexed Empty)) : Prop where
  appended : ∃ added, after.printed = before.printed ++ added
  lines_eq : before.linesSince after = redexes.map (Session.traceLine before.style)
  lettered : ∀ redex ∈ redexes, redex.Lettered

theorem traces_of_printed {before after : Reporter} {redexes : List (Indexed Empty)}
    (hlettered : ∀ redex ∈ redexes, redex.Lettered)
    (h : after.printed = before.printed ++
      stepTexts before.style Session.contraction (redexes.map Indexed.text)) :
    before.Traces after redexes where
  appended := ⟨_, h⟩
  lines_eq := by
    rw [linesSince, h, String.toList_append, List.drop_left, Session.toList_stepTexts]
    apply Text.lines_unlines
    intro line hline
    rcases List.mem_map.1 hline with ⟨redex, hredex, rfl⟩
    exact Session.not_isBreak_of_mem_traceLine before.style (hlettered redex hredex)
  lettered := hlettered

/-- Lines of traces in one style are the same text exactly if they are lines of the same redex. -/
theorem Traces.line_eq_iff {before after before' after' : Reporter}
    {redexes redexes' : List (Indexed Empty)} (h : before.Traces after redexes)
    (h' : before'.Traces after' redexes') (hstyle : before.style = before'.style) (i j : Nat) :
    (before.linesSince after)[i]? = (before'.linesSince after')[j]? ↔
      redexes[i]? = redexes'[j]? := by
  rw [h.lines_eq, h'.lines_eq, List.getElem?_map, List.getElem?_map, hstyle]
  -- Behind the end of a trace there is no line just as there is no redex.
  cases hi : redexes[i]? with
  | none => cases redexes'[j]? <;> simp
  | some redex =>
    cases hj : redexes'[j]? with
    | none => simp
    | some redex' =>
      have hu := h.lettered redex (List.mem_of_getElem? hi)
      have hv := h'.lettered redex' (List.mem_of_getElem? hj)
      simpa using Session.traceLine_inj before'.style hu hv

end Reporter

/-! ## Traces of a session -/

namespace Session

/-- With a trace all redexes are written down, but for the one that a reduction ends at because it
is too high for that. -/
theorem traced_reduction {ρ : Type} [Leaf ρ] (s : Session) (t : Named ρ) :
    let rs := (s.reduction true t).redexes
    s.traced rs = rs ∨
      (s.reduction true t).result = .error .tooDeep ∧
        ∃ last, rs = s.traced rs ++ [last] ∧ s.limits.tracing < last.height := by
  intro rs
  rcases Named.reduceIn?_allButLast s.limits s.allowFree t with
    hall | ⟨hdeep, before, last, hredexes, hbefore, hlast⟩
  · exact .inl (traced_eq_self hall)
  · have htraced : s.traced rs = before := by
      have hrest : s.traced [last] = [] := by simp [traced, hlast]
      have hsplit : s.traced (before ++ [last]) = s.traced before ++ s.traced [last] :=
        List.filter_append before [last]
      rw [show rs = before ++ [last] from hredexes, hsplit, hrest, traced_eq_self hbefore,
        List.append_nil]
    refine .inr ⟨hdeep, last, ?_, Nat.lt_of_not_le hlast⟩
    rw [htraced]
    exact hredexes

theorem lettered_of_mem_traced {ρ : Type} [Leaf ρ] {s : Session} {t : Named ρ}
    (ht : ∀ name ∈ t.freeNames, Named.isVariable name.toList = true) {verbose : Bool}
    {redex : Indexed Empty} (h : redex ∈ s.traced (s.reduction verbose t).redexes) :
    redex.Lettered := by
  -- Within bounds nothing is contracted that is not contracted without them.
  have hbegins := (Named.reduceIn?_within s.limits verbose s.allowFree t).prefix_redexes
  exact Named.lettered_of_mem_redexes ht (hbegins.subset (List.mem_of_mem_filter h))

theorem printed_tell_contractions (r : Reporter) (path : String) (count : Nat)
    (redexes : List (Indexed Empty)) :
    (r.tell path count (Notice.contractions true redexes)).printed =
      r.printed ++ Reporter.stepTexts r.style contraction (redexes.map Indexed.text) := by
  rw [Reporter.tell, Notice.texts_contractions]
  rfl

/-- Reducing a term whose free variables are named like variables prints the lines of its
redexes. -/
theorem traces_reduce {ρ : Type} [Leaf ρ] (s : Session) {t : Named ρ}
    (ht : ∀ name ∈ t.freeNames, Named.isVariable name.toList = true) {r : Reporter}
    (hverbose : r.verbose = true) :
    r.Traces (s.reduce t r).2 (s.traced (s.reduction true t).redexes) := by
  refine Reporter.traces_of_printed (fun _ hredex => lettered_of_mem_traced ht hredex) ?_
  rw [reduce_eq s t s.path, hverbose]
  exact printed_tell_contractions r s.path _ _

theorem traces_evaluate {s : Session} (hs : s.Reachable) {expr : String} {t : Named Empty}
    (hread : s.readTerm expr = .ok t) (number : Option Int) {r : Reporter}
    (hverbose : r.verbose = true) :
    r.Traces (s.evaluate expr number r).2 (s.traced (s.reduction true t).redexes) := by
  have ht := lettered_readTerm hs.wellFormed hread
  refine Reporter.traces_of_printed
    (fun _ hredex => lettered_of_mem_traced (fun _ => ht.of_mem_freeNames) hredex) ?_
  -- Whether the line stays in progress makes no difference to what is printed.
  rcases hreduce : s.reduction true t with ⟨redexes, failure | u⟩
  · rw [evaluate_of_unreduced hread (hverbose ▸ hreduce), hverbose]
    exact printed_tell_contractions r s.path redexes.length _
  · rw [evaluate_of_reduced hread (hverbose ▸ hreduce), hverbose]
    exact printed_tell_contractions r s.path redexes.length _

theorem lettered_mainTerm {s : Session} (hs : s.definitions.WellFormed) {t : Named Empty}
    (h : s.mainTerm = .ok t) : t.Lettered := by
  unfold mainTerm at h
  split at h
  · next hfind =>
    cases h
    exact (hs _ (Definitions.mem_of_find? hfind)).2
  · cases h

theorem traces_run {s : Session} (hs : s.Reachable) {t : Named Empty}
    (hmain : s.mainTerm = .ok t) {r : Reporter} (hverbose : r.verbose = true) :
    r.Traces (s.run r).2 (s.traced (s.reduction true t).redexes) := by
  have ht := lettered_mainTerm hs.wellFormed hmain
  rw [run, hmain]
  exact traces_reduce s (fun _ => ht.of_mem_freeNames) hverbose

/-- The text of a nameless term whose free variables are named like variables belongs to no other
such term, whether or not all indices can be written. The nameless forms of terms that are read are
such terms. Whatever a verbose session reduces, it prints a line for each redex before it is
contracted, and nothing else. Only a redex that is too high to be written down has no line, and it
ends the reduction. Of all lines that are printed in one style two are the same text exactly if
their redexes are the same term. -/
theorem trace_lines_tell_redexes :
    (∀ u v : Indexed Empty, u.Lettered → v.Lettered →
      (u.text = v.text ↔ u = v) ∧
        ∀ w, (u.toRaw Empty.elim).text? = .ok w →
          ((v.toRaw Empty.elim).text? = .ok w ↔ u = v)) ∧
    (∀ depth expr t allowFree u, Named.parse depth expr = .ok t →
      t.toIndexed? allowFree [] = .ok u → u.Lettered) ∧
    (∀ {ρ : Type} [Leaf ρ] (s : Session) (t : Named ρ) (r : Reporter), r.verbose = true →
      (∀ name ∈ t.freeNames, Named.isVariable name.toList = true) →
      r.Traces (s.reduce t r).2 (s.traced (s.reduction true t).redexes)) ∧
    (∀ (s : Session) (r : Reporter), s.Reachable → r.verbose = true →
      (∀ expr number t, s.readTerm expr = .ok t →
        r.Traces (s.evaluate expr number r).2 (s.traced (s.reduction true t).redexes)) ∧
      ∀ t, s.mainTerm = .ok t →
        r.Traces (s.run r).2 (s.traced (s.reduction true t).redexes)) ∧
    (∀ {ρ : Type} [Leaf ρ] (s : Session) (t : Named ρ),
      s.traced (s.reduction true t).redexes = (s.reduction true t).redexes ∨
        (s.reduction true t).result = .error .tooDeep ∧
          ∃ last, (s.reduction true t).redexes =
              s.traced (s.reduction true t).redexes ++ [last] ∧
            s.limits.tracing < last.height) ∧
    ∀ (before after : Reporter) redexes (before' after' : Reporter) redexes',
      before.Traces after redexes → before'.Traces after' redexes' →
      before.style = before'.style → ∀ i j : Nat,
        ((before.linesSince after)[i]? = (before'.linesSince after')[j]? ↔
          redexes[i]? = redexes'[j]?) := by
  refine ⟨?_, ?_, ?_, ?_, ?_, ?_⟩
  · intro u v hu hv
    exact ⟨Indexed.text_inj hu hv, fun w hw => Indexed.text?_toRaw_inj hu hv hw⟩
  · intro depth expr t allowFree u hparse h
    exact Named.lettered_of_parse hparse h
  · intro ρ _ s t r hverbose ht
    exact traces_reduce s ht hverbose
  · intro s r hs hverbose
    refine ⟨?_, ?_⟩
    · intro expr number t hread
      exact traces_evaluate hs hread number hverbose
    · intro t hmain
      exact traces_run hs hmain hverbose
  · intro ρ _ s t
    exact traced_reduction s t
  · intro before after redexes before' after' redexes' h h' hstyle i j
    exact h.line_eq_iff h' hstyle i j

/-- Indices of two digits are kept apart. A redex that is contracted twice has two equal lines among
different ones, and its line is the same in the trace of another run. -/
theorem trace_lines_tell_redexes_repeated :
    let u : Indexed Empty := .lam (.app (.var 1) (.var 12))
    let v : Indexed Empty := .lam (.app (.var 11) (.var 2))
    let s := (add { allowFree := true } "MAIN = (y (\\x.x z))" none {}).session
    let r : Reporter := { verbose := true }
    let expr := "(((y (\\x.x z)) (\\x.x z)) (\\x.x w))"
    let evaluated := r.linesSince (s.evaluate expr none r).2
    let ran := r.linesSince (s.run r).2
    let t : Named Reference := .app (.abs "x" (.sym "x")) (.sym "w")
    let reduced := r.linesSince (s.reduce t r).2
    (u.Lettered ∧ v.Lettered ∧ (u.toRaw Empty.elim).text? = .ok "λ.(1 12)" ∧
      (v.toRaw Empty.elim).text? = .ok "λ.(11 2)" ∧ u.text ≠ v.text) ∧
    (∃ t, Named.parse 4 "\\x.(x ab)" = .ok t ∧
      t.toIndexed? true [] = .ok (.lam (.app (.var 0) (.free "ab"))) ∧
      (.lam (.app (.var 0) (.free "ab")) : Indexed Empty).Lettered) ∧
    s.Reachable ∧
    evaluated = ["β (λ.0 z)".toList, "β (λ.0 z)".toList, "β (λ.0 w)".toList] ∧
    evaluated[0]? = evaluated[1]? ∧ evaluated[1]? ≠ evaluated[2]? ∧
    ran[0]? = evaluated[1]? ∧ reduced[0]? = evaluated[2]? := by
  intro u v s r expr evaluated ran t reduced
  have hu : u.Lettered := by decide
  have hv : v.Lettered := by decide
  have hne : u ≠ v := by decide
  have hs : s.Reachable := .add _ _ _ (.fresh _ _ _ _)
  have hparse : Named.parse 4 "\\x.(x ab)" = .ok (.abs "x" (.app (.sym "x") (.sym "ab"))) := by
    decide +kernel
  let main : Named Empty := .app (.sym "y") (.app (.abs "x" (.sym "x")) (.sym "z"))
  let entered : Named Empty := .app (.app main (.app (.abs "x" (.sym "x")) (.sym "z")))
    (.app (.abs "x" (.sym "x")) (.sym "w"))
  have hmain : s.mainTerm = .ok main := by decide +kernel
  have hread : s.readTerm expr = .ok entered := by decide +kernel
  let first : Indexed Empty := .app (.lam (.var 0)) (.free "z")
  let last : Indexed Empty := .app (.lam (.var 0)) (.free "w")
  have hentered : s.traced (s.reduction true entered).redexes = [first, first, last] := by
    decide +kernel
  have hmains : s.traced (s.reduction true main).redexes = [first] := by decide +kernel
  have hterms : s.traced (s.reduction true t).redexes = [last] := by decide +kernel
  have hnames : ∀ name ∈ t.freeNames, Named.isVariable name.toList = true := by decide
  rcases trace_lines_tell_redexes with ⟨htexts, hparsed, hreduce, hsession, _, hlines⟩
  have htrace := (hsession s r hs rfl).1 expr none entered hread
  have hrun := (hsession s r hs rfl).2 main hmain
  have hreduced := hreduce s t r rfl hnames
  rw [hentered] at htrace
  rw [hmains] at hrun
  rw [hterms] at hreduced
  have hwithin := hlines _ _ _ _ _ _ htrace htrace rfl
  refine ⟨⟨hu, hv, by decide +kernel, by decide +kernel, ?_⟩, ⟨_, hparse, rfl, ?_⟩, hs,
    ?_, ?_, ?_, ?_, ?_⟩
  · exact fun htext => hne ((htexts u v hu hv).1.1 htext)
  · exact hparsed 4 _ _ true _ hparse rfl
  · exact htrace.lines_eq.trans (by decide +kernel)
  · exact (hwithin 0 1).2 rfl
  · exact fun hline => absurd ((hwithin 1 2).1 hline) (by decide)
  · exact (hlines _ _ _ _ _ _ hrun htrace rfl 0 1).2 rfl
  · exact (hlines _ _ _ _ _ _ hreduced htrace rfl 0 2).2 rfl

end Session
end Nameless
