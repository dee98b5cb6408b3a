import Nameless.Proofs.Conversion
import Nameless.Proofs.Named.Reading

/-!
# The height of terms

Reading and reducing go down into a term level by level, and each is told how far it may go. The
text of a term is read exactly if the term is no higher than reading may go, and no result of a
reduction is higher than reducing may go. The two need not be equal, so not every result has a text
that can be read again.

Main statements:
- `Named.Parser.height_le_of_term`: what is read is no higher than the depth that it is read at,
- `Named.parse_of_grammatical_or_tooDeep`: texts of the grammar are read at any depth that suffices,
- `Named.parse_text_of_height_le`, `Named.parse_text_of_lt_height`: which texts of terms are read,
- `Named.text_reads_back_before_rest`: a text is read up to its end, and belongs to one term,
- `Named.height_le_of_reduce?`: results are no higher than reduction may go.
-/

namespace Nameless

namespace Named

variable {ρ : Type}

theorem height_embed (t : Named Empty) : (t.embed : Named ρ).height = t.height := by
  induction t with
  | abs name body ih => exact congrArg (· + 1) ih
  | app fn arg ihf iha => exact congrArg (· + 1) (congrArg₂ max ihf iha)
  | sym name => rfl
  | leaf x => exact x.elim

/-! ## Reading down to a given depth -/

namespace Parser

open Text (isBlank skipBlanks)
open Token (Leads)

theorem term_blank {c : Char} (hc : isBlank c = true) (depth : Nat) (s : List Char) :
    term depth (c :: s) = term depth s := by
  have hskip : skipBlanks (c :: s) = skipBlanks s := by
    rw [Text.skipBlanks_cons, if_pos hc]
  rw [← term_skipBlanks depth (c :: s), hskip, term_skipBlanks]

theorem abstraction_of_body_error {term : List Char → Result} {s s₁ s₂ : List Char} {name : String}
    {refusal : Refusal} (hname : Leads s (.sym name) s₁) (hperiod : Leads s₁ .period s₂)
    (hbody : term s₂ = .error refusal) : abstraction term s = .error refusal := by
  rcases Token.leads_sym.1 hname with ⟨hvariable, htake, hdrop⟩
  have hne : name.toList.isEmpty = false := by
    simp only [isVariable, Bool.and_eq_true, Bool.not_eq_true'] at hvariable
    exact hvariable.1
  have hexpect : expect '.' s₁ = .ok s₂ := expect_eq_ok_iff.2 (Token.leads_period.1 hperiod)
  simp only [abstraction, htake, hdrop, hne, hexpect, Bool.false_eq_true, if_false]
  change (term s₂ >>= fun r => _) = _
  rw [hbody]
  rfl

theorem parenthesis_of_fn_error {term : List Char → Result} {s : List Char} {refusal : Refusal}
    (hfn : term s = .error refusal) : parenthesis term s = .error refusal := by
  change (term s >>= fun r => _) = _
  rw [hfn]
  rfl

theorem parenthesis_of_arg_error {term : List Char → Result} {s s₁ : List Char}
    {fn : Named Reference} {refusal : Refusal} (hfn : term s = .ok (fn, s₁))
    (hne : ¬ ∃ tail, Leads s₁ .closing tail) (harg : term (skipBlanks s₁) = .error refusal) :
    parenthesis term s = .error refusal := by
  change (term s >>= fun r => _) = _
  rw [hfn]
  simp only [bind, Except.bind]
  split
  · next tail hs => exact absurd ⟨tail, Token.leads_closing.2 hs⟩ hne
  · rw [harg]

/-- What the grammar derives is read, or nested too deep, but never malformed. -/
theorem term_of_reads_or_tooDeep {s rest : List Char} {t : Named Reference} (h : Reads s t rest)
    (depth : Nat) : term depth s = .ok (t, rest) ∨ term depth s = .error .tooDeep := by
  -- Where a part is nested too deep, so is the whole.
  induction h generalizing depth with
  | abstraction hlambda hname hperiod _ ih =>
    cases depth with
    | zero => exact .inr rfl
    | succ depth =>
      rcases Token.leads_lambda.1 hlambda with ⟨c, hc, hs⟩
      rw [term_lambda hs hc]
      rcases ih depth with hbody | hbody
      · exact .inl (abstraction_of_leads hname hperiod hbody)
      · exact .inr (abstraction_of_body_error hname hperiod hbody)
  | application hopening _ harg hclosing ihf iha =>
    cases depth with
    | zero => exact .inr rfl
    | succ depth =>
      have hne : ¬ ∃ tail, Leads _ .closing tail := fun ⟨_, h⟩ => harg.not_leads_closing h
      rw [term_opening (Token.leads_opening.1 hopening)]
      rcases ihf depth with hfn | hfn
      · have hskip := term_skipBlanks depth
        rcases iha depth with harg' | harg'
        · exact .inl (parenthesis_of_application hfn hne ((hskip _).trans harg') hclosing)
        · exact .inr (parenthesis_of_arg_error hfn hne ((hskip _).trans harg'))
      · exact .inr (parenthesis_of_fn_error hfn)
  | group hopening _ hclosing ih =>
    cases depth with
    | zero => exact .inr rfl
    | succ depth =>
      rw [term_opening (Token.leads_opening.1 hopening)]
      rcases ih depth with ht | ht
      · exact .inl (parenthesis_of_group ht hclosing)
      · exact .inr (parenthesis_of_fn_error ht)
  | symbol hname =>
    cases depth with
    | zero => exact .inr rfl
    | succ depth => exact .inl (term_sym hname depth)
  | reference hname =>
    cases depth with
    | zero => exact .inr rfl
    | succ depth => exact .inl (term_ref hname depth)

/-- A term that is read has no more levels than reading may go down. -/
theorem height_le_of_term {depth : Nat} {s rest : List Char} {t : Named Reference}
    (h : term depth s = .ok (t, rest)) : t.height ≤ depth := by
  induction depth generalizing s t rest with
  | zero => cases h
  | succ depth ih =>
    cases takes_of_term h with
    | abstraction _ _ _ hbody => exact Nat.succ_le_succ (ih hbody)
    | application _ hfn harg _ => exact Nat.succ_le_succ (Nat.max_le.2 ⟨ih hfn, ih harg⟩)
    | group _ ht _ => exact Nat.le_succ_of_le (ih ht)
    | symbol _ => exact Nat.succ_le_succ (Nat.zero_le depth)
    | reference _ => exact Nat.succ_le_succ (Nat.zero_le depth)

variable {t : Named Empty} {rest : List Char}

/-- The blank between the two parts of an application is not followed by its end. -/
theorem not_leads_closing_arg {arg : Named Empty} (harg : arg.Lettered) (rest : List Char) :
    ¬ ∃ tail, Leads (' ' :: (arg.chars ++ ')' :: rest)) .closing tail := by
  rintro ⟨tail, hleads⟩
  have hreads : Reads (arg.chars ++ ')' :: rest) arg.embed (')' :: rest) :=
    reads_chars harg (by simp [isLower])
  exact (hreads.blank rfl).not_leads_closing hleads

theorem term_chars_of_height_le (ht : t.Lettered) (hrest : ∀ c ∈ rest.head?, isLower c = false)
    {depth : Nat} (hdepth : t.height ≤ depth) :
    term depth (t.chars ++ rest) = .ok (t.embed, rest) := by
  -- The depth that is left goes down by one where the height does.
  induction t generalizing rest depth with
  | abs name body ih =>
    rcases Nat.exists_eq_add_of_le' (Nat.le_of_add_left_le hdepth) with ⟨depth, rfl⟩
    have hname : Leads (name.toList ++ '.' :: (body.chars ++ rest)) (.sym name)
        ('.' :: (body.chars ++ rest)) := .of_variable ht.1 (by simp [isLower])
    have hperiod : Leads ('.' :: (body.chars ++ rest)) .period (body.chars ++ rest) :=
      Token.leads_period.2 rfl
    have hbody := ih ht.2 hrest (Nat.le_of_succ_le_succ hdepth)
    have habs := abstraction_of_leads hname hperiod hbody
    have hchars : (abs name body).chars ++ rest =
        'λ' :: (name.toList ++ '.' :: (body.chars ++ rest)) := by simp [chars]
    rw [hchars, term_lambda rfl rfl]
    exact habs
  | app fn arg ihf iha =>
    rcases Nat.exists_eq_add_of_le' (Nat.le_of_add_left_le hdepth) with ⟨depth, rfl⟩
    have hparts : fn.height ≤ depth ∧ arg.height ≤ depth :=
      Nat.max_le.1 (Nat.le_of_succ_le_succ hdepth)
    have hfn : term depth (fn.chars ++ ' ' :: (arg.chars ++ ')' :: rest)) =
        .ok (fn.embed, ' ' :: (arg.chars ++ ')' :: rest)) := ihf ht.1 (by simp [isLower]) hparts.1
    have harg : term depth (arg.chars ++ ')' :: rest) = .ok (arg.embed, ')' :: rest) :=
      iha ht.2 (by simp [isLower]) hparts.2
    have hchars : (app fn arg).chars ++ rest =
        '(' :: (fn.chars ++ ' ' :: (arg.chars ++ ')' :: rest)) := by simp [chars]
    rw [hchars, term_opening rfl]
    have hclosing : Leads (')' :: rest) .closing rest := Token.leads_closing.2 rfl
    refine parenthesis_of_application hfn (not_leads_closing_arg ht.2 rest) ?_ hclosing
    rw [term_skipBlanks, term_blank rfl]
    exact harg
  | sym name =>
    rcases Nat.exists_eq_add_of_le' hdepth with ⟨depth, rfl⟩
    exact term_sym (.of_variable ht hrest) depth
  | leaf x => exact x.elim

theorem term_chars_of_lt_height (ht : t.Lettered) (hrest : ∀ c ∈ rest.head?, isLower c = false)
    {depth : Nat} (hdepth : depth < t.height) : term depth (t.chars ++ rest) = .error .tooDeep := by
  rcases term_of_reads_or_tooDeep (reads_chars ht hrest) depth with hread | hdeep
  · have hheight := height_le_of_term hread
    rw [height_embed] at hheight
    exact absurd hheight (Nat.not_le_of_lt hdepth)
  · exact hdeep

end Parser

theorem parse_of_term_tooDeep {depth : Nat} {text : String}
    (h : Parser.term depth text.toList = .error .tooDeep) : parse depth text = .error .tooDeep := by
  have hwhole : Parser.whole depth text.toList = .error .tooDeep := by
    rw [Parser.whole, h]
    rfl
  unfold parse
  rw [hwhole]
  rfl

theorem parse_of_grammatical_or_tooDeep {text : String} {t : Named Reference}
    (h : Grammatical text t) (depth : Nat) :
    parse depth text = .ok t ∨ parse depth text = .error .tooDeep := by
  rcases grammatical_iff_reads.1 h with ⟨rest, hreads, hrest⟩
  rcases Parser.term_of_reads_or_tooDeep hreads depth with hterm | hterm
  · exact .inl (parse_eq_ok_iff.2 (Parser.whole_eq_ok_iff.2 ⟨rest, hterm, hrest⟩))
  · exact .inr (parse_of_term_tooDeep hterm)

variable {t : Named Empty}

/-- The text of a term is read if the depth is at least its height. -/
theorem parse_text_of_height_le (ht : t.Lettered) {depth : Nat} (hdepth : t.height ≤ depth) :
    parse depth t.text = .ok t.embed := by
  have hterm : Parser.term depth (t.chars ++ []) = .ok (t.embed, []) :=
    Parser.term_chars_of_height_le ht (by simp) hdepth
  rw [List.append_nil] at hterm
  refine parse_eq_ok_iff.2 (Parser.whole_eq_ok_iff.2 ⟨[], ?_, rfl⟩)
  rw [text, String.toList_ofList]
  exact hterm

/-- The text of a term is nested too deep if the depth is less than its height. -/
theorem parse_text_of_lt_height (ht : t.Lettered) {depth : Nat} (hdepth : depth < t.height) :
    parse depth t.text = .error .tooDeep := by
  have hterm : Parser.term depth (t.chars ++ []) = .error .tooDeep :=
    Parser.term_chars_of_lt_height ht (by simp) hdepth
  rw [List.append_nil] at hterm
  apply parse_of_term_tooDeep
  rw [text, String.toList_ofList]
  exact hterm

/-- A term without leaves can be told from its copy over other leaves. -/
theorem embed_injective {t u : Named Empty} (h : (t.embed : Named ρ) = u.embed) : t = u := by
  induction t generalizing u with
  | abs name body ih =>
    cases u <;> simp only [embed, map, abs.injEq, reduceCtorEq] at h
    case abs name' body' => rw [h.1, ih h.2]
  | app fn arg ihf iha =>
    cases u <;> simp only [embed, map, app.injEq, reduceCtorEq] at h
    case app fn' arg' => rw [ihf h.1, iha h.2]
  | sym name =>
    cases u <;> simp only [embed, map, sym.injEq, reduceCtorEq] at h
    case sym name' => rw [h]
  | leaf x => exact x.elim

/-- The text of a term is read as the term and up to where it ends, whatever follows, if that does
not start with a further letter. A depth of the height of the term suffices. Therefore different
terms have different texts. -/
theorem text_reads_back_before_rest (ht : t.Lettered) :
    t.text? = .ok t.text ∧
      (∀ rest : String, (∀ c ∈ rest.toList.head?, isLower c = false) →
        ∀ depth, t.height ≤ depth →
          parseAt depth (t.text ++ rest) 0 = .ok (t.embed, t.text.length)) ∧
      (∀ depth, t.height ≤ depth → parse depth t.text = .ok t.embed) ∧
      ∀ u : Named Empty, u.Lettered → u.text = t.text → u = t := by
  refine ⟨text?_empty t, ?_, fun depth hdepth => parse_text_of_height_le ht hdepth, ?_⟩
  · intro rest hrest depth hdepth
    have hterm : Parser.term depth ((t.text ++ rest).toList.drop 0) =
        .ok (t.embed, rest.toList) := by
      rw [List.drop_zero, String.toList_append, text, String.toList_ofList]
      exact Parser.term_chars_of_height_le ht hrest hdepth
    have hstop : (t.text ++ rest).length - rest.toList.length = t.text.length := by
      rw [String.length_append, String.length_toList, Nat.add_sub_cancel]
    rw [parseAt, hterm]
    simp only [hstop]
  · -- One depth that suffices for both is enough to read the common text.
    intro u hu htext
    have hread := parse_text_of_height_le hu (Nat.le_max_left u.height t.height)
    rw [htext, parse_text_of_height_le ht (Nat.le_max_right u.height t.height)] at hread
    exact (embed_injective (Except.ok.inj hread)).symm

/-- `λxy.((x xy) λx.x)` with a parenthesis and a capital right behind it. -/
theorem text_reads_back_before_rest_touching :
    let t : Named Empty :=
      abs "xy" (app (app (sym "x") (sym "xy")) (abs "x" (sym "x")))
    t.Lettered ∧ (∀ c ∈ ")A".toList.head?, isLower c = false) ∧ t.height = 4 ∧
      t.text = "λxy.((x xy) λx.x)" ∧
      parseAt 4 (t.text ++ ")A") 0 = .ok (t.embed, 17) ∧
      parse 4 "λxy.((x xy) λx.x)" = .ok t.embed := by
  intro t
  have hlettered : t.Lettered := ⟨rfl, ⟨rfl, rfl⟩, rfl, rfl⟩
  have hrest : ∀ c ∈ ")A".toList.head?, isLower c = false := by simp [isLower]
  have htext : t.text = "λxy.((x xy) λx.x)" := by decide +kernel
  have hlength : t.text.length = 17 := by decide +kernel
  rcases text_reads_back_before_rest hlettered with ⟨_, hread, hwhole, _⟩
  have hat := hread ")A" hrest 4 (Nat.le_refl 4)
  rw [hlength] at hat
  exact ⟨hlettered, hrest, rfl, htext, hat, htext ▸ hwhole 4 (Nat.le_refl 4)⟩

end Named

/-! ## Results of reduction -/

namespace Named

theorem height_nameless (t : Named Empty) (scope : List String) :
    (t.nameless scope).height = t.height := by
  induction t generalizing scope with
  | abs name body ih => simp [nameless, Indexed.height, height, ih]
  | app fn arg ihf iha => simp [nameless, Indexed.height, height, ihf, iha]
  | sym name =>
    unfold nameless
    split <;> rfl
  | leaf x => exact x.elim

theorem height_le_of_reduce? {limits : Limits} {allowFree : Bool} {t r : Named Empty}
    (h : (t.reduce? limits allowFree).result = .ok r) : r.height ≤ limits.nesting := by
  rcases reduce?_eq_ok (Reduction.eq_of_result h) with ⟨u, v, _, hnf, hnamed⟩
  calc r.height
      = (r.nameless []).height := (height_nameless r []).symm
    _ = v.height := by rw [Indexed.nameless_toNamed? hnamed]
    _ ≤ limits.nesting := Indexed.height_le_of_nfWithin hnf

end Named
end Nameless
