import ExprCalc.Proofs.Failure
import ExprCalc.Proofs.Formula
import ExprCalc.Proofs.Rearrangement
import ExprCalc.Settings

/-!
# What is accepted

Nothing looks at how numbers and operators follow one another. A text is accepted if its parentheses
match and its postfix form is the postorder of a tree (`ReadsAsTree`): every operator then finds two
operands, wherever these stood. Infix text is of that kind, but so is `1 2 +`. On every other text the
evaluation comes upon a missing or a left-over operand, if no computation fails before. Where the limits
let no literal through that cannot be converted, all of this is reported
(`Calculator.exists_calculate_eq_ok`).
-/

namespace ExprCalc

/-- The parentheses of a text match, and its postfix form is the postorder of a tree. -/
def ReadsAsTree (table : Precedence) (ts : List Token) : Prop :=
  ∃ e : Tree, toPostfix table ts = .ok e.postorder

/-- The evaluation fails with `code` while every operator so far has found its operands. -/
def FailsBefore (limits : Limits) (code : String) (ts : List Token) : Prop :=
  ∃ before after f, toPostfix .arithmetic ts = .ok (before ++ after) ∧
    (before.foldlM Tree.gather []).isSome ∧
    before.foldlM (evalStep limits (.arithmetic limits)) [] = .error f ∧ f.code = code

/-! ### Tokens of arithmetic -/

/-- The numbers are runs of digits, and the operators are known. -/
def WellSpelled (ts : List Token) : Prop :=
  ∀ t ∈ ts, (t.kind = .number → t.lexeme.toList ≠ [] ∧ ∀ c ∈ t.lexeme.toList, c.isDigit = true) ∧
    (t.kind = .operator → ∃ op, Operator.ofLexeme? t.lexeme = some op)

namespace WellSpelled
variable {ts us : List Token} {limits : Limits} {f : Fault}

theorem of_tokenize {s : String} (h : Lexicon.arithmetic.tokenize limits s = .ok ts) :
    WellSpelled ts :=
  fun _ ht => ⟨isDigit_of_mem_tokens h ht, exists_operator_of_mem_tokens h ht⟩

theorem subset (h : WellSpelled ts) (hsub : us ⊆ ts) : WellSpelled us :=
  fun t ht => h t (hsub ht)

theorem covers (h : WellSpelled ts) : Precedence.arithmetic.Covers ts := by
  intro t ht hk
  obtain ⟨op, hop⟩ := (h t ht).2 hk
  rw [Operator.lexeme_of_ofLexeme? hop, op.lookup_lexeme]
  rfl

theorem postfixForm (h : WellSpelled ts) (hp : toPostfix .arithmetic ts = .ok us) : WellSpelled us :=
  h.subset fun _ ht => List.mem_of_mem_filter ((toPostfix_perm hp).subset ht)

theorem structural_of_toPostfix (h : WellSpelled ts) (hp : toPostfix .arithmetic ts = .error f) :
    f.Structural := by
  rcases toPostfix_eq_error hp with hf | ⟨t, ht, hk, hnone, -⟩
  · exact .inl hf
  · have := h.covers t ht hk
    rw [hnone] at this
    cases this

/-- A step fails for a missing operand, or its computation fails and the operands are there. -/
theorem structural_or_computational {t : Token} {trees : List Tree} {stack : List Int}
    (hconv : limits.Convertible) (h : WellSpelled [t]) (hv : Valued limits (.arithmetic limits) trees stack)
    (hs : evalStep limits (.arithmetic limits) stack t = .error f) :
    f.Structural ∨ f.Computational ∧ (Tree.gather trees t).isSome := by
  obtain ⟨hnum, hop⟩ := h t List.mem_cons_self
  rcases evalStep_eq_error hs with ⟨hk, hparse⟩ | ⟨l, r, rest, hk, rfl, happly⟩ |
    ⟨hk, -, ⟨hnone, -⟩ | ⟨-, rfl⟩⟩ | ⟨-, rfl⟩
  · obtain ⟨hne, hd⟩ := hnum hk
    exact .inr ⟨computational_of_parseNumber hconv hne hd hparse,
      by rw [Tree.gather_number hk]; rfl⟩
  · obtain ⟨op, ho⟩ := hop hk
    obtain _ | ⟨_, hv⟩ := hv
    obtain _ | ⟨_, hv⟩ := hv
    exact .inr ⟨computational_of_applyLexeme (by rw [ho]; rfl) happly,
      by rw [Tree.gather_operator hk]; rfl⟩
  · obtain ⟨op, ho⟩ := hop hk
    rw [Operations.arithmetic, ho] at hnone
    cases hnone
  · exact .inl (.inr ⟨rfl, by simp⟩)
  · exact .inl (.inr ⟨rfl, by simp⟩)

end WellSpelled

/-! ### Trees -/

namespace Tree

theorem countP_postorder (e : Tree) :
    e.postorder.countP (·.kind = .number) = e.postorder.countP (·.kind = .operator) + 1 := by
  induction e with
  | leaf t h => simp [postorder, h]
  | node op h l r ihl ihr =>
    simp only [postorder, List.countP_append, List.countP_singleton, ihl, ihr, h]
    simp
    omega

theorem computational_of_value {limits : Limits} {e : Tree} {f : Fault} (hconv : limits.Convertible)
    (ha : WellSpelled e.postorder) (h : e.value limits (.arithmetic limits) = .error f) :
    f.Computational := by
  induction e with
  | leaf t hk =>
    obtain ⟨hne, hd⟩ := (ha t List.mem_cons_self).1 hk
    exact computational_of_parseNumber hconv hne hd h
  | node op hk l r ihl ihr =>
    rw [value_node] at h
    rcases bind_eq_error.1 h with h | ⟨x, -, h⟩
    · exact ihl (ha.subset fun t ht => by simp [postorder, ht]) h
    rcases bind_eq_error.1 h with h | ⟨y, -, h⟩
    · exact ihr (ha.subset fun t ht => by simp [postorder, ht]) h
    · obtain ⟨o, ho⟩ := (ha op (by simp [postorder])).2 hk
      exact computational_of_applyLexeme (by rw [ho]; rfl) h

end Tree

namespace ReadsAsTree
variable {table : Precedence} {ts : List Token}

theorem matched (h : ReadsAsTree table ts) : Matched ts := by
  obtain ⟨e, he⟩ := h
  exact matched_of_toPostfix he

theorem countP_eq (h : ReadsAsTree table ts) :
    ts.countP (·.kind = .number) = ts.countP (·.kind = .operator) + 1 := by
  obtain ⟨e, he⟩ := h
  have hcount : ∀ k : TokenKind, k = .number ∨ k = .operator →
      e.postorder.countP (·.kind = k) = ts.countP (·.kind = k) := by
    intro k hk
    rw [(toPostfix_perm he).countP_eq, List.countP_filter]
    refine List.countP_congr fun t _ => ?_
    rcases hk with rfl | rfl <;> simp +contextual [Yard.kept]
  rw [← hcount _ (.inl rfl), ← hcount _ (.inr rfl), e.countP_postorder]

end ReadsAsTree

section
variable {limits : Limits} {ts : List Token}

theorem exists_postorder_of_evaluate {operations : Operations} {v : Int}
    (h : evaluate limits operations ts = .ok v) : ∃ e : Tree, e.postorder = ts := by
  obtain ⟨stack, hrun, hsole⟩ := bind_eq_ok.1 h
  obtain ⟨trees, hg, hv⟩ := foldlM_evalStep_gather hrun
  match stack, hsole with
  | [_], _ =>
    obtain _ | @⟨e, _, _, _, _, hv⟩ := hv
    cases hv
    exact ⟨e, (Tree.listing_foldlM_gather hg : [] ++ e.postorder = [] ++ ts)⟩

/-- The evaluation of a text that does not read as a tree fails for that, or before. -/
theorem evaluate_of_not_readsAsTree (hconv : limits.Convertible) {ps : List Token}
    (ha : WellSpelled ps) (hp : toPostfix .arithmetic ts = .ok ps) (ht : ¬ ReadsAsTree .arithmetic ts) :
    ∃ f, evaluate limits (.arithmetic limits) ps = .error f ∧
      (f.Structural ∨ f.Computational ∧ FailsBefore limits f.code ts) := by
  cases h : evaluate limits (.arithmetic limits) ps with
  | ok v =>
    obtain ⟨e, rfl⟩ := exists_postorder_of_evaluate h
    exact absurd ⟨e, hp⟩ ht
  | error f =>
    refine ⟨f, rfl, ?_⟩
    rcases evaluate_eq_error.1 h with ⟨before, t, after, stack, rfl, hrun, hs⟩ | ⟨stack, -, hs⟩
    · obtain ⟨trees, hg, hv⟩ := foldlM_evalStep_gather hrun
      rcases WellSpelled.structural_or_computational hconv (ha.subset (by simp)) hv hs
        with hf | ⟨hf, hsome⟩
      · exact .inl hf
      · refine .inr ⟨hf, before ++ [t], after, f, ?_, ?_, ?_, rfl⟩
        · rw [hp, List.append_assoc, List.singleton_append]
        · simpa [hg] using hsome
        · rw [List.foldlM_append, hrun]
          show evalStep limits (.arithmetic limits) stack t >>= pure = _
          rw [bind_pure, hs]
    · rcases soleValue_eq_error hs with ⟨-, rfl⟩ | ⟨-, rfl⟩
      · exact .inl (.inr ⟨rfl, by simp⟩)
      · exact .inl (.inr ⟨rfl, by simp⟩)

end

theorem Derives.exists_last {phrase : Phrase} {ts : List Token} (h : Derives phrase ts) :
    ∃ us t, ts = us ++ [t] ∧ t.kind ≠ .operator := by
  induction h with
  | @number t ht => exact ⟨[], t, rfl, by simp [ht]⟩
  | @group lp rp ts _ hr => exact ⟨lp :: ts, rp, rfl, by simp [hr]⟩
  | single _ ih => exact ih
  | @chain op ts us _ _ _ _ ih =>
    obtain ⟨us, t, rfl, ht⟩ := ih
    exact ⟨ts ++ op :: us, t, by simp, ht⟩

namespace Calculator
variable {limits : Limits} {s : String}

theorem run_of_tokenize {ts : List Token} (h : Lexicon.arithmetic.tokenize limits s = .ok ts) :
    run limits s = toPostfix .arithmetic ts >>= fun ps =>
      evaluate limits (.arithmetic limits) ps >>= fun v => .ok ⟨ts, ps, v⟩ := by
  unfold run
  rw [h]
  rfl

theorem evaluateExpression_eq_ok {v : Int} :
    evaluateExpression limits s = .ok v ↔ ∃ e, run limits s = .ok e ∧ e.value = v := by
  rw [evaluateExpression_eq, map_eq_ok]

theorem evaluateExpression_eq_error {f : Fault} :
    evaluateExpression limits s = .error f ↔ run limits s = .error f := by
  rw [evaluateExpression_eq, map_eq_error]

theorem reported_or_refuses_of_run {f : Fault} (h : run limits s = .error f) :
    f.reported = true ∨ limits.Refuses f := by
  rcases bind_eq_error.1 h with h | ⟨ts, -, h⟩
  · rw [tokenize_eq_error h]
    exact .inl rfl
  rcases bind_eq_error.1 h with h | ⟨ps, -, h⟩
  · exact .inl (reported_of_toPostfix h)
  rcases bind_eq_error.1 h with h | ⟨_, -, h⟩
  · exact reported_or_refuses_of_evaluate h
  · cases h

/-- What is not reported is a literal that cannot be converted. -/
theorem calculate_eq_error_unconvertible {f : Fault} (h : calculate limits s = .error f) :
    ∃ most count, limits.maxConverted = some most ∧ most < count ∧ count ≤ limits.maxDigits ∧
      f = .unconvertible most count := by
  obtain ⟨hrun, hf⟩ := calculate_eq_error.1 h
  rcases reported_or_refuses_of_run hrun with hreported | ⟨⟨⟩ | ⟨hmost, hlt, hle⟩⟩
  · simp [hf] at hreported
  · cases hf
  · exact ⟨_, _, hmost, hlt, hle, rfl⟩

theorem exists_calculate_eq_ok (hconv : limits.Convertible) (s : String) :
    ∃ report, calculate limits s = .ok report := by
  cases h : calculate limits s with
  | ok report => exact ⟨report, rfl⟩
  | error f =>
    obtain ⟨most, count, hmost, hlt, hle, -⟩ := calculate_eq_error_unconvertible h
    have := hconv most hmost
    omega

theorem errorCode_eq_some {report : Report} (h : calculate limits s = .ok report) {c : String} :
    report.errorCode = some c ↔ ∃ f, run limits s = .error f ∧ f.code = c := by
  unfold calculate at h
  cases hrun : run limits s with
  | ok e =>
    rw [hrun] at h
    cases h
    exact ⟨nofun, nofun⟩
  | error f =>
    rw [hrun, reportOn] at h
    split_ifs at h
    cases h
    simp [reportFault]

theorem ok_eq_false {report : Report} (h : calculate limits s = .ok report) {f : Fault}
    (hrun : run limits s = .error f) : report.ok = false := by
  rw [calculate, hrun, reportOn] at h
  split_ifs at h
  cases h
  rfl

/-- Infix text reads as a tree, and a text that does is only refused for a computation that fails. Any
other text is refused for its structure or for a computation that fails before. In a text that reads
as a tree the parentheses match and there is one number more than operators. All this is reported where
every literal within the limits can be converted. -/
theorem calculate_errorCode_structural (limits : Limits) (hconv : limits.Convertible) (s : String)
    (hl : (s.length : Int) ≤ limits.maxLength) :
    ∃ ts report, Lexicon.arithmetic.tokenize limits s = .ok ts ∧ calculate limits s = .ok report ∧
      (Derives .expression ts → ReadsAsTree .arithmetic ts) ∧
      (ReadsAsTree .arithmetic ts →
        Matched ts ∧ ts.countP (·.kind = .number) = ts.countP (·.kind = .operator) + 1 ∧
        ∀ c ∈ report.errorCode, c ∈ Fault.computationCodes ∧ c ∉ Fault.structuralCodes) ∧
      (¬ ReadsAsTree .arithmetic ts →
        report.ok = false ∧ ∃ c, report.errorCode = some c ∧
          (c ∈ Fault.structuralCodes ∨ c ∈ Fault.computationCodes ∧ FailsBefore limits c ts)) := by
  obtain ⟨os, hos⟩ := exists_scan 0 s.toList
  have htokens := hos.tokenize_eq hl
  generalize os.map Occurrence.token = ts at htokens
  have ha : WellSpelled ts := .of_tokenize htokens
  have hrun := run_of_tokenize htokens
  obtain ⟨report, hreport⟩ := exists_calculate_eq_ok hconv s
  refine ⟨ts, report, htokens, hreport, fun hd => ?_,
    fun ht => ⟨ht.matched, ht.countP_eq, fun c hc => ?_⟩, fun ht => ?_⟩
  · obtain ⟨p, rfl, hp, -⟩ := Parse.exists_ordered_of_derives hd ha.covers
    exact ⟨p.tree, hp.toPostfix_tokens⟩
  · obtain ⟨e, he⟩ := ht
    obtain ⟨f, hf, rfl⟩ := (errorCode_eq_some hreport).1 hc
    rw [hrun, he] at hf
    obtain ⟨_, ⟨⟩, hf⟩ := (bind_eq_error.1 hf).resolve_left nofun
    have hvalue : evaluate limits (.arithmetic limits) e.postorder = .error f :=
      (bind_eq_error.1 hf).resolve_right (by rintro ⟨_, _, ⟨⟩⟩)
    rw [evaluate_postorder] at hvalue
    have hcode := (Tree.computational_of_value hconv (ha.postfixForm he) hvalue).code_mem
    have hdisjoint : ∀ c ∈ Fault.computationCodes, c ∉ Fault.structuralCodes := by decide
    exact ⟨hcode, hdisjoint _ hcode⟩
  · obtain ⟨f, hf, hkind⟩ : ∃ f, run limits s = .error f ∧
        (f.Structural ∨ f.Computational ∧ FailsBefore limits f.code ts) := by
      rw [hrun]
      cases hp : toPostfix .arithmetic ts with
      | error f => exact ⟨f, rfl, .inl (ha.structural_of_toPostfix hp)⟩
      | ok ps =>
        obtain ⟨f, hf, hkind⟩ := evaluate_of_not_readsAsTree hconv (ha.postfixForm hp) hp ht
        exact ⟨f, bind_eq_error.2 (.inr ⟨ps, rfl, bind_eq_error.2 (.inl hf)⟩), hkind⟩
    refine ⟨ok_eq_false hreport hf, f.code, (errorCode_eq_some hreport).2 ⟨f, hf, rfl⟩, ?_⟩
    rcases hkind with hkind | ⟨hkind, hearly⟩
    · exact .inl hkind.code_mem
    · exact .inr ⟨hkind.code_mem, hearly⟩

/-- An operator without a right operand is refused. -/
theorem calculate_errorCode_structural_missing_operand :
    let limits : Limits := ⟨10, 3, 9, some 4300⟩
    limits.Convertible ∧ ("2**".length : Int) ≤ limits.maxLength ∧
      ∃ ts report, Lexicon.arithmetic.tokenize limits "2**" = .ok ts ∧
        calculate limits "2**" = .ok report ∧ ¬ ReadsAsTree .arithmetic ts ∧
        ∃ c, report.errorCode = some c ∧
          (c ∈ Fault.structuralCodes ∨ c ∈ Fault.computationCodes ∧ FailsBefore limits c ts) := by
  intro limits
  have hconv : limits.Convertible := by
    rintro most ⟨⟩
    decide
  obtain ⟨ts, report, hts, hreport, -, htree, hrest⟩ :=
    calculate_errorCode_structural limits hconv "2**" (by decide)
  have hscan : Scan 0 "2**".toList [⟨.number, 0, ['2']⟩, ⟨.operator, 1, ['*', '*']⟩] :=
    .token (.digit rfl rfl) (.token (.operator .pow nofun) .done)
  have hnot : ¬ ReadsAsTree .arithmetic ts := by
    intro h
    cases hts.symm.trans (hscan.tokenize_eq (by decide))
    exact absurd (htree h).2.1 (by decide)
  exact ⟨hconv, by decide, ts, report, hts, hreport, hnot, (hrest hnot).2⟩

/-- An operator may stand behind its operands. -/
theorem calculate_operator_behind :
    ∃ ts report, Lexicon.arithmetic.tokenize Settings.default.limits "1 2 +" = .ok ts ∧
      ¬ Derives .expression ts ∧ calculate Settings.default.limits "1 2 +" = .ok report ∧
      report.errorCode = none ∧ report.result = some 3 := by
  have hlimits : Settings.default.limits = ⟨10000, 4300, 14284, some 4300⟩ := by decide +kernel
  rw [hlimits]
  have hscan : Scan 0 "1 2 +".toList
      [⟨.number, 0, ['1']⟩, ⟨.number, 2, ['2']⟩, ⟨.operator, 4, ['+']⟩] :=
    .token (.digit rfl rfl) (.skip rfl (.token (.digit rfl rfl)
      (.skip rfl (.token (.operator .add nofun) .done))))
  have hlength : ("1 2 +".length : Int) ≤
      (⟨10000, 4300, 14284, some 4300⟩ : Limits).maxLength := by decide
  have htokens := hscan.tokenize_eq hlength
  have hvalue : Evaluated.value <$> run ⟨10000, 4300, 14284, some 4300⟩ "1 2 +" = .ok 3 := by
    rw [run_of_tokenize htokens]
    rfl
  obtain ⟨e, he, hv⟩ := map_eq_ok.1 hvalue
  refine ⟨_, _, htokens, ?_, calculate_of_ok he, rfl, congrArg some hv⟩
  intro hd
  obtain ⟨us, t, hts, ht⟩ := hd.exists_last
  have hlast := congrArg List.getLast? hts
  rw [List.getLast?_append] at hlast
  cases hlast
  exact ht rfl

end Calculator

end ExprCalc
