import ExprCalc.Proofs.Acceptance
import ExprCalc.Proofs.Loading
import ExprCalc.Proofs.Rejection

/-!
# What can be wrong with a text

The lexicon, the ranks and the operators are three tables, and they agree: every operator that is cut
out of a text has a rank and a function, and every number is a run of digits. So of the faults that
the stages know, a text only ever has those listed in `Fault.OfText`. All of these but one are the
calculator's own; the exception takes a literal of more digits than can be converted, and limits that let
it through.
-/

namespace ExprCalc

/-- The faults of texts. There is no unknown operator, unexpected token or invalid number. -/
inductive Fault.OfText (limits : Limits) : Fault → Prop
  | tooLong : OfText limits (.tooLong limits.maxLength)
  | resultTooLarge : OfText limits (.resultTooLarge limits.maxDigits)
  | unmatchedRight (offset : Nat) : OfText limits (.unmatchedRight (some offset))
  | unmatchedLeft (offset : Nat) : OfText limits (.unmatchedLeft (some offset))
  | missingOperand (op : Operator) : OfText limits (.missingOperand op.lexeme)
  | leftoverValues {n : Nat} : 2 ≤ n → OfText limits (.leftoverValues n)
  | emptyExpression : OfText limits .emptyExpression
  | divisionByZero : OfText limits .divisionByZero
  | zeroToNegativePower : OfText limits .zeroToNegativePower
  | unconvertible {most count : Nat} : limits.maxConverted = some most → most < count →
      count ≤ limits.maxDigits → OfText limits (.unconvertible most count)

/-- The kinds and codes of the faults of texts that are reported. -/
def textDiagnoses : List (FaultKind × String) := [
  (.limit, "TOO_LONG"),
  (.limit, "RESULT_TOO_LARGE"),
  (.parentheses, "UNBALANCED_PARENTHESES"),
  (.malformed, "MALFORMED_EXPRESSION"),
  (.malformed, "EMPTY_EXPRESSION"),
  (.division, "DIVISION_BY_ZERO")]

section
variable {limits : Limits} {s : String} {ts ps : List Token} {t : Token} {stack : List Int} {f : Fault}

theorem Fault.OfText.of_refuses (h : limits.Refuses f) : f.OfText limits := by
  cases h with
  | size => exact .resultTooLarge
  | conversion hmost hlt hle => exact .unconvertible hmost hlt hle

theorem Fault.OfText.diagnosis_mem (h : f.OfText limits) (hf : f.reported = true) :
    (f.kind, f.code) ∈ textDiagnoses := by
  cases h with
  | tooLong => exact .head _
  | resultTooLarge => exact .tail _ (.head _)
  | unmatchedRight | unmatchedLeft => exact .tail _ (.tail _ (.head _))
  | missingOperand | leftoverValues => exact .tail _ (.tail _ (.tail _ (.head _)))
  | emptyExpression => exact .tail _ (.tail _ (.tail _ (.tail _ (.head _))))
  | divisionByZero | zeroToNegativePower =>
    exact .tail _ (.tail _ (.tail _ (.tail _ (.tail _ (.head _)))))
  | unconvertible => cases hf

theorem Fault.OfText.eq_unconvertible (h : f.OfText limits) (hf : f.reported = false) :
    ∃ most count, limits.maxConverted = some most ∧ most < count ∧ count ≤ limits.maxDigits ∧
      f = .unconvertible most count := by
  cases h with
  | unconvertible hmost hlt hle => exact ⟨_, _, hmost, hlt, hle, rfl⟩
  | _ => cases hf

/-! ### Cutting and conversion -/

theorem exists_offset_of_mem_tokens (h : Lexicon.arithmetic.tokenize limits s = .ok ts)
    (ht : t ∈ ts) : ∃ offset : Nat, t.position = some (offset : Int) := by
  obtain ⟨-, os, -, rfl⟩ := tokenize_eq_ok h
  obtain ⟨o, -, rfl⟩ := List.mem_map.1 ht
  exact ⟨o.start, rfl⟩

theorem ofText_of_toPostfix (h : Lexicon.arithmetic.tokenize limits s = .ok ts)
    (hf : toPostfix .arithmetic ts = .error f) : f.OfText limits := by
  rcases toPostfix_eq_error_iff.1 hf with ⟨before, t, ⟨⟨after, rfl⟩, hstop, -⟩, rfl⟩ |
    ⟨-, before, t, after, rfl, -, rfl⟩
  · obtain ⟨offset, hoffset⟩ := exists_offset_of_mem_tokens h (t := t) (by simp)
    rcases hstop with ⟨ho, hnone⟩ | ⟨hside, -⟩
    · have hrank := (WellSpelled.of_tokenize h).covers t (by simp) ho
      rw [hnone] at hrank
      cases hrank
    · have hno : t.kind ≠ .operator := by simp [Token.side_eq_closing_iff.1 hside]
      rw [stopFault, if_neg hno, hoffset]
      exact .unmatchedRight offset
  · obtain ⟨offset, hoffset⟩ := exists_offset_of_mem_tokens h (t := t) (by simp)
    rw [hoffset]
    exact .unmatchedLeft offset

/-! ### Evaluation -/

theorem kept_of_mem_postfixForm (hp : toPostfix .arithmetic ts = .ok ps) (ht : t ∈ ps) :
    t.kind = .number ∨ t.kind = .operator :=
  of_decide_eq_true (List.mem_filter.1 ((toPostfix_perm hp).subset ht)).2

/-- A step never finds that there is nothing to evaluate. -/
theorem ofText_of_evalStep (ht : WellSpelled [t]) (hk : t.kind = .number ∨ t.kind = .operator)
    (h : evalStep limits (.arithmetic limits) stack t = .error f) :
    f.OfText limits ∧ f ≠ .emptyExpression := by
  obtain ⟨hnumber, hoperator⟩ := ht t List.mem_cons_self
  rcases evalStep_eq_error h with ⟨hn, hparse⟩ | ⟨l, r, rest, ho, -, happly⟩ |
    ⟨ho, -, ⟨hnone, -⟩ | ⟨-, rfl⟩⟩ | ⟨hp, -⟩
  · obtain ⟨hne, hd⟩ := hnumber hn
    have hf := parseNumber_eq_error hne hd hparse
    exact ⟨.of_refuses hf, by rintro rfl; cases hf⟩
  · obtain ⟨op, hop⟩ := hoperator ho
    rcases applyLexeme_eq_error (by rw [hop]; rfl) happly with rfl | rfl | rfl
    · exact ⟨.divisionByZero, by simp⟩
    · exact ⟨.zeroToNegativePower, by simp⟩
    · exact ⟨.resultTooLarge, by simp⟩
  · obtain ⟨op, hop⟩ := hoperator ho
    rw [Operations.arithmetic, hop] at hnone
    cases hnone
  · obtain ⟨op, hop⟩ := hoperator ho
    rw [Operator.lexeme_of_ofLexeme? hop]
    exact ⟨.missingOperand op, by simp⟩
  · rcases hk with hk | hk <;> simp [hk] at hp

theorem ofText_of_evaluate (ha : WellSpelled ps)
    (hk : ∀ t ∈ ps, t.kind = .number ∨ t.kind = .operator)
    (h : evaluate limits (.arithmetic limits) ps = .error f) : f.OfText limits := by
  rcases evaluate_eq_error.1 h with ⟨before, t, after, stack, rfl, -, hstep⟩ | ⟨stack, -, hsole⟩
  · exact (ofText_of_evalStep (ha.subset (by simp)) (hk t (by simp)) hstep).1
  · rcases soleValue_eq_error hsole with ⟨-, rfl⟩ | ⟨hlength, rfl⟩
    · exact .emptyExpression
    · exact .leftoverValues hlength

/-- Only the reading of a literal can run into the limit on conversions. -/
theorem evalStep_eq_unconvertible {most count : Nat}
    (h : evalStep limits (.arithmetic limits) stack t = .error (.unconvertible most count)) :
    t.kind = .number ∧ (significantDigits t.lexeme.toList).length = count := by
  rcases evalStep_eq_error h with ⟨hk, hparse⟩ | ⟨l, r, rest, -, -, happly⟩ |
    ⟨-, -, ⟨-, ⟨⟩⟩ | ⟨-, ⟨⟩⟩⟩ | ⟨-, ⟨⟩⟩
  · refine ⟨hk, ?_⟩
    rcases parseNumber_cases limits t.lexeme with hexact | ⟨count', hcount, ⟨hp, -⟩ | ⟨most', hp, -⟩⟩
    · cases exactNumber_eq_error (hexact ▸ hparse)
    · cases hp.symm.trans hparse
    · cases hp.symm.trans hparse
      exact hcount
  · rcases applyLexeme_cases limits t.lexeme l r with hexact | ⟨happly', -⟩
    · rcases exactLexeme_eq_error (hexact ▸ happly) with ⟨⟨⟩⟩ | ⟨⟨⟩⟩
    · cases happly'.symm.trans happly

theorem exists_literal_of_evaluate {most count : Nat}
    (h : evaluate limits (.arithmetic limits) ps = .error (.unconvertible most count)) :
    ∃ t ∈ ps, t.kind = .number ∧ (significantDigits t.lexeme.toList).length = count := by
  rcases evaluate_eq_error.1 h with ⟨before, t, after, stack, rfl, -, hstep⟩ | ⟨stack, -, hsole⟩
  · exact ⟨t, by simp, evalStep_eq_unconvertible hstep⟩
  · rcases soleValue_eq_error hsole with ⟨-, ⟨⟩⟩ | ⟨-, ⟨⟩⟩

end

namespace Calculator
variable {limits : Limits} {s : String} {f : Fault}

theorem evaluateExpression_of_tokenize {ts : List Token}
    (h : Lexicon.arithmetic.tokenize limits s = .ok ts) : evaluateExpression limits s =
      toPostfix .arithmetic ts >>= evaluate limits (.arithmetic limits) := by
  unfold evaluateExpression
  rw [h]
  rfl

theorem ofText_of_evaluateExpression (h : evaluateExpression limits s = .error f) :
    f.OfText limits := by
  rcases bind_eq_error.1 h with h | ⟨ts, hts, h⟩
  · rw [tokenize_eq_error h]
    exact .tooLong
  rcases bind_eq_error.1 h with hp | ⟨ps, hp, he⟩
  · exact ofText_of_toPostfix hts hp
  · exact ofText_of_evaluate ((WellSpelled.of_tokenize hts).postfixForm hp)
      (fun t => kept_of_mem_postfixForm hp) he

theorem evaluateExpression_of_scan {os : List Occurrence} (h : Scan 0 s.toList os)
    (hl : (s.length : Int) ≤ limits.maxLength) :
    evaluateExpression limits s = toPostfix .arithmetic (os.map Occurrence.token) >>=
      evaluate limits (.arithmetic limits) :=
  evaluateExpression_of_tokenize (h.tokenize_eq hl)

/-- The literal that cannot be converted stands in the text. -/
theorem exists_literal_of_unconvertible {most count : Nat}
    (h : evaluateExpression limits s = .error (.unconvertible most count)) :
    ∃ ts t, Lexicon.arithmetic.tokenize limits s = .ok ts ∧ t ∈ ts ∧ t.kind = .number ∧
      (significantDigits t.lexeme.toList).length = count := by
  rcases bind_eq_error.1 h with h | ⟨ts, hts, h⟩
  · cases tokenize_eq_error h
  rcases bind_eq_error.1 h with h | ⟨ps, hps, h⟩
  · cases reported_of_toPostfix h
  · obtain ⟨t, ht, hk, hcount⟩ := exists_literal_of_evaluate h
    exact ⟨ts, t, hts, List.mem_of_mem_filter ((toPostfix_perm hps).subset ht), hk, hcount⟩

/-- Each of the kinds and codes listed is that of a text. -/
theorem exists_text_of_mem_textDiagnoses {d : FaultKind × String} (hd : d ∈ textDiagnoses) :
    ∃ maxLength maxDigits s f, evaluateExpression (.ofDigits maxLength maxDigits) s = .error f ∧
      (f.kind, f.code) = d := by
  have hlimits : Limits.ofDigits 3 1 = ⟨3, 1, 3, some 4300⟩ := by decide +kernel
  simp only [textDiagnoses, List.mem_cons, List.not_mem_nil, or_false] at hd
  rcases hd with rfl | rfl | rfl | rfl | rfl | rfl
  · refine ⟨0, 1, "1", .tooLong 0, ?_, rfl⟩
    unfold evaluateExpression
    rw [tokenize_eq_tooLong (by decide)]
    rfl
  · have hten : Munch .number ['1', '0'] [] := .number (by simp) (by simp) (by simp)
    have hscan : Scan 0 "10".toList [⟨.number, 0, ['1', '0']⟩] := .token hten .done
    refine ⟨3, 1, "10", .resultTooLarge 1, ?_, rfl⟩
    rw [hlimits, evaluateExpression_of_scan hscan (by decide)]
    decide +kernel
  · have hscan : Scan 0 ")".toList [⟨.rightParen, 0, [')']⟩] := .token .rightParen .done
    refine ⟨3, 1, ")", .unmatchedRight (some 0), ?_, rfl⟩
    rw [hlimits, evaluateExpression_of_scan hscan (by decide)]
    rfl
  · have hscan : Scan 0 "+".toList [⟨.operator, 0, ['+']⟩] := .token (.operator .add nofun) .done
    refine ⟨3, 1, "+", .missingOperand "+", ?_, rfl⟩
    rw [hlimits, evaluateExpression_of_scan hscan (by decide)]
    rfl
  · refine ⟨3, 1, "", .emptyExpression, ?_, rfl⟩
    rw [hlimits, evaluateExpression_of_scan .done (by decide)]
    rfl
  · have hscan : Scan 0 "1/0".toList
        [⟨.number, 0, ['1']⟩, ⟨.operator, 1, ['/']⟩, ⟨.number, 2, ['0']⟩] :=
      .token (.digit rfl rfl) (.token (.operator .div nofun) (.token (.digit rfl rfl) .done))
    refine ⟨3, 1, "1/0", .divisionByZero, ?_, rfl⟩
    rw [hlimits, evaluateExpression_of_scan hscan (by decide)]
    decide +kernel

/-- A text has a value or one of the faults of texts, and these have just the kinds and codes listed. The
exception is a literal in the text whose digits are not converted, though the limit on digits lets it
through: that is none of the calculator's faults. It takes a limit on digits beyond that on conversions. -/
theorem evaluateExpression_faults :
    (∀ limits s, (∃ v, evaluateExpression limits s = .ok v) ∨
      ∃ f, evaluateExpression limits s = .error f ∧ f.OfText limits ∧
        ((f.kind, f.code) ∈ textDiagnoses ∨
          ∃ most count, f = .unconvertible most count ∧ limits.maxConverted = some most ∧
            most < count ∧ count ≤ limits.maxDigits ∧
            ∃ ts t, Lexicon.arithmetic.tokenize limits s = .ok ts ∧ t ∈ ts ∧ t.kind = .number ∧
              (significantDigits t.lexeme.toList).length = count)) ∧
    ∀ d ∈ textDiagnoses, ∃ maxLength maxDigits s f,
      evaluateExpression (.ofDigits maxLength maxDigits) s = .error f ∧ (f.kind, f.code) = d := by
  refine ⟨fun limits s => ?_, fun d => exists_text_of_mem_textDiagnoses⟩
  cases h : evaluateExpression limits s with
  | ok v => exact .inl ⟨v, rfl⟩
  | error f =>
    have hf := ofText_of_evaluateExpression h
    refine .inr ⟨f, rfl, hf, ?_⟩
    cases hr : f.reported with
    | true => exact .inl (hf.diagnosis_mem hr)
    | false =>
      obtain ⟨most, count, hmost, hlt, hle, rfl⟩ := hf.eq_unconvertible hr
      exact .inr ⟨most, count, rfl, hmost, hlt, hle, exists_literal_of_unconvertible h⟩

/-! ### Digits that are not converted -/

/-- A literal of one digit more than are converted. -/
def longLiteral : String := String.ofList (List.replicate (conversionLimit + 1) '1')

theorem length_significantDigits_longLiteral :
    (significantDigits longLiteral.toList).length = conversionLimit + 1 := by
  have hones : significantDigits ('1' :: List.replicate conversionLimit '1') =
      '1' :: List.replicate conversionLimit '1' := rfl
  rw [longLiteral, String.toList_ofList, List.replicate_succ, hones, List.length_cons,
    List.length_replicate]

theorem evaluateExpression_longLiteral (hl : conversionLimit + 1 ≤ limits.maxLength)
    (hd : conversionLimit + 1 ≤ limits.maxDigits)
    (hmost : limits.maxConverted = some conversionLimit) : evaluateExpression limits longLiteral =
      .error (.unconvertible conversionLimit (conversionLimit + 1)) := by
  have hdigits : ∀ c ∈ longLiteral.toList, c.isDigit = true := by
    intro c hc
    rw [longLiteral, String.toList_ofList] at hc
    rw [List.eq_of_mem_replicate hc]
    rfl
  have hlength : longLiteral.toList.length = conversionLimit + 1 := by
    rw [longLiteral, String.toList_ofList, List.length_replicate]
  have hcount := length_significantDigits_longLiteral
  rw [evaluateExpression_of_digits (List.ne_nil_of_length_eq_add_one hlength) hdigits
      (by rw [← String.length_toList, hlength]; exact_mod_cast hl),
    parseNumber_of_digits _ (List.ne_nil_of_length_eq_add_one hlength) hdigits, hcount,
    if_neg (Int.not_lt.2 (by exact_mod_cast hd)), convertDigits_of_lt hmost (by omega), hcount]

/-- A limit of 5000 digits can be set, and then a literal of 4301 digits ends in none of the faults
listed; a limit of `2 ^ 1024` digits cannot even be set. -/
theorem evaluateExpression_fault_not_listed :
    Settings.ofEnvironment (Settings.asking 10000 (1 <<< 1024)) = .error .digitsOverflow ∧
    ∃ settings f, Settings.ofEnvironment (Settings.asking 10000 5000) = .ok settings ∧
      evaluateExpression settings.limits longLiteral = .error f ∧
      (f.kind, f.code) ∉ textDiagnoses :=
  ⟨Settings.ofEnvironment_asking_overflow, _, _, Settings.ofEnvironment_asking_five_thousand,
    evaluateExpression_longLiteral (by decide) (by decide) rfl, by decide⟩

end Calculator

end ExprCalc
