import ExprCalc.Proofs.Failure
import ExprCalc.Proofs.Rejection

/-!
# The first token at fault

An evaluation reads tokens until one is at fault, and it then fails as that token tells (`Offence`). Which
fault a token has is seen from the token itself, from how many numbers and operators have been read
before it (`height`) and, where it is an operator with two operands, from the values of these (`Leaves`).
The height of the stack is a count. So without a fault as many values are left as there are numbers more
than operators, and no value is left only if there were no tokens (`Leaves.eq_nil_iff`).
-/

namespace ExprCalc

/-- How many numbers more than operators there are among some tokens. -/
def height (ts : List Token) : Int :=
  ts.countP (·.kind = .number) - ts.countP (·.kind = .operator)

/-- A non-empty run of ASCII digits. -/
def IsNumeral (lexeme : String) : Prop :=
  lexeme.toList ≠ [] ∧ ∀ c ∈ lexeme.toList, c.isDigit = true

/-- The tokens are read without a fault and leave these values, the last one first. -/
inductive Leaves (limits : Limits) (operations : Operations) : List Token → List Int → Prop
  | nothing : Leaves limits operations [] []
  | number {ts : List Token} {t : Token} {stack : List Int} : Leaves limits operations ts stack →
      t.kind = .number → IsNumeral t.lexeme →
      (significantDigits t.lexeme.toList).length ≤ limits.maxDigits →
      (∀ most ∈ limits.maxConverted, (significantDigits t.lexeme.toList).length ≤ most) →
      Leaves limits operations (ts ++ [t]) (Nat.ofDigitChars 10 t.lexeme.toList 0 :: stack)
  | operator {ts : List Token} {t : Token} {stack : List Int} {f : Int → Int → Except Fault Int}
      {l r v : Int} : Leaves limits operations ts (r :: l :: stack) → t.kind = .operator →
      operations t.lexeme = some f → f l r = .ok v → bitLength v ≤ limits.maxBits →
      Leaves limits operations (ts ++ [t]) (v :: stack)

/-- What a caller is told about a literal or a result beyond the limit. -/
def tooLarge (limits : Limits) : Diagnosis :=
  ⟨.limit, "Result too large (max " ++ decimal limits.maxDigits ++ " digits)", "RESULT_TOO_LARGE"⟩

/-- What a caller is told about a literal of `count` digits where only `most` are converted. -/
def notConverted (most count : Nat) : Diagnosis :=
  ⟨.conversion, "Exceeds the limit (" ++ decimal most ++
    " digits) for integer string conversion: value has " ++ decimal count ++
    " digits; use sys.set_int_max_str_digits() to increase the limit", ""⟩

/-- What a caller is told about the token `t` at fault behind `read`. -/
inductive Offence (limits : Limits) (operations : Operations) (read : List Token) (t : Token) :
    Diagnosis → Prop
  | parenthesis : t.kind = .leftParen ∨ t.kind = .rightParen →
      Offence limits operations read t
        ⟨.malformed, "Unexpected token in postfix expression: " ++ t.describe, "MALFORMED_EXPRESSION"⟩
  | unknownOperator : t.kind = .operator → operations t.lexeme = none →
      Offence limits operations read t
        ⟨.malformed, "Unknown operator: " ++ quoted t.lexeme, "UNKNOWN_OPERATOR"⟩
  | missingOperand : t.kind = .operator → (operations t.lexeme).isSome → height read < 2 →
      Offence limits operations read t
        ⟨.malformed, "Operator " ++ quoted t.lexeme ++ " is missing an operand",
          "MALFORMED_EXPRESSION"⟩
  | operation {f : Int → Int → Except Fault Int} {l r : Int} {rest : List Int} {fault : Fault} :
      t.kind = .operator → operations t.lexeme = some f →
      Leaves limits operations read (r :: l :: rest) → f l r = .error fault →
      Offence limits operations read t fault.diagnosis
  | result {f : Int → Int → Except Fault Int} {l r v : Int} {rest : List Int} :
      t.kind = .operator → operations t.lexeme = some f →
      Leaves limits operations read (r :: l :: rest) → f l r = .ok v →
      limits.maxBits < bitLength v → Offence limits operations read t (tooLarge limits)
  | numeral : t.kind = .number → ¬ IsNumeral t.lexeme →
      Offence limits operations read t
        ⟨.numeral, "Invalid number: " ++ quoted t.lexeme, "NUMBER_PARSE_ERROR"⟩
  | literal : t.kind = .number → IsNumeral t.lexeme →
      limits.maxDigits < (significantDigits t.lexeme.toList).length →
      Offence limits operations read t (tooLarge limits)
  | conversion {most : Nat} : t.kind = .number → IsNumeral t.lexeme →
      (significantDigits t.lexeme.toList).length ≤ limits.maxDigits →
      limits.maxConverted = some most → most < (significantDigits t.lexeme.toList).length →
      Offence limits operations read t (notConverted most (significantDigits t.lexeme.toList).length)

/-- The token `t` behind `read` is at fault. -/
def Offends (limits : Limits) (operations : Operations) (read : List Token) (t : Token) : Prop :=
  ∃ d, Offence limits operations read t d

/-! ### Messages -/

namespace Fault

theorem diagnosis_of_parts {f : Fault} {kind : FaultKind} {message code : String}
    (hk : f.kind = kind) (hm : String.join f.parts = message) (hc : f.code = code) :
    f.diagnosis = ⟨kind, message, code⟩ := by
  subst hk hm hc
  rfl

theorem diagnosis_unexpectedToken (t : Token) : (unexpectedToken t).diagnosis =
    ⟨.malformed, "Unexpected token in postfix expression: " ++ t.describe, "MALFORMED_EXPRESSION"⟩ :=
  diagnosis_of_parts rfl (by simp [parts, String.join]) rfl

theorem diagnosis_missingOperand (lexeme : String) : (missingOperand lexeme).diagnosis =
    ⟨.malformed, "Operator " ++ quoted lexeme ++ " is missing an operand", "MALFORMED_EXPRESSION"⟩ :=
  diagnosis_of_parts rfl (by simp [parts, String.join]) rfl

theorem diagnosis_invalidNumber (lexeme : String) : (invalidNumber lexeme).diagnosis =
    ⟨.numeral, "Invalid number: " ++ quoted lexeme, "NUMBER_PARSE_ERROR"⟩ :=
  diagnosis_of_parts rfl (by simp [parts, String.join]) rfl

theorem diagnosis_resultTooLarge (limits : Limits) :
    (resultTooLarge limits.maxDigits).diagnosis = tooLarge limits :=
  diagnosis_of_parts rfl (by simp [parts, String.join]) rfl

theorem diagnosis_unconvertible (most count : Nat) :
    (unconvertible most count).diagnosis = notConverted most count :=
  diagnosis_of_parts rfl (by simp [parts, conversionComplaint, String.join]) rfl

theorem diagnosis_emptyExpression :
    emptyExpression.diagnosis = ⟨.malformed, "Empty expression", "EMPTY_EXPRESSION"⟩ :=
  diagnosis_of_parts rfl (by simp [parts, String.join]) rfl

theorem diagnosis_leftoverValues (n : Nat) : (leftoverValues n).diagnosis =
    ⟨.malformed, "Expression leaves " ++ decimal n ++
      " values, expected one operator between each pair of numbers", "MALFORMED_EXPRESSION"⟩ :=
  diagnosis_of_parts rfl (by simp [parts, String.join]) rfl

end Fault

/-! ### Numbers -/

section
variable {limits : Limits} {lexeme : String} {v : Int} {f : Fault}

theorem parseNumber_of_not_isNumeral (h : ¬ IsNumeral lexeme) :
    parseNumber limits lexeme = .error (.invalidNumber lexeme) := by
  have hdigits : (lexeme.toList.isEmpty || !lexeme.toList.all Char.isDigit) = true := by
    rw [← Bool.not_eq_false]
    intro hnot
    apply h
    simpa [IsNumeral] using hnot
  rw [parseNumber, if_pos hdigits]

theorem parseNumber_eq_ok_iff : parseNumber limits lexeme = .ok v ↔ IsNumeral lexeme ∧
    (significantDigits lexeme.toList).length ≤ limits.maxDigits ∧
    (∀ most ∈ limits.maxConverted, (significantDigits lexeme.toList).length ≤ most) ∧
      v = Nat.ofDigitChars 10 lexeme.toList 0 := by
  by_cases h : IsNumeral lexeme
  · rw [parseNumber_of_digits limits h.1 h.2, ← ofDigitChars_significantDigits]
    split
    · next hsize => simp [hsize]
    · next hsize => simp [h, Int.not_lt.1 hsize, convertDigits_eq_ok_iff]
  · simp [parseNumber_of_not_isNumeral h, h]

end

/-! ### The height of the stack -/

section
variable {limits : Limits} {operations : Operations} {ts read : List Token} {t : Token}
  {stack : List Int} {d : Diagnosis} {f : Fault}

theorem height_append_number (ts : List Token) (h : t.kind = .number) :
    height (ts ++ [t]) = height ts + 1 := by
  simp [height, List.countP_append, h]
  omega

theorem height_append_operator (ts : List Token) (h : t.kind = .operator) :
    height (ts ++ [t]) = height ts - 1 := by
  simp [height, List.countP_append, h]
  omega

namespace Leaves

theorem length_eq (h : Leaves limits operations ts stack) : (stack.length : Int) = height ts := by
  induction h with
  | nothing => rfl
  | number _ hk _ _ _ ih =>
    rw [height_append_number _ hk, ← ih]
    rfl
  | operator _ hk _ _ _ ih =>
    rw [height_append_operator _ hk, ← ih]
    simp

/-- Once something has been read, something is on the stack. -/
theorem eq_nil_iff (h : Leaves limits operations ts stack) : stack = [] ↔ ts = [] := by
  cases h with
  | nothing => simp
  | number | operator => simp

theorem foldlM_eq (h : Leaves limits operations ts stack) :
    ts.foldlM (evalStep limits operations) [] = .ok stack := by
  induction h with
  | nothing => rfl
  | number _ hk hn hsize hconv ih =>
    rw [List.foldlM_append, ih]
    show evalStep limits operations _ _ >>= pure = _
    rw [bind_pure, evalStep_number hk, parseNumber_eq_ok_iff.2 ⟨hn, hsize, hconv, rfl⟩]
    rfl
  | operator _ hk hf hv hsize ih =>
    rw [List.foldlM_append, ih]
    show evalStep limits operations _ _ >>= pure = _
    rw [bind_pure, evalStep_operator hk, applyLexeme, hf]
    show _ <$> applyChecked _ _ _ _ = _
    rw [applyChecked_eq_ok.2 ⟨hv, hsize⟩]
    rfl

end Leaves

theorem leaves_of_foldlM (h : ts.foldlM (evalStep limits operations) [] = .ok stack) :
    Leaves limits operations ts stack := by
  refine foldlM_invariant (Leaves limits operations) .nothing ?_ h
  intro read stack t stack' hread hstep
  rcases evalStep_eq_ok hstep with ⟨v, hk, hv, rfl⟩ | ⟨l, r, rest, v, hk, rfl, hv, rfl⟩
  · obtain ⟨hn, hsize, hconv, rfl⟩ := parseNumber_eq_ok_iff.1 hv
    exact .number hread hk hn hsize hconv
  · unfold applyLexeme at hv
    split at hv
    · cases hv
    · next f hf =>
      obtain ⟨hv, hsize⟩ := applyChecked_eq_ok.1 hv
      exact .operator hread hk hf hv hsize

/-! ### One token -/

theorem offence_of_applyLexeme {l r : Int} {rest : List Int}
    (hread : Leaves limits operations read (r :: l :: rest)) (hk : t.kind = .operator)
    (h : applyLexeme limits operations t.lexeme l r = .error f) :
    Offence limits operations read t f.diagnosis := by
  unfold applyLexeme at h
  split at h
  · next hnone =>
    cases h
    rw [Fault.diagnosis_unknownOperator]
    exact .unknownOperator hk hnone
  · next g hg =>
    rcases bind_eq_error.1 h with h | ⟨v, hv, h⟩
    · exact .operation hk hg hread h
    · split_ifs at h with hsize
      cases h
      rw [Fault.diagnosis_resultTooLarge]
      exact .result hk hg hread hv hsize

theorem offence_of_evalStep (hread : Leaves limits operations read stack)
    (h : evalStep limits operations stack t = .error f) :
    Offence limits operations read t f.diagnosis := by
  rcases evalStep_eq_error h with ⟨hk, hparse⟩ | ⟨l, r, rest, hk, rfl, happly⟩ |
    ⟨hk, hlow, ⟨hnone, rfl⟩ | ⟨hsome, rfl⟩⟩ | ⟨hk, rfl⟩
  · by_cases hn : IsNumeral t.lexeme
    · rw [parseNumber_of_digits limits hn.1 hn.2] at hparse
      split_ifs at hparse with hsize
      · cases hparse
        rw [Fault.diagnosis_resultTooLarge]
        exact .literal hk hn hsize
      · rcases convertDigits_cases limits (significantDigits t.lexeme.toList) with
          ⟨-, h⟩ | ⟨most, hmost, hlt, h⟩
        · cases h.symm.trans hparse
        · cases h.symm.trans hparse
          rw [Fault.diagnosis_unconvertible]
          exact .conversion hk hn (Int.not_lt.1 hsize) hmost hlt
    · rw [parseNumber_of_not_isNumeral hn] at hparse
      cases hparse
      rw [Fault.diagnosis_invalidNumber]
      exact .numeral hk hn
  · exact offence_of_applyLexeme hread hk happly
  · rw [Fault.diagnosis_unknownOperator]
    exact .unknownOperator hk hnone
  · rw [Fault.diagnosis_missingOperand]
    have hheight := hread.length_eq
    exact .missingOperand hk hsome (by omega)
  · rw [Fault.diagnosis_unexpectedToken]
    exact .parenthesis hk

theorem Offence.exists_evalStep (hread : Leaves limits operations read stack)
    (h : Offence limits operations read t d) :
    ∃ f, evalStep limits operations stack t = .error f ∧ f.diagnosis = d := by
  have hsame : ∀ {l r : Int} {rest : List Int}, Leaves limits operations read (r :: l :: rest) →
      stack = r :: l :: rest := by
    intro l r rest hread'
    exact Except.ok.inj (hread.foldlM_eq.symm.trans hread'.foldlM_eq)
  cases h with
  | parenthesis hk =>
    refine ⟨_, ?_, Fault.diagnosis_unexpectedToken t⟩
    rcases hk with hk | hk <;> simp only [evalStep, hk]
  | unknownOperator hk hnone =>
    refine ⟨_, ?_, Fault.diagnosis_unknownOperator t.lexeme⟩
    simp only [evalStep, hk, hnone]
  | missingOperand hk hsome hlow =>
    refine ⟨_, ?_, Fault.diagnosis_missingOperand t.lexeme⟩
    obtain ⟨g, hg⟩ := Option.isSome_iff_exists.1 hsome
    have hheight := hread.length_eq
    rcases stack with _ | ⟨r, _ | ⟨l, rest⟩⟩
    · simp only [evalStep, hk, hg]
    · simp only [evalStep, hk, hg]
    · simp only [List.length_cons] at hheight
      omega
  | operation hk hg hread' hfault =>
    obtain rfl := hsame hread'
    refine ⟨_, ?_, rfl⟩
    rw [evalStep_operator hk, applyLexeme, hg]
    show _ <$> applyChecked _ _ _ _ = _
    rw [applyChecked, hfault]
    rfl
  | result hk hg hread' hv hsize =>
    obtain rfl := hsame hread'
    refine ⟨_, ?_, Fault.diagnosis_resultTooLarge limits⟩
    rw [evalStep_operator hk, applyLexeme, hg]
    show _ <$> applyChecked _ _ _ _ = _
    rw [applyChecked, hv]
    show _ <$> (if _ then _ else _) = _
    rw [if_pos hsize]
    rfl
  | numeral hk hn =>
    refine ⟨_, ?_, Fault.diagnosis_invalidNumber t.lexeme⟩
    rw [evalStep_number hk, parseNumber_of_not_isNumeral hn]
    rfl
  | literal hk hn hsize =>
    refine ⟨_, ?_, Fault.diagnosis_resultTooLarge limits⟩
    rw [evalStep_number hk, parseNumber_of_digits limits hn.1 hn.2, if_pos hsize]
    rfl
  | conversion hk hn hle hmost hlt =>
    refine ⟨_, ?_, Fault.diagnosis_unconvertible _ _⟩
    rw [evalStep_number hk, parseNumber_of_digits limits hn.1 hn.2, if_neg (Int.not_lt.2 hle),
      convertDigits_of_lt hmost hlt]
    rfl

/-! ### All tokens -/

theorem exists_leaves_of_never (h : Never (Offends limits operations) ts) :
    ∃ stack, Leaves limits operations ts stack := by
  cases hrun : ts.foldlM (evalStep limits operations) [] with
  | ok stack => exact ⟨stack, leaves_of_foldlM hrun⟩
  | error f =>
    obtain ⟨before, t, after, stack, hts, hbefore, hstep⟩ := foldlM_eq_error.1 hrun
    exact absurd ⟨_, offence_of_evalStep (leaves_of_foldlM hbefore) hstep⟩ (h before t after hts)

theorem Leaves.never (h : Leaves limits operations ts stack) :
    Never (Offends limits operations) ts := by
  rintro before t after rfl ⟨d, hd⟩
  obtain ⟨mid, hbefore, hrest⟩ := foldlM_append_eq_ok.1 h.foldlM_eq
  obtain ⟨next, hstep, -⟩ := foldlM_cons_eq_ok.1 hrest
  obtain ⟨f, hf, -⟩ := hd.exists_evalStep (leaves_of_foldlM hbefore)
  cases hstep.symm.trans hf

theorem evaluate_of_firstAt (h : FirstAt (Offends limits operations) ts read t)
    (hd : Offence limits operations read t d) :
    ∃ f, evaluate limits operations ts = .error f ∧ f.diagnosis = d := by
  obtain ⟨⟨after, rfl⟩, -, hnever⟩ := h
  obtain ⟨stack, hread⟩ := exists_leaves_of_never hnever
  obtain ⟨f, hstep, hf⟩ := hd.exists_evalStep hread
  exact ⟨f, evaluate_eq_error.2 (.inl ⟨read, t, after, stack, rfl, hread.foldlM_eq, hstep⟩), hf⟩

/-! ### The values left -/

theorem soleValue_eq_error_iff : soleValue stack = .error f ↔
    stack = [] ∧ f = .emptyExpression ∨ 2 ≤ stack.length ∧ f = .leftoverValues stack.length := by
  refine ⟨soleValue_eq_error, ?_⟩
  rintro (⟨rfl, rfl⟩ | ⟨hmany, rfl⟩)
  · rfl
  · rcases stack with _ | ⟨v, _ | ⟨w, rest⟩⟩
    · simp at hmany
    · simp at hmany
    · rfl

theorem soleValue_eq_empty_iff : (∃ f, soleValue stack = .error f ∧
    f.diagnosis = ⟨.malformed, "Empty expression", "EMPTY_EXPRESSION"⟩) ↔ stack = [] := by
  constructor
  · rintro ⟨f, hf, hd⟩
    rcases soleValue_eq_error hf with ⟨hnil, -⟩ | ⟨-, rfl⟩
    · exact hnil
    · rw [Fault.diagnosis_leftoverValues] at hd
      simp at hd
  · rintro rfl
    exact ⟨_, rfl, Fault.diagnosis_emptyExpression⟩

theorem evaluate_of_leaves (h : Leaves limits operations ts stack) :
    evaluate limits operations ts = soleValue stack := by
  rw [evaluate, h.foldlM_eq]
  rfl

end

/-- Behind tokens that are read without a fault the height of the stack is the number of numbers less that
of operators. An evaluation fails as its first token at fault tells. If none is at fault it fails for an
empty expression just if there are no tokens, and else there are more numbers than operators: with one
more the value left is returned, and with several more their number is reported. -/
theorem evaluate_reports (limits : Limits) (operations : Operations) (ts : List Token) :
    (∀ read rest stack, ts = read ++ rest → read.foldlM (evalStep limits operations) [] = .ok stack →
      (stack.length : Int) = height read) ∧
    (∀ before t d, FirstAt (Offends limits operations) ts before t →
      Offence limits operations before t d →
        ∃ f, evaluate limits operations ts = .error f ∧ f.diagnosis = d) ∧
    (Never (Offends limits operations) ts →
      ((∃ f, evaluate limits operations ts = .error f ∧
        f.diagnosis = ⟨.malformed, "Empty expression", "EMPTY_EXPRESSION"⟩) ↔ ts = []) ∧
      (ts ≠ [] → 1 ≤ height ts) ∧
      (height ts = 1 → ∃ v, Leaves limits operations ts [v] ∧ evaluate limits operations ts = .ok v) ∧
      (1 < height ts → ∃ f, evaluate limits operations ts = .error f ∧
        f.diagnosis = ⟨.malformed, "Expression leaves " ++ decimal (height ts) ++
          " values, expected one operator between each pair of numbers", "MALFORMED_EXPRESSION"⟩)) := by
  refine ⟨?_, ?_, ?_⟩
  · intro read rest stack _ hrun
    exact (leaves_of_foldlM hrun).length_eq
  · intro before t d hfirst hd
    exact evaluate_of_firstAt hfirst hd
  · intro hnever
    obtain ⟨stack, hread⟩ := exists_leaves_of_never hnever
    have hlength := hread.length_eq
    rw [evaluate_of_leaves hread]
    refine ⟨?_, ?_, ?_, ?_⟩
    · rw [soleValue_eq_empty_iff]
      exact hread.eq_nil_iff
    · intro hts
      have hpos := List.length_pos_iff.2 (mt hread.eq_nil_iff.1 hts)
      omega
    · intro hone
      obtain ⟨v, rfl⟩ := List.length_eq_one_iff.1 (show stack.length = 1 by omega)
      exact ⟨v, hread, rfl⟩
    · intro hmany
      refine ⟨_, soleValue_eq_error_iff.2 (.inr ⟨by omega, rfl⟩), ?_⟩
      rw [Fault.diagnosis_leftoverValues, hlength]

/-- An operator that is not known has no operands either, and a parenthesis behind it is not reached; in
front of it nothing is wrong but that two values are left. -/
theorem evaluate_reports_unknown_operator :
    let limits : Limits := ⟨100, 2, 6, some 4300⟩
    let num (s : String) : Token := ⟨.number, s, none⟩
    let op (s : String) : Token := ⟨.operator, s, none⟩
    let read := [num "9", num "007", op "-"]
    let ts := read ++ op "?" :: [⟨.leftParen, "(", none⟩]
    FirstAt (Offends limits (.arithmetic limits)) ts read (op "?") ∧ height read = 1 ∧
      (∃ f, evaluate limits (.arithmetic limits) ts = .error f ∧
        f.diagnosis = ⟨.malformed, "Unknown operator: '?'", "UNKNOWN_OPERATOR"⟩) ∧
      Never (Offends limits (.arithmetic limits)) (read.take 2) ∧
      ∃ f, evaluate limits (.arithmetic limits) (read.take 2) = .error f ∧ f.code =
        "MALFORMED_EXPRESSION" := by
  intro limits num op read ts
  have hquoted : quoted "?" = "'?'" := by decide +kernel
  have hread : Leaves limits (.arithmetic limits) read [2] :=
    leaves_of_foldlM (by decide +kernel)
  have htwo : Leaves limits (.arithmetic limits) (read.take 2) [7, 9] :=
    leaves_of_foldlM (by decide +kernel)
  have hoffence : Offence limits (.arithmetic limits) read (op "?")
      ⟨.malformed, "Unknown operator: " ++ quoted "?", "UNKNOWN_OPERATOR"⟩ :=
    .unknownOperator rfl rfl
  have hfirst : FirstAt (Offends limits (.arithmetic limits)) ts read (op "?") :=
    ⟨⟨_, rfl⟩, ⟨_, hoffence⟩, hread.never⟩
  obtain ⟨-, hfails, -⟩ := evaluate_reports limits (.arithmetic limits) ts
  obtain ⟨-, -, hleft⟩ := evaluate_reports limits (.arithmetic limits) (read.take 2)
  obtain ⟨-, -, -, hmany⟩ := hleft htwo.never
  obtain ⟨f, hf, hd⟩ := hmany (by decide)
  have hunknown := hfails read (op "?") _ hfirst hoffence
  rw [hquoted] at hunknown
  exact ⟨hfirst, rfl, hunknown, htwo.never, f, hf, congrArg Diagnosis.code hd⟩

end ExprCalc
