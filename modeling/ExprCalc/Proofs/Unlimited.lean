import ExprCalc.Proofs.Magnitude
import ExprCalc.Proofs.TextFault

/-!
# What limits change

`exactRun` takes an expression through the three stages without limits. Under limits a step of the
evaluation does what it does without them, or it is refused (`evalStep_unlessRefused`), and a run goes
the same way up to the first step that is refused. So limits never turn one answer into another, and
for every expression there are limits that refuse nothing (`Calculator.exists_calculate_eq_exact`). A
refusal is reported, but for that of a literal whose digits are not converted
(`Calculator.BreaksOff`).
-/

namespace ExprCalc

/-- The reading of one token with values of any size. -/
def exactStep (stack : List Int) (t : Token) : Except Fault (List Int) :=
  match t.kind with
  | .number => return (← exactNumber t.lexeme) :: stack
  | .operator =>
    match Operator.ofLexeme? t.lexeme with
    | none => .error (.unknownOperator t.lexeme)
    | some op =>
      match stack with
      | right :: left :: rest => return (← op.exact left right) :: rest
      | _ => .error (.missingOperand t.lexeme)
  | .leftParen | .rightParen => .error (.unexpectedToken t)

def exactEvaluate (ts : List Token) : Except Fault Int := do
  soleValue (← ts.foldlM exactStep [])

namespace Calculator

/-- All three stages, for an expression of any length and with values of any size. -/
def exactRun (expression : String) : Except Fault Evaluated := do
  let tokens := (Lexicon.arithmetic.segments expression.toList).filterMap Segment.token?
  let postfixForm ← toPostfix .arithmetic tokens
  let value ← exactEvaluate postfixForm
  return { tokens, postfixForm, value }

def exactReport (expression : String) : Except Fault Report :=
  reportOn expression (exactRun expression)

/-- The calculation breaks off at a literal that the limit on digits lets through, but not the one on
conversions. -/
def BreaksOff (limits : Limits) (expression : String) : Prop :=
  ∃ most count, limits.maxConverted = some most ∧ most < count ∧ count ≤ limits.maxDigits ∧
    calculate limits expression = .error (.unconvertible most count)

end Calculator

/-- The expression or one of its numbers is too large. -/
def Report.Refused (r : Report) : Prop :=
  r.errorCode = some "TOO_LONG" ∨ r.errorCode = some "RESULT_TOO_LARGE"

/-! ### One step -/

section
variable {t : Token} {stack : List Int}

theorem exactStep_number (h : t.kind = .number) :
    exactStep stack t = (· :: stack) <$> exactNumber t.lexeme := by
  simp only [exactStep, h]
  cases exactNumber t.lexeme <;> rfl

theorem exactStep_operator (h : t.kind = .operator) (l r : Int) :
    exactStep (r :: l :: stack) t = (· :: stack) <$> exactLexeme t.lexeme l r := by
  simp only [exactStep, h, exactLexeme]
  cases Operator.ofLexeme? t.lexeme with
  | none => rfl
  | some op => cases op.exact l r <;> rfl

end

/-- A step that neither reads a number nor applies an operator does not look at the limits. -/
theorem evalStep_exact_cases (stack : List Int) (t : Token) : t.kind = .number ∨
    (∃ l r rest, t.kind = .operator ∧ stack = r :: l :: rest) ∨
    ∀ limits : Limits, evalStep limits (.arithmetic limits) stack t = exactStep stack t := by
  cases hk : t.kind with
  | number => exact .inl rfl
  | operator =>
    rcases stack with _ | ⟨r, _ | ⟨l, rest⟩⟩
    · refine .inr (.inr fun limits => ?_)
      simp only [evalStep, exactStep, hk, Operations.arithmetic]
      cases Operator.ofLexeme? t.lexeme <;> rfl
    · refine .inr (.inr fun limits => ?_)
      simp only [evalStep, exactStep, hk, Operations.arithmetic]
      cases Operator.ofLexeme? t.lexeme <;> rfl
    · exact .inr (.inl ⟨l, r, rest, rfl, rfl⟩)
  | leftParen | rightParen => exact .inr (.inr fun limits => by simp only [evalStep, exactStep, hk])

theorem evalStep_unlessRefused (limits : Limits) (stack : List Int) (t : Token) :
    UnlessRefused limits (evalStep limits (.arithmetic limits) stack t) (exactStep stack t) := by
  rcases evalStep_exact_cases stack t with hk | ⟨l, r, rest, hk, rfl⟩ | h
  · rw [evalStep_number hk, exactStep_number hk]
    exact (parseNumber_unlessRefused limits t.lexeme).map _
  · rw [evalStep_operator hk, exactStep_operator hk]
    exact (applyLexeme_unlessRefused limits t.lexeme l r).map _
  · exact .inl (h limits)

theorem exists_applyLexeme_eq_exact (lexeme : String) (l r : Int) : ∃ n : Nat, ∀ limits : Limits,
    n ≤ limits.maxBits →
      applyLexeme limits (.arithmetic limits) lexeme l r = exactLexeme lexeme l r := by
  cases hx : exactLexeme lexeme l r with
  | error f =>
    refine ⟨0, fun limits _ => ?_⟩
    rcases applyLexeme_cases limits lexeme l r with h | ⟨-, x, hok, -⟩
    · rw [h, hx]
    · cases hx.symm.trans hok
  | ok y =>
    refine ⟨bitLength y, fun limits hbits => ?_⟩
    rcases applyLexeme_cases limits lexeme l r with h | ⟨-, x, hok, hsize⟩
    · rw [h, hx]
    · cases hx.symm.trans hok
      exact absurd hbits (Int.not_le.2 hsize)

/-- Large enough limits do not refuse a step. -/
theorem exists_evalStep_eq_exact (stack : List Int) (t : Token) : ∃ n : Nat, ∀ limits : Limits,
    limits.Convertible → n ≤ limits.maxDigits → n ≤ limits.maxBits →
      evalStep limits (.arithmetic limits) stack t = exactStep stack t := by
  rcases evalStep_exact_cases stack t with hk | ⟨l, r, rest, hk, rfl⟩ | h
  · refine ⟨(significantDigits t.lexeme.toList).length, fun limits hconv hdigits _ => ?_⟩
    rw [evalStep_number hk, exactStep_number hk]
    rcases parseNumber_cases limits t.lexeme with
      h | ⟨count, rfl, ⟨-, hsize⟩ | ⟨most, -, hmost, hlt, hle⟩⟩
    · rw [h]
    · exact absurd hdigits (Int.not_le.2 hsize)
    · have := hconv most hmost
      omega
  · obtain ⟨n, hn⟩ := exists_applyLexeme_eq_exact t.lexeme l r
    refine ⟨n, fun limits _ _ hbits => ?_⟩
    rw [evalStep_operator hk, exactStep_operator hk, hn limits hbits]
  · exact ⟨0, fun limits _ _ _ => h limits⟩

/-! ### The whole run -/

/-- Neither size nor the conversion of digits is at fault in an exact run. -/
theorem fault_of_exactStep {stack : List Int} {t : Token} {f : Fault}
    (h : exactStep stack t = .error f) : f.kind ≠ .limit ∧ f.reported = true := by
  rw [Fault.reported_iff]
  cases hk : t.kind with
  | number =>
    rw [exactStep_number hk, map_eq_error] at h
    simp [exactNumber_eq_error h, Fault.kind]
  | operator =>
    rcases stack with _ | ⟨r, _ | ⟨l, rest⟩⟩
    · simp only [exactStep, hk] at h
      split at h <;> (cases h; simp [Fault.kind])
    · simp only [exactStep, hk] at h
      split at h <;> (cases h; simp [Fault.kind])
    · rw [exactStep_operator hk, map_eq_error] at h
      rcases exactLexeme_eq_error h with rfl | hf
      · simp [Fault.kind]
      · simp [hf]
  | leftParen | rightParen =>
    simp only [exactStep, hk] at h
    cases h
    simp [Fault.kind]

theorem fault_of_exactEvaluate {ts : List Token} {f : Fault} (h : exactEvaluate ts = .error f) :
    f.kind ≠ .limit ∧ f.reported = true := by
  rcases bind_eq_error.1 h with h | ⟨stack, -, h⟩
  · obtain ⟨before, t, after, stack, -, -, h⟩ := foldlM_eq_error.1 h
    exact fault_of_exactStep h
  · rcases soleValue_eq_error h with ⟨-, rfl⟩ | ⟨-, rfl⟩ <;> exact ⟨by simp [Fault.kind], rfl⟩

theorem evaluate_unlessRefused (limits : Limits) (ts : List Token) :
    UnlessRefused limits (evaluate limits (.arithmetic limits) ts) (exactEvaluate ts) :=
  (UnlessRefused.foldlM (evalStep_unlessRefused limits) ts []).bind fun _ => .inl rfl

theorem exists_foldlM_evalStep_eq_exact (ts : List Token) (stack : List Int) : ∃ n : Nat,
    ∀ limits : Limits, limits.Convertible → n ≤ limits.maxDigits → n ≤ limits.maxBits →
      ts.foldlM (evalStep limits (.arithmetic limits)) stack = ts.foldlM exactStep stack := by
  induction ts generalizing stack with
  | nil => exact ⟨0, fun _ _ _ _ => rfl⟩
  | cons t ts ih =>
    obtain ⟨n, hstep⟩ := exists_evalStep_eq_exact stack t
    cases hs : exactStep stack t with
    | error f =>
      refine ⟨n, fun limits hconv hdigits hbits => ?_⟩
      rw [List.foldlM_cons, List.foldlM_cons, hstep limits hconv hdigits hbits, hs]
      rfl
    | ok mid =>
      -- what the rest needs depends on the stack that this step leaves
      obtain ⟨m, hrun⟩ := ih mid
      refine ⟨n + m, fun limits hconv hdigits hbits => ?_⟩
      rw [List.foldlM_cons, List.foldlM_cons, hstep limits hconv (by omega) (by omega), hs]
      exact hrun limits hconv (by omega) (by omega)

theorem exists_evaluate_eq_exact (ts : List Token) : ∃ n : Nat, ∀ limits : Limits,
    limits.Convertible → n ≤ limits.maxDigits → n ≤ limits.maxBits →
      evaluate limits (.arithmetic limits) ts = exactEvaluate ts := by
  obtain ⟨n, hn⟩ := exists_foldlM_evalStep_eq_exact ts []
  refine ⟨n, fun limits hconv hdigits hbits => ?_⟩
  rw [evaluate, hn limits hconv hdigits hbits]
  rfl

namespace Calculator
variable {limits : Limits} {s : String} {f : Fault}

theorem tokenize_eq_segments (hl : (s.length : Int) ≤ limits.maxLength) :
    Lexicon.arithmetic.tokenize limits s =
      .ok ((Lexicon.arithmetic.segments s.toList).filterMap Segment.token?) := by
  simp only [Lexicon.tokenize, Lexicon.scan, if_neg (Int.not_lt.2 hl)]
  rfl

theorem run_unlessRefused (hl : (s.length : Int) ≤ limits.maxLength) :
    UnlessRefused limits (run limits s) (exactRun s) := by
  rw [run_of_tokenize (tokenize_eq_segments hl)]
  refine UnlessRefused.bind (.inl rfl) fun ps => ?_
  exact (evaluate_unlessRefused limits ps).bind fun _ => .inl rfl

theorem run_eq_exactRun_or (limits : Limits) (s : String) : run limits s = exactRun s ∨
    run limits s = .error (.tooLong limits.maxLength) ∨
      ∃ f, limits.Refuses f ∧ run limits s = .error f := by
  by_cases hl : (s.length : Int) ≤ limits.maxLength
  · exact (run_unlessRefused hl).imp_right .inr
  · refine .inr (.inl ?_)
    rw [run, tokenize_eq_tooLong (Int.not_le.1 hl)]
    rfl

theorem fault_of_exactRun (h : exactRun s = .error f) : f.kind ≠ .limit ∧ f.reported = true := by
  rcases bind_eq_error.1 h with h | ⟨ps, -, h⟩
  · rcases toPostfix_eq_error h with h | ⟨t, -, -, -, rfl⟩
    · simp [Fault.reported_iff, h]
    · exact ⟨by simp [Fault.kind], rfl⟩
  rcases bind_eq_error.1 h with h | ⟨_, -, h⟩
  · exact fault_of_exactEvaluate h
  · cases h

theorem refused_reportFault : (reportFault s f).Refused ↔ f.kind = .limit := by
  cases f <;> simp [Report.Refused, reportFault, Fault.code, Fault.diagnosis, FaultKind.diagnose,
    Fault.ownCode, Fault.kind, FaultKind.defaultCode]

theorem exists_exactReport (s : String) : ∃ report, exactReport s = .ok report ∧ ¬ report.Refused := by
  unfold exactReport
  cases h : exactRun s with
  | ok e => exact ⟨_, rfl, by simp [Report.Refused, reportValue]⟩
  | error f =>
    obtain ⟨hkind, hreported⟩ := fault_of_exactRun h
    exact ⟨_, if_pos hreported, mt refused_reportFault.1 hkind⟩

theorem calculate_eq_exact_or (limits : Limits) (s : String) : calculate limits s = exactReport s ∨
    (∃ report, calculate limits s = .ok report ∧ report.Refused) ∨ BreaksOff limits s := by
  rcases run_eq_exactRun_or limits s with h | h | ⟨f, hf, h⟩
  · exact .inl (congrArg (reportOn s) h)
  · exact .inr (.inl ⟨_, calculate_of_reported h rfl, refused_reportFault.2 rfl⟩)
  · cases hf with
    | size => exact .inr (.inl ⟨_, calculate_of_reported h rfl, refused_reportFault.2 rfl⟩)
    | conversion hmost hlt hle =>
      exact .inr (.inr ⟨_, _, hmost, hlt, hle, calculate_eq_error.2 ⟨h, rfl⟩⟩)

theorem not_breaksOff (hconv : limits.Convertible) (s : String) : ¬ BreaksOff limits s := by
  rintro ⟨most, count, hmost, hlt, hle, -⟩
  have := hconv most hmost
  omega

theorem exists_run_eq_exactRun (s : String) : ∃ n : Nat, ∀ limits : Limits, limits.Convertible →
    s.length ≤ limits.maxLength → n ≤ limits.maxDigits → n ≤ limits.maxBits →
      run limits s = exactRun s := by
  cases hp : toPostfix .arithmetic
      ((Lexicon.arithmetic.segments s.toList).filterMap Segment.token?) with
  | error f =>
    refine ⟨0, fun limits _ hlength _ _ => ?_⟩
    rw [run_of_tokenize (tokenize_eq_segments hlength), exactRun, hp]
    rfl
  | ok ps =>
    obtain ⟨n, hn⟩ := exists_evaluate_eq_exact ps
    refine ⟨n, fun limits hconv hlength hdigits hbits => ?_⟩
    rw [run_of_tokenize (tokenize_eq_segments hlength), exactRun, hp]
    show evaluate limits (.arithmetic limits) ps >>= _ = exactEvaluate ps >>= _
    rw [hn limits hconv hdigits hbits]
    rfl

/-- Where there is no limit on conversions, limits that are large enough refuse nothing. -/
theorem exists_calculate_eq_exact (s : String) :
    ∃ maxLength maxDigits, calculate (.ofDigits maxLength maxDigits none) s = exactReport s := by
  obtain ⟨n, hn⟩ := exists_run_eq_exactRun s
  refine ⟨s.length, n, congrArg (reportOn s) (hn _ nofun (Int.le_refl _) (Int.le_refl _) ?_)⟩
  exact le_bitsOfDigits n

/-- What is not refused under some limits is the same under any others, unless these refuse it. -/
theorem calculate_eq_of_not_refused {report : Report} (h : calculate limits s = .ok report)
    (hr : ¬ report.Refused) (limits' : Limits) : calculate limits' s = .ok report ∨
      (∃ report', calculate limits' s = .ok report' ∧ report'.Refused) ∨ BreaksOff limits' s := by
  have hexact : exactReport s = .ok report := by
    rcases calculate_eq_exact_or limits s with heq | ⟨report', hreport, hrefused⟩ | ⟨_, _, -, -, -, herr⟩
    · rw [← heq, h]
    · cases h.symm.trans hreport
      exact absurd hrefused hr
    · cases h.symm.trans herr
  rw [← hexact]
  exact calculate_eq_exact_or limits' s

theorem not_refused_of_ok {report : Report} (h : calculate limits s = .ok report)
    (hok : report.ok = true) : ¬ report.Refused := by
  unfold calculate at h
  cases hr : run limits s with
  | ok e =>
    rw [hr] at h
    cases h
    simp [Report.Refused, reportValue]
  | error f =>
    rw [hr, reportOn] at h
    split_ifs at h
    cases h
    cases hok

/-- Under any limits an expression is reported on as it is without limits, or it is refused for its
size, or the calculation breaks off at a literal whose digits are not converted, which takes a limit on
digits beyond that on conversions. Without limits nothing is refused, and neither it is under limits that
are large enough. So the limits that accept an expression agree on it, and a report that something else
is wrong with it is the one that any other limits give, unless they refuse it. -/
theorem calculate_eq_exact_or_refused (s : String) :
    (∀ limits, calculate limits s = exactReport s ∨
      (∃ report, calculate limits s = .ok report ∧ report.Refused) ∨ BreaksOff limits s) ∧
    (∀ limits, limits.Convertible → ¬ BreaksOff limits s) ∧
    (∃ report, exactReport s = .ok report ∧ ¬ report.Refused) ∧
    (∃ maxLength maxDigits, calculate (.ofDigits maxLength maxDigits none) s = exactReport s) ∧
    (∀ limits limits' report report', calculate limits s = .ok report →
      calculate limits' s = .ok report' → report.ok = true → report'.ok = true →
        report' = report) ∧
    ∀ limits limits' report, calculate limits s = .ok report → report.ok = false →
      ¬ report.Refused → calculate limits' s = .ok report ∨
        (∃ report', calculate limits' s = .ok report' ∧ report'.Refused) ∨ BreaksOff limits' s := by
  refine ⟨fun limits => calculate_eq_exact_or limits s, fun limits hconv => not_breaksOff hconv s,
    exists_exactReport s, exists_calculate_eq_exact s, ?_, ?_⟩
  · intro limits limits' report report' h h' hok hok'
    rcases calculate_eq_of_not_refused h (not_refused_of_ok h hok) limits' with
      heq | ⟨report'', heq, hrefused⟩ | ⟨_, _, -, -, -, herr⟩
    · exact Except.ok.inj (h'.symm.trans heq)
    · cases h'.symm.trans heq
      exact absurd hrefused (not_refused_of_ok h' hok')
    · cases h'.symm.trans herr
  · intro limits limits' report h _ hr
    exact calculate_eq_of_not_refused h hr limits'

/-- With a limit of two digits 16 is divided by zero, and with one digit there is no 16. -/
theorem calculate_eq_exact_or_refused_late_division :
    let one := Limits.ofDigits 1000 1
    let two := Limits.ofDigits 1000 2
    (∃ report report', calculate two "9-2" = .ok report ∧ report.ok = true ∧
      calculate one "9-2" = .ok report' ∧ report'.ok = true ∧ report' = report) ∧
    one.Convertible ∧ ∃ report, calculate two "2**4/0" = .ok report ∧ report.ok = false ∧
      ¬ report.Refused ∧ calculate one "2**4/0" ≠ .ok report ∧
      ∃ report', calculate one "2**4/0" = .ok report' ∧ report'.Refused := by
  have hone : Limits.ofDigits 1000 1 = ⟨1000, 1, 3, some 4300⟩ := by decide +kernel
  have htwo : Limits.ofDigits 1000 2 = ⟨1000, 2, 6, some 4300⟩ := by decide +kernel
  have hconv : (Limits.ofDigits 1000 1).Convertible := Limits.convertible_ofDigits (by decide)
  have hsub : Scan 0 "9-2".toList
      [⟨.number, 0, ['9']⟩, ⟨.operator, 1, ['-']⟩, ⟨.number, 2, ['2']⟩] :=
    .token (.digit rfl rfl) (.token (.operator .sub nofun) (.token (.digit rfl rfl) .done))
  have hpow : Scan 0 "2**4/0".toList
      [⟨.number, 0, ['2']⟩, ⟨.operator, 1, ['*', '*']⟩, ⟨.number, 3, ['4']⟩,
        ⟨.operator, 4, ['/']⟩, ⟨.number, 5, ['0']⟩] :=
    .token (.digit rfl rfl) (.token (.operator .pow nofun) (.token (.digit rfl rfl)
      (.token (.operator .div nofun) (.token (.digit rfl rfl) .done))))
  intro one two
  have hok : ∀ limits ∈ [one, two], ∃ report, calculate limits "9-2" = .ok report ∧
      report.ok = true := by
    intro limits hl
    have hvalue : Evaluated.value <$> run limits "9-2" = .ok 7 := by
      simp only [one, two, hone, htwo, List.mem_cons, List.not_mem_nil, or_false] at hl
      rcases hl with rfl | rfl <;> rw [run_of_tokenize (hsub.tokenize_eq (by decide))] <;>
        decide +kernel
    obtain ⟨e, he, -⟩ := map_eq_ok.1 hvalue
    exact ⟨_, calculate_of_ok he, rfl⟩
  have hdivision : run two "2**4/0" = .error .divisionByZero := by
    simp only [two, htwo]
    rw [run_of_tokenize (hpow.tokenize_eq (by decide))]
    rfl
  have hsize : run one "2**4/0" = .error (.resultTooLarge 1) := by
    simp only [one, hone]
    rw [run_of_tokenize (hpow.tokenize_eq (by decide))]
    rfl
  obtain ⟨report, hreport, htrue⟩ := hok two (by simp)
  obtain ⟨report', hreport', htrue'⟩ := hok one (by simp)
  obtain ⟨-, -, -, -, hagree, -⟩ := calculate_eq_exact_or_refused "9-2"
  obtain ⟨-, hunbroken, -, -, -, hother⟩ := calculate_eq_exact_or_refused "2**4/0"
  have hcalc := calculate_of_reported hdivision rfl
  have hfalse : ¬ (reportFault "2**4/0" .divisionByZero).Refused := mt refused_reportFault.1 nofun
  have hne : calculate one "2**4/0" ≠ .ok (reportFault "2**4/0" .divisionByZero) := by
    rw [calculate_of_reported hsize rfl]
    intro h
    exact hfalse (Except.ok.inj h ▸ refused_reportFault.2 rfl)
  refine ⟨⟨report, report', hreport, htrue, hreport', htrue',
    hagree two one report report' hreport hreport' htrue htrue'⟩, hconv, _, hcalc, rfl, hfalse, hne, ?_⟩
  exact ((hother two one _ hcalc rfl hfalse).resolve_left hne).resolve_right (hunbroken one hconv)

/-- A limit of 5000 digits can be set, and then the calculation of a literal of 4301 digits breaks off,
which without limits it does not; a limit of `2 ^ 1024` digits cannot even be set. -/
theorem calculate_breaksOff_longLiteral :
    Settings.ofEnvironment (Settings.asking 10000 (1 <<< 1024)) = .error .digitsOverflow ∧
    ∃ settings report f, Settings.ofEnvironment (Settings.asking 10000 5000) = .ok settings ∧
      exactReport longLiteral = .ok report ∧ calculate settings.limits longLiteral = .error f := by
  obtain ⟨report, hreport, -⟩ := exists_exactReport longLiteral
  have hbroken : run (.ofDigits 10000 5000) longLiteral = _ :=
    evaluateExpression_eq_error.1 (evaluateExpression_longLiteral (by decide) (by decide) rfl)
  exact ⟨Settings.ofEnvironment_asking_overflow, _, report, _,
    Settings.ofEnvironment_asking_five_thousand, hreport, calculate_eq_error.2 ⟨hbroken, rfl⟩⟩

end Calculator
end ExprCalc
