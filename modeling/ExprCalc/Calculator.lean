import ExprCalc.Evaluation
import ExprCalc.Lexicon
import ExprCalc.Report
import ExprCalc.Text.Blank
import ExprCalc.Traced
import ExprCalc.Yard

/-!
# The calculator

An expression is cut into tokens, its operators are put behind their operands, and the result is
evaluated. `calculate` puts the outcome into a report, but for a fault that is none of the calculator's,
which comes through; the traced versions also tell what they did, and the lemmas about their outcomes
say that telling changes nothing.
-/

namespace ExprCalc

/-! ### Outcomes -/

/-- An expression with a value: its tokens, their postfix form, and the value. -/
structure Evaluated where
  tokens : List Token
  postfixForm : List Token
  value : Int

namespace Calculator

/-- All three stages, with the tokens, ranks and operators of arithmetic. -/
def run (limits : Limits) (expression : String) : Except Fault Evaluated := do
  let tokens ← Lexicon.arithmetic.tokenize limits expression
  let postfixForm ← toPostfix .arithmetic tokens
  let value ← evaluate limits (.arithmetic limits) postfixForm
  return { tokens, postfixForm, value }

/-- The value of an expression. -/
def evaluateExpression (limits : Limits) (expression : String) : Except Fault Int := do
  let tokens ← Lexicon.arithmetic.tokenize limits expression
  evaluate limits (.arithmetic limits) (← toPostfix .arithmetic tokens)

/-- Can the expression be brought into postfix form? Its operands are not counted, and nothing is
computed. -/
def validate (limits : Limits) (expression : String) : Except Fault Unit := do
  let _ ← toPostfix .arithmetic (← Lexicon.arithmetic.tokenize limits expression)

/-- The report on an expression with a value. -/
def reportValue (expression : String) (e : Evaluated) : Report :=
  { ok := true, expression, result := some e.value
    tokens := some (e.tokens.map Token.describe)
    postfixForm := some (e.postfixForm.map Token.lexeme) }

/-- The report on an expression that has no value. -/
def reportFault (expression : String) (f : Fault) : Report :=
  { ok := false, expression, error := some f.message, errorCode := some f.code }

/-- The report on an outcome, unless it is a fault that is not reported. -/
def reportOn (expression : String) : Except Fault Evaluated → Except Fault Report
  | .ok e => .ok (reportValue expression e)
  | .error f => if f.reported then .ok (reportFault expression f) else .error f

def calculate (limits : Limits) (expression : String) : Except Fault Report :=
  reportOn expression (run limits expression)

section
variable {limits : Limits} {expression : String} {e : Evaluated} {f : Fault}

theorem calculate_of_ok (h : run limits expression = .ok e) :
    calculate limits expression = .ok (reportValue expression e) := by
  rw [calculate, h]
  rfl

theorem calculate_of_reported (h : run limits expression = .error f) (hf : f.reported = true) :
    calculate limits expression = .ok (reportFault expression f) := by
  rw [calculate, h]
  exact if_pos hf

theorem calculate_eq_error :
    calculate limits expression = .error f ↔ run limits expression = .error f ∧ f.reported = false := by
  unfold calculate
  cases run limits expression with
  | ok e => exact ⟨nofun, nofun⟩
  | error g =>
    cases hg : g.reported with
    | true => simpa [reportOn, hg] using fun h => h ▸ hg
    | false => simpa [reportOn, hg] using fun h => h ▸ hg

end

theorem evaluateExpression_eq (limits : Limits) (expression : String) :
    evaluateExpression limits expression = Evaluated.value <$> run limits expression := by
  unfold evaluateExpression run
  cases Lexicon.arithmetic.tokenize limits expression with
  | error f => rfl
  | ok ts =>
    cases h : toPostfix .arithmetic ts with
    | error f => simp [h, bind, Except.bind, Functor.map, Except.map]
    | ok ps =>
      simp only [h, bind, Except.bind]
      cases evaluate limits (.arithmetic limits) ps <;> rfl

/-! ### Traces -/

/-- The record of a gap that is not blank: nothing in it was recognised. -/
def gapRecord? : Segment → Option Record
  | .gap start text =>
    if text.all isBlank then none
    else some ⟨.debug, "tokenizer",
      s!"Skipping unrecognized input {quoted (String.ofList text)} at {decimal start}"⟩
  | .taken _ => none

def tokenizeTraced (lexicon : Lexicon) (limits : Limits) (expression : String) :
    Traced Fault (List Token) := do
  let segments ← .ofOutcome (lexicon.scan limits expression) fun segments =>
    let count := (segments.filterMap Segment.token?).length
    segments.filterMap gapRecord? ++
      [⟨.debug, "tokenizer", s!"Tokenized {quoted expression} into {decimal count} tokens"⟩]
  return segments.filterMap Segment.token?

def toPostfixTraced (table : Precedence) (ts : List Token) : Traced Fault (List Token) :=
  .ofOutcome (toPostfix table ts) fun ps =>
    [⟨.debug, "converter", s!"Postfix: {Token.spell ps}"⟩]

/-- A value that cannot be written is not recorded. -/
def evaluateTraced (limits : Limits) (operations : Operations) (ts : List Token) :
    Traced Fault Int :=
  .ofOutcome (evaluate limits operations ts) fun v =>
    if limits.unwritable v = none then [⟨.debug, "evaluator", s!"Evaluated to {decimal v}"⟩] else []

def evaluateExpressionTraced (limits : Limits) (expression : String) : Traced Fault Int := do
  let tokens ← tokenizeTraced .arithmetic limits expression
  evaluateTraced limits (.arithmetic limits) (← toPostfixTraced .arithmetic tokens)

def validateTraced (limits : Limits) (expression : String) : Traced Fault Unit := do
  let _ ← toPostfixTraced .arithmetic (← tokenizeTraced .arithmetic limits expression)

def runTraced (limits : Limits) (expression : String) : Traced Fault Evaluated := do
  let tokens ← tokenizeTraced .arithmetic limits expression
  let postfixForm ← toPostfixTraced .arithmetic tokens
  let value ← evaluateTraced limits (.arithmetic limits) postfixForm
  return { tokens, postfixForm, value }

/-- The record of a failure that is reported. -/
def failureRecords (expression : String) : Except Fault Evaluated → List Record
  | .ok _ => []
  | .error f =>
    if f.reported then
      [⟨.info, "api", s!"Evaluation of {quoted expression} failed: {f.message} ({f.code})"⟩]
    else []

def calculateTraced (limits : Limits) (expression : String) : Traced Fault Report :=
  let run := runTraced limits expression
  ⟨reportOn expression run.outcome, run.records ++ failureRecords expression run.outcome⟩

@[simp] theorem outcome_tokenizeTraced (lexicon : Lexicon) (limits : Limits) (expression : String) :
    (tokenizeTraced lexicon limits expression).outcome = lexicon.tokenize limits expression := by
  simp only [tokenizeTraced, Traced.outcome_bind, Traced.outcome_ofOutcome, Traced.outcome_pure]
  rfl

@[simp] theorem outcome_toPostfixTraced (table : Precedence) (ts : List Token) :
    (toPostfixTraced table ts).outcome = toPostfix table ts := rfl

@[simp] theorem outcome_evaluateTraced (limits : Limits) (operations : Operations)
    (ts : List Token) :
    (evaluateTraced limits operations ts).outcome = evaluate limits operations ts := rfl

theorem outcome_evaluateExpressionTraced (limits : Limits) (expression : String) :
    (evaluateExpressionTraced limits expression).outcome = evaluateExpression limits expression := by
  simp only [evaluateExpressionTraced, Traced.outcome_bind, outcome_tokenizeTraced,
    outcome_toPostfixTraced, outcome_evaluateTraced]
  rfl

theorem outcome_validateTraced (limits : Limits) (expression : String) :
    (validateTraced limits expression).outcome = validate limits expression := by
  simp only [validateTraced, Traced.outcome_bind, outcome_tokenizeTraced, outcome_toPostfixTraced,
    Traced.outcome_pure]
  rfl

theorem outcome_runTraced (limits : Limits) (expression : String) :
    (runTraced limits expression).outcome = run limits expression := by
  simp only [runTraced, Traced.outcome_bind, outcome_tokenizeTraced, outcome_toPostfixTraced,
    outcome_evaluateTraced, Traced.outcome_pure]
  rfl

theorem outcome_calculateTraced (limits : Limits) (expression : String) :
    (calculateTraced limits expression).outcome = calculate limits expression := by
  simp only [calculateTraced, calculate, outcome_runTraced]

end Calculator

end ExprCalc
