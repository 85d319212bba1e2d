import ExprCalc.Answer

/-!
# The health check

Each stage is tried on the sample expression, and a division by zero has to be reported. The text
tells how each check ended, up to one that breaks off.
-/

namespace ExprCalc

namespace HealthCheck

structure Check where
  passed : Bool
  line : String
  records : List Record
  broken : Option Fault := none

/-- A check that passes with the text `good` and else fails with the text `bad`. -/
def check (passed : Bool) (good bad : String) (records : List Record) : Check :=
  { passed, line := if passed then "[OK] " ++ good else "[FAIL] " ++ bad, records }

/-- A check that a computation gives `expected`. -/
def expect {α : Type} [DecidableEq α] (run : Traced Fault α) (expected : α) (render : α → String)
    (good bad : String) : Check :=
  match run.outcome with
  | .ok a => check (a = expected) good (bad ++ ": got " ++ render a) run.records
  | .error f => check false good (bad ++ ": " ++ f.message) run.records

/-- A check of the report on an expression. -/
def inspect (run : Traced Fault Report) (passes : Report → Bool) (good bad : String) : Check :=
  match run.outcome with
  | .ok report => check (passes report) good (bad ++ ": " ++ report.describe) run.records
  | .error f => { passed := false, line := "", records := run.records, broken := some f }

def lexemes (limits : Limits) : Traced Fault (List String) := do
  return (← Calculator.tokenizeTraced .arithmetic limits sampleExpression).map Token.lexeme

def postfixForm (limits : Limits) : Traced Fault String := do
  let ts ← Calculator.tokenizeTraced .arithmetic limits sampleExpression
  return Token.spell (← Calculator.toPostfixTraced .arithmetic ts)

def checks (limits : Limits) : List Check :=
  [expect (lexemes limits) ["5", "**", "(", "4", "/", "2", ")"] quotedList
      "Tokenizer works" "Tokenizer check failed",
    expect (postfixForm limits) "5 4 2 / **" id
      "Postfix conversion works" "Postfix conversion failed",
    inspect (Calculator.calculateTraced limits sampleExpression)
      (fun sample => sample.ok && sample.result == some 25)
      "Evaluation works" "Evaluation check failed",
    inspect (Calculator.calculateTraced limits "1 / 0")
      (fun division => division.errorCode == some "DIVISION_BY_ZERO")
      "Error reporting works" "Error reporting check failed"]

/-- A line across. -/
def rule : String := "--------------------------------------------------"

/-- The lines up to the end of some checks. -/
def heading (cs : List Check) : List String :=
  ["Running rpncalc health check...", rule] ++ cs.map Check.line

/-- The lines behind all checks, of which some failed. -/
def summary (count failed : Nat) : List String :=
  [rule, s!"Results: {decimal (count - failed)} passed, {decimal failed} failed", "",
    if failed = 0 then "[OK] All health checks passed!" else "[WARN] Some health checks failed."]

/-- The lines of all checks and how many passed; the exit code is 1 if one failed or broke off. -/
def report (limits : Limits) : Answer :=
  let cs := checks limits
  let finished := cs.takeWhile (·.broken.isNone)
  match cs.dropWhile (·.broken.isNone) with
  | [] =>
    let failed := (cs.filter (!·.passed)).length
    { output := String.join ((heading cs ++ summary cs.length failed).map (· ++ "\n"))
      exit := if failed = 0 then 0 else 1
      records := cs.flatMap Check.records }
  | c :: _ =>
    { output := String.join ((heading finished).map (· ++ "\n"))
      exit := 1
      records := (finished ++ [c]).flatMap Check.records
      broken := c.broken }

end HealthCheck

end ExprCalc
