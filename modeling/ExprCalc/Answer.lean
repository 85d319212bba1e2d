import ExprCalc.About
import ExprCalc.Calculator

/-!
# Answers

What a user gets for a request: the text that is shown and an exit code. The log records of the
request come with it but are no part of the text. A fault that is not reported breaks an answer off
after what has been shown until then, and so does a value that cannot be written.
-/

namespace ExprCalc

structure Answer where
  output : String
  exit : Nat := 0
  records : List Record := []
  /-- the fault that breaks it off, if one does -/
  broken : Option Fault := none

/-- The limit on conversions, where the value in a report has too many digits to be written. -/
def Report.unwritable (limits : Limits) (r : Report) : Option Nat := r.result.bind limits.unwritable

/-- The report on an expression as an answer, which has exit code 1 if there is no value. -/
def answer (limits : Limits) (format : OutputFormat) (showPostfix : Bool) (expression : String) :
    Answer :=
  let run := Calculator.calculateTraced limits expression
  match run.outcome with
  | .error f => { output := "", exit := 1, records := run.records, broken := some f }
  | .ok report =>
    match report.unwritable limits with
    | none =>
      { output := report.print format showPostfix, exit := if report.ok then 0 else 1
        records := run.records }
    | some most =>
      { output := report.opening format showPostfix, exit := 1, records := run.records
        broken := some (.unwritable most) }

end ExprCalc
