import ExprCalc.Text.Decimal
import ExprCalc.Text.Quoted
import ExprCalc.Token

/-!
# Faults

`Fault` lists every cause for which an expression has no value. Each belongs to a `FaultKind`, and
`Fault.message` and `Fault.code` are what a caller is told: most causes have the code of their kind,
some a code of their own. One kind is not the calculator's: that digits are not converted to an integer
is none of its errors, so it has no code and is not reported, but breaks off what is going on.
-/

namespace ExprCalc

/-- The kinds of fault a caller may want to tell apart. -/
inductive FaultKind
  | general
  | limit
  | parentheses
  | malformed
  | division
  | numeral
  /-- no error of the calculator -/
  | conversion
deriving DecidableEq, Repr

/-- The code of a fault that has no code of its own; what is no error of the calculator has none. -/
def FaultKind.defaultCode : FaultKind → String
  | general => "CALCULATOR_ERROR"
  | limit => "VALIDATION_ERROR"
  | parentheses => "UNBALANCED_PARENTHESES"
  | malformed => "MALFORMED_EXPRESSION"
  | division => "DIVISION_BY_ZERO"
  | numeral => "NUMBER_PARSE_ERROR"
  | conversion => ""

/-- What a caller is told about a fault. -/
structure Diagnosis where
  kind : FaultKind
  message : String
  code : String
deriving DecidableEq, Repr

/-- A diagnosis; without a code, or with an empty one, it gets the code of its kind. -/
def FaultKind.diagnose (kind : FaultKind) (message : String) (code : Option String) : Diagnosis :=
  let code := match code with
    | none | some "" => kind.defaultCode
    | some code => code
  { kind, message, code }

/-- Why an expression has no value, or none that can be shown. -/
inductive Fault
  /-- the text has more than `maxLength` characters -/
  | tooLong (maxLength : Int)
  /-- a literal or a result is beyond the limit of `maxDigits` digits -/
  | resultTooLarge (maxDigits : Int)
  /-- a `)` closes nothing -/
  | unmatchedRight (position : Option Int)
  /-- a `(` is never closed -/
  | unmatchedLeft (position : Option Int)
  /-- an operator that has no rank or no function -/
  | unknownOperator (lexeme : String)
  /-- an operator finds fewer than two values -/
  | missingOperand (lexeme : String)
  /-- a token that has no place among operands and the operators behind them -/
  | unexpectedToken (token : Token)
  /-- there is nothing to evaluate -/
  | emptyExpression
  /-- `count` values are left where one should be -/
  | leftoverValues (count : Nat)
  | divisionByZero
  | zeroToNegativePower
  /-- a number's lexeme is no run of digits -/
  | invalidNumber (lexeme : String)
  /-- a literal has `count` digits, and an integer is read from `most` of them only -/
  | unconvertible (most count : Nat)
  /-- there is a value, but an integer is written in `most` digits only -/
  | unwritable (most : Nat)
deriving DecidableEq, Repr

namespace Fault

def kind : Fault → FaultKind
  | tooLong _ | resultTooLarge _ => .limit
  | unmatchedRight _ | unmatchedLeft _ => .parentheses
  | unknownOperator _ | missingOperand _ | unexpectedToken _ | emptyExpression
  | leftoverValues _ => .malformed
  | divisionByZero | zeroToNegativePower => .division
  | invalidNumber _ => .numeral
  | unconvertible _ _ | unwritable _ => .conversion

/-- Is the fault one that the calculator reports? -/
def reported (f : Fault) : Bool := f.kind != .conversion

theorem reported_iff {f : Fault} : f.reported = true ↔ f.kind ≠ .conversion := bne_iff_ne

/-- The code of a cause that does not have the code of its kind. -/
def ownCode : Fault → Option String
  | tooLong _ => some "TOO_LONG"
  | resultTooLarge _ => some "RESULT_TOO_LARGE"
  | unknownOperator _ => some "UNKNOWN_OPERATOR"
  | emptyExpression => some "EMPTY_EXPRESSION"
  | _ => none

/-- The place of a token, where that is known. -/
def place : Option Int → List String
  | none => []
  | some p => [" at position ", decimal p]

/-- The parts of the message. -/
def parts : Fault → List String
  | tooLong n => ["Input too long (max ", decimal n, " characters)"]
  | resultTooLarge n => ["Result too large (max ", decimal n, " digits)"]
  | unmatchedRight p => "Unmatched ')'" :: place p
  | unmatchedLeft p => "Unmatched '('" :: place p
  | unknownOperator l => ["Unknown operator: ", quoted l]
  | missingOperand l => ["Operator ", quoted l, " is missing an operand"]
  | unexpectedToken t => ["Unexpected token in postfix expression: ", t.describe]
  | emptyExpression => ["Empty expression"]
  | leftoverValues n =>
    ["Expression leaves ", decimal n,
      " values, expected one operator between each pair of numbers"]
  | divisionByZero => ["Division by zero"]
  | zeroToNegativePower => ["Zero cannot be raised to a negative power"]
  | invalidNumber l => ["Invalid number: ", quoted l]
  | unconvertible most count => conversionComplaint most count
  | unwritable most => writingComplaint most

def message (f : Fault) : String := String.join f.parts

/-- What a caller is told about the fault. -/
def diagnosis (f : Fault) : Diagnosis := f.kind.diagnose f.message f.ownCode

def code (f : Fault) : String := f.diagnosis.code

end Fault

end ExprCalc
