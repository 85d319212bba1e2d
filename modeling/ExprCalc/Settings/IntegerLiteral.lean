import ExprCalc.Text.Blank
import ExprCalc.Text.Decimal
import ExprCalc.Text.Quoted
import ExprCalc.Text.ScriptDigit

/-!
# Integers in settings

An integer in a setting may have blanks around it, one sign, leading zeros, digits of any script and
single underscores between digits.
-/

namespace ExprCalc

/-- Why a setting has no integer value. -/
inductive LiteralError
  | notInteger (text : String)
  | tooManyDigits (count : Nat)
deriving DecidableEq, Repr

namespace IntegerLiteral

/-- May `c` stand around an integer? Of the ASCII characters these are the space and the tab and
line controls; the information separators are not among them. -/
def isPadding (c : Char) : Bool := isBlank c && !(0x1c ≤ c.toNat && c.toNat ≤ 0x1f)

/-- Digits with single underscores between them. -/
def isGrouped : List Char → Bool
  | [] => false
  | [c] => c != '_'
  | c :: d :: cs => c != '_' && if d = '_' then isGrouped cs else isGrouped (d :: cs)

/-- A sign, if there is one, and what follows it. -/
def splitSign : List Char → Bool × List Char
  | '-' :: cs => (true, cs)
  | '+' :: cs => (false, cs)
  | cs => (false, cs)

/-- The number with the digits `ds`, the most significant first. -/
def ofDigits (ds : List Nat) : Nat := ds.foldl (fun n d => 10 * n + d) 0

/-- The value of an integer literal. Leading zeros count among the digits that are turned into an
integer. -/
def read (text : String) : Except LiteralError Int :=
  let (negative, cs) := splitSign (text.toList.dropWhile isPadding)
  let isPart := fun c => c == '_' || isScriptDigit c
  let body := cs.takeWhile isPart
  let digits := body.filterMap scriptDigit?
  if !isGrouped body then .error (.notInteger text)
  else if conversionLimit < digits.length then .error (.tooManyDigits digits.length)
  else if !(cs.dropWhile isPart).all isPadding then .error (.notInteger text)
  else .ok (if negative then -(ofDigits digits : Int) else ofDigits digits)

end IntegerLiteral

namespace LiteralError

/-- The parts of the message; the quoted text is cut off after 200 characters. -/
def parts : LiteralError → List String
  | notInteger text =>
    ["invalid literal for int() with base 10: ", String.ofList ((quoted text).toList.take 200)]
  | tooManyDigits n => conversionComplaint conversionLimit n

def message (e : LiteralError) : String := String.join e.parts

end LiteralError

end ExprCalc
