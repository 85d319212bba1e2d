import ExprCalc.Operator

/-!
# Evaluation on a stack

Tokens with every operator behind its operands are evaluated from left to right: a number is put on
a stack, an operator takes the two uppermost values off it and puts its result on. One value has to
be left. What an operator computes is given by `Operations`.
-/

namespace ExprCalc

/-- The digits of a number without leading zeros; zero keeps one. -/
def significantDigits (cs : List Char) : List Char :=
  match cs.dropWhile (· == '0') with
  | [] => ['0']
  | ds => ds

/-- The integer with some digits, unless these are too many to be converted. -/
def convertDigits (limits : Limits) (ds : List Char) : Except Fault Int :=
  match limits.exceeded ds.length with
  | some most => .error (.unconvertible most ds.length)
  | none => .ok (Nat.ofDigitChars 10 ds 0)

section
variable {limits : Limits} {ds : List Char}

theorem convertDigits_of_lt {most : Nat} (hmost : limits.maxConverted = some most)
    (hlt : most < ds.length) : convertDigits limits ds = .error (.unconvertible most ds.length) := by
  rw [convertDigits, Limits.exceeded_of_lt hmost hlt]

theorem convertDigits_of_le (h : ∀ most ∈ limits.maxConverted, ds.length ≤ most) :
    convertDigits limits ds = .ok (Nat.ofDigitChars 10 ds 0) := by
  rw [convertDigits, Limits.exceeded_eq_none.2 h]

end

/-- The value of a run of ASCII digits. -/
def parseNumber (limits : Limits) (lexeme : String) : Except Fault Int :=
  let cs := lexeme.toList
  if cs.isEmpty || !cs.all Char.isDigit then .error (.invalidNumber lexeme)
  else
    let ds := significantDigits cs
    if limits.maxDigits < ds.length then .error (.resultTooLarge limits.maxDigits)
    else convertDigits limits ds

/-- What each operator computes from its left and its right operand, by lexeme. -/
abbrev Operations := String → Option (Int → Int → Except Fault Int)

namespace Operations

/-- The five operators under their own lexemes. -/
def arithmetic (limits : Limits) : Operations := fun lexeme =>
  (Operator.ofLexeme? lexeme).map (·.apply limits)

/-- Operators under the lexemes of a table. -/
def ofTable (limits : Limits) (table : List (String × Operator)) : Operations := fun lexeme =>
  (table.lookup lexeme).map (·.apply limits)

end Operations

/-- The result of an operator on two values, unless it has too many bits. -/
def applyChecked (limits : Limits) (f : Int → Int → Except Fault Int) (left right : Int) :
    Except Fault Int := do
  let value ← f left right
  if limits.maxBits < bitLength value then .error (.resultTooLarge limits.maxDigits)
  else .ok value

/-- The reading of one token, where the last value put on the stack comes first. -/
def evalStep (limits : Limits) (operations : Operations) (stack : List Int) (t : Token) :
    Except Fault (List Int) :=
  match t.kind with
  | .number => return (← parseNumber limits t.lexeme) :: stack
  | .operator =>
    match operations t.lexeme with
    | none => .error (.unknownOperator t.lexeme)
    | some f =>
      match stack with
      | right :: left :: rest => return (← applyChecked limits f left right) :: rest
      | _ => .error (.missingOperand t.lexeme)
  | .leftParen | .rightParen => .error (.unexpectedToken t)

/-- The one value that is left on the stack. -/
def soleValue : List Int → Except Fault Int
  | [] => .error .emptyExpression
  | [v] => .ok v
  | stack => .error (.leftoverValues stack.length)

/-- The value of tokens whose operators stand behind their operands. -/
def evaluate (limits : Limits) (operations : Operations) (ts : List Token) : Except Fault Int := do
  soleValue (← ts.foldlM (evalStep limits operations) [])

end ExprCalc
