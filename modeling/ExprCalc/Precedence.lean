import ExprCalc.Fault

/-!
# Precedence

A precedence table gives each operator a rank; the operator of higher rank binds tighter. Of two
operators of equal rank the first is applied first, so every operator associates to the left.
-/

namespace ExprCalc

/-- The ranks of operators, by lexeme. Of two entries for a lexeme the first counts. -/
abbrev Precedence := List (String × Int)

namespace Precedence

def rank (table : Precedence) (t : Token) : Except Fault Int :=
  match table.lookup t.lexeme with
  | some r => .ok r
  | none => .error (.unknownOperator t.lexeme)

/-- Must `first`, which stands further left, be applied before `second`? -/
def takesPrecedence (table : Precedence) (first second : Token) : Except Fault Bool := do
  let r ← table.rank first
  let r' ← table.rank second
  return r' ≤ r

/-- Powers bind tightest; division binds tighter than multiplication, and subtraction tighter than
addition. -/
def arithmetic : Precedence := [("**", 4), ("/", 3), ("*", 2), ("-", 1), ("+", 0)]

end Precedence

end ExprCalc
