import ExprCalc.Precedence

/-!
# Putting operators behind their operands

Tokens are read from left to right. Numbers go straight to the output; operators wait on a stack
until an operator that they take precedence over, a closing parenthesis or the end of the input
sends them there (`Yard.step`, `Yard.finish`). A `(` on the stack keeps the operators below it
waiting, and `toPostfix` fails if a parenthesis is left without a partner.
-/

namespace ExprCalc

/-- What has been read so far: the output, and the operators and parentheses that wait, the last one
read first. -/
structure Yard where
  output : Array Token
  waiting : List Token

namespace Yard

def empty : Yard := ⟨#[], []⟩

/-- The waiting operators that `t` sends to the output, and those that stay. -/
def release (table : Precedence) (t : Token) :
    List Token → Except Fault (List Token × List Token)
  | [] => return ([], [])
  | w :: ws =>
    if w.kind = .leftParen then return ([], w :: ws) else do
    if ← table.takesPrecedence w t then
      let (gone, stay) ← release table t ws
      return (w :: gone, stay)
    else
      return ([], w :: ws)

/-- The reading of one token. The rank of an operator is looked up even if nothing waits. -/
def step (table : Precedence) (y : Yard) (t : Token) : Except Fault Yard :=
  match t.kind with
  | .number => return { y with output := y.output.push t }
  | .operator => do
    let _ ← table.rank t
    let (gone, stay) ← release table t y.waiting
    return ⟨y.output ++ gone, t :: stay⟩
  | .leftParen => return { y with waiting := t :: y.waiting }
  | .rightParen =>
    match y.waiting.dropWhile (·.kind ≠ .leftParen) with
    | [] => .error (.unmatchedRight t.position)
    | _ :: below => return ⟨y.output ++ y.waiting.takeWhile (·.kind ≠ .leftParen), below⟩

/-- The whole output, once all tokens are read. -/
def finish (y : Yard) : Except Fault (List Token) :=
  match y.waiting.find? (·.kind = .leftParen) with
  | some t => .error (.unmatchedLeft t.position)
  | none => return (y.output ++ y.waiting).toList

end Yard

/-- The numbers and operators of `ts`, each operator behind its operands. -/
def toPostfix (table : Precedence) (ts : List Token) : Except Fault (List Token) := do
  (← ts.foldlM (Yard.step table) Yard.empty).finish

end ExprCalc
