/-!
# Tokens

A token is a piece of an expression with its kind. Its position is for messages only: `Token.agrees`
compares tokens without it.
-/

namespace ExprCalc

/-- What role a token plays in an expression. -/
inductive TokenKind
  | number
  | operator
  | leftParen
  | rightParen
deriving DecidableEq, Repr

/-- The name of a kind in messages. -/
def TokenKind.name : TokenKind → String
  | number => "Number"
  | operator => "Operator"
  | leftParen => "LeftParenthesis"
  | rightParen => "RightParenthesis"

/-- A token, with the offset of its first character when that is known. -/
structure Token where
  kind : TokenKind
  lexeme : String
  position : Option Int := none
deriving DecidableEq, Repr

namespace Token

/-- The token as it stands in messages and in token lists for people. -/
def describe (t : Token) : String := s!"{t.kind.name}: {t.lexeme}"

/-- Same kind and same lexeme, wherever the tokens stood. -/
def agrees (a b : Token) : Bool := a.kind == b.kind && a.lexeme == b.lexeme

/-- The lexemes of some tokens, separated by single spaces. -/
def spell (ts : List Token) : String := " ".intercalate (ts.map lexeme)

theorem agrees_iff {a b : Token} : a.agrees b = true ↔ a.kind = b.kind ∧ a.lexeme = b.lexeme := by
  simp [agrees]

end Token

end ExprCalc
