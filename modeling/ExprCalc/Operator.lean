import ExprCalc.Fault
import ExprCalc.Limits

/-!
# Operators

The five operators on integers. Each is the exact operation, cut off toward zero where that is no
integer; division by zero and zero to a negative power have no value. A power whose size is known
to be beyond the limit is refused before it is computed.
-/

namespace ExprCalc

inductive Operator
  | pow
  | mul
  | div
  | add
  | sub
deriving DecidableEq, Repr

namespace Operator

def lexeme : Operator → String
  | pow => "**"
  | mul => "*"
  | div => "/"
  | add => "+"
  | sub => "-"

def all : List Operator := [pow, mul, div, add, sub]

def ofLexeme? (s : String) : Option Operator := all.find? (·.lexeme == s)

@[simp] theorem ofLexeme?_lexeme (op : Operator) : ofLexeme? op.lexeme = some op := by
  cases op <;> rfl

end Operator

/-- `base ^ exponent` for a base among -1, 0 and 1, where the parity of the exponent decides. -/
def unitPower (base : Int) (exponent : Nat) : Int :=
  if exponent = 0 then 1 else if base = -1 ∧ exponent % 2 = 0 then 1 else base

theorem neg_one_pow_eq (n : Nat) : Int.pow (-1) n = if n % 2 = 0 then 1 else -1 := by
  induction n with
  | zero => rfl
  | succ n ih =>
    have hs : Int.pow (-1) (n + 1) = Int.pow (-1) n * -1 := Int.pow_succ (-1) n
    rw [hs, ih]
    split <;> split <;> omega

theorem unitPower_eq_pow {base : Int} (h : base.natAbs ≤ 1) (exponent : Nat) :
    unitPower base exponent = base.pow exponent := by
  have hb : base = -1 ∨ base = 0 ∨ base = 1 := by omega
  unfold unitPower
  rcases hb with rfl | rfl | rfl
  · rw [neg_one_pow_eq]
    split
    · next h0 => simp [h0]
    · simp
  · cases exponent with
    | zero => rfl
    | succ n => exact (Int.zero_pow n.succ_ne_zero).symm
  · have h1 : Int.pow 1 exponent = 1 := Int.one_pow
    rw [h1]
    simp

/-- `base ^ exponent`, cut off toward zero. With `b` bits in `|base| > 1` the result has more than
`(b - 1) * exponent` bits, so it is not computed if that is already the limit. -/
def power (limits : Limits) (base exponent : Int) : Except Fault Int :=
  if exponent < 0 then
    if base = 0 then .error .zeroToNegativePower
    else if 1 < base.natAbs then .ok 0
    else .ok (if exponent % 2 = 0 then 1 else base)
  else if base.natAbs ≤ 1 then .ok (unitPower base exponent.toNat)
  else if limits.maxBits ≤ ((bitLength base - 1 : Nat) : Int) * exponent then
    .error (.resultTooLarge limits.maxDigits)
  else .ok (base.pow exponent.toNat)

/-- `dividend / divisor`, cut off toward zero. -/
def quotient (dividend divisor : Int) : Except Fault Int :=
  if divisor = 0 then .error .divisionByZero else .ok (dividend.tdiv divisor)

namespace Operator

/-- The value of an operator on two integers. -/
def apply (limits : Limits) : Operator → Int → Int → Except Fault Int
  | .pow, l, r => power limits l r
  | .mul, l, r => .ok (l * r)
  | .div, l, r => quotient l r
  | .add, l, r => .ok (l + r)
  | .sub, l, r => .ok (l - r)

end Operator

end ExprCalc
