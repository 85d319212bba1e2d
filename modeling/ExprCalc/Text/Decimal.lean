/-!
# Integers in decimal

An integer is written in decimal digits without leading zeros, with a minus sign if it is negative. Both
ways, from an integer to digits and back, may be closed where there are too many digits.
-/

namespace ExprCalc

/-- The decimal form of an integer, as characters. -/
def decimalChars (n : Int) : List Char :=
  if n < 0 then '-' :: Nat.toDigits 10 n.natAbs else Nat.toDigits 10 n.natAbs

/-- The decimal form of an integer. -/
def decimal (n : Int) : String := String.ofList (decimalChars n)

theorem decimalChars_natCast (n : Nat) : decimalChars n = Nat.toDigits 10 n := by
  rw [decimalChars, if_neg (by omega), Int.natAbs_natCast]

/-- The most digits that an integer is read from or written in where no other number of them is asked
for. -/
def conversionLimit : Nat := 4300

/-- The parts of the message about `count` digits that are read where there may be `most`. -/
def conversionComplaint (most count : Nat) : List String :=
  ["Exceeds the limit (", decimal most, " digits) for integer string conversion: value has ",
    decimal count, " digits; use sys.set_int_max_str_digits() to increase the limit"]

/-- The parts of the message about an integer that is written where there may be `most` digits. -/
def writingComplaint (most : Nat) : List String :=
  ["Exceeds the limit (", decimal most, " digits) for integer string conversion",
    "; use sys.set_int_max_str_digits() to increase the limit"]

/-- The value of a decimal form. -/
def decimalValue : List Char → Int
  | '-' :: ds => -(Nat.ofDigitChars 10 ds 0 : Int)
  | ds => Nat.ofDigitChars 10 ds 0

theorem not_minus_toDigits (n : Nat) (ds : List Char) : Nat.toDigits 10 n ≠ '-' :: ds := by
  intro h
  have hd := Nat.isDigit_of_mem_toDigits (b := 10) (n := n) (by decide) (by decide)
    (h ▸ List.mem_cons_self : '-' ∈ Nat.toDigits 10 n)
  exact absurd hd (by decide)

theorem decimalValue_decimalChars (n : Int) : decimalValue (decimalChars n) = n := by
  unfold decimalChars
  split
  · next h =>
    simp only [decimalValue, Nat.ofDigitChars_ten_toDigits]
    omega
  · next h =>
    have hv : decimalValue (Nat.toDigits 10 n.natAbs) =
        Nat.ofDigitChars 10 (Nat.toDigits 10 n.natAbs) 0 := by
      unfold decimalValue
      split
      · next ds heq => exact absurd heq (not_minus_toDigits _ _)
      · rfl
    rw [hv, Nat.ofDigitChars_ten_toDigits]
    omega

end ExprCalc
