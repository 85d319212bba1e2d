import ExprCalc.Text.Decimal

/-!
# Limits

How long an expression may be and how large its numbers may get. A literal is measured in decimal
digits, the result of an operator in bits. Beside these limits, which are set for the calculator, the
conversion of digits to an integer and back has one of its own, which may be lower.
-/

namespace ExprCalc

/-- The limits an expression is evaluated under. -/
structure Limits where
  /-- the most characters of an expression -/
  maxLength : Int
  /-- the most decimal digits of a literal, leading zeros apart -/
  maxDigits : Int
  /-- the most bits of an operator's result -/
  maxBits : Int
  /-- the most digits that an integer is read from or written in, where there is such a limit -/
  maxConverted : Option Nat
deriving DecidableEq, Repr

/-- The number of bits of `|n|`; zero has none. -/
def bitLength (n : Int) : Nat := if n = 0 then 0 else n.natAbs.log2 + 1

namespace Limits

/-- The limit on conversions, where so many digits are beyond it. -/
def exceeded (limits : Limits) (count : Nat) : Option Nat := limits.maxConverted.filter (· < count)

/-- The limit on conversions, where an integer has too many digits to be written. -/
def unwritable (limits : Limits) (n : Int) : Option Nat :=
  limits.exceeded (Nat.toDigits 10 n.natAbs).length

/-- Every literal within the limit on digits can be read. -/
def Convertible (limits : Limits) : Prop := ∀ most ∈ limits.maxConverted, limits.maxDigits ≤ most

/-- Every result within the limit on bits can be written. -/
def Writable (limits : Limits) : Prop :=
  ∀ n : Int, bitLength n ≤ limits.maxBits → limits.unwritable n = none

theorem exceeded_of_lt {limits : Limits} {most count : Nat} (hmost : limits.maxConverted = some most)
    (hlt : most < count) : limits.exceeded count = some most :=
  Option.filter_eq_some_iff.2 ⟨hmost, decide_eq_true hlt⟩

theorem exceeded_eq_none {limits : Limits} {count : Nat} :
    limits.exceeded count = none ↔ ∀ most ∈ limits.maxConverted, count ≤ most := by
  simp [exceeded, Option.filter_eq_none_iff]

end Limits

@[simp] theorem bitLength_zero : bitLength 0 = 0 := rfl

theorem bitLength_le_iff {n : Int} {k : Nat} : bitLength n ≤ k ↔ n.natAbs < Nat.pow 2 k := by
  unfold bitLength
  split
  · next h =>
    subst h
    exact ⟨fun _ => Nat.two_pow_pos k, fun _ => Nat.zero_le k⟩
  · next h => exact Nat.succ_le_iff.trans (Nat.log2_lt (by omega))

end ExprCalc
