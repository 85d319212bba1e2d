import ExprCalc.Limits
import ExprCalc.Settings.IntegerLiteral
import ExprCalc.Settings.Significant
import ExprCalc.Text.UpperCase

/-!
# Settings

The limits and the log level come from the environment. The limit on bits follows from the one on
digits: a number of `d` digits has about `d * log2 10` bits, and that product, computed in
floating-point numbers of 53 significant bits and cut off toward zero, is the limit.
-/

namespace ExprCalc

/-- Why the settings cannot be used. -/
inductive SettingsError
  | literal (cause : LiteralError)
  /-- the limit on digits is too large for a floating-point number -/
  | digitsOverflow
  /-- the limit on bits is too large for a floating-point number -/
  | bitsOverflow
deriving DecidableEq, Repr

namespace SettingsError

def message : SettingsError → String
  | literal cause => cause.message
  | digitsOverflow => "int too large to convert to float"
  | bitsOverflow => "cannot convert float infinity to integer"

end SettingsError

/-- The base-two logarithm of ten to 53 significant bits, in units of `2 ^ -51`. -/
def log2Ten : Nat := 0x1A934F0979A371

/-- The product of the magnitude `d` and `log2Ten`, both to 53 significant bits, in units of
`2 ^ -51`. -/
def bitsProduct (d : Nat) : Nat := roundSignificant 53 (roundSignificant 53 d * log2Ten)

/-- The limit on bits that belongs to a limit on digits. -/
def bitsOfDigits (digits : Int) : Int :=
  let bits : Int := (bitsProduct digits.natAbs >>> 51 : Nat)
  if digits < 0 then -bits else bits

/-- The limits given by a number of characters and a number of digits. The limit on conversions is set
apart from them. -/
def Limits.ofDigits (maxLength maxDigits : Int) (maxConverted : Option Nat := some conversionLimit) :
    Limits :=
  ⟨maxLength, maxDigits, bitsOfDigits maxDigits, maxConverted⟩

theorem Limits.convertible_ofDigits {maxLength maxDigits : Int} (h : maxDigits ≤ conversionLimit) :
    (Limits.ofDigits maxLength maxDigits).Convertible := by
  rintro most ⟨⟩
  exact h

structure Settings where
  limits : Limits
  /-- the log level where none is asked for, in upper case -/
  logLevel : String
deriving DecidableEq, Repr

namespace Settings

/-- 10000 characters, 4300 digits, and warnings logged. -/
def default : Settings := ⟨.ofDigits 10000 4300, "WARNING"⟩

/-- The variables of the environment that settings come from. -/
def names : List String :=
  ["RPNCALC_MAX_INPUT_LENGTH", "RPNCALC_MAX_RESULT_DIGITS", "RPNCALC_LOG_LEVEL"]

/-- An integer setting, or `fallback` where the variable is not set. -/
def integer (lookup : String → Option String) (name : String) (fallback : Int) :
    Except SettingsError Int :=
  match lookup name with
  | none => .ok fallback
  | some text => (IntegerLiteral.read text).mapError .literal

/-- The settings in an environment. The largest floating-point number is just below `2 ^ 1024`. -/
def ofEnvironment (lookup : String → Option String) : Except SettingsError Settings := do
  let maxLength ← integer lookup "RPNCALC_MAX_INPUT_LENGTH" default.limits.maxLength
  let maxDigits ← integer lookup "RPNCALC_MAX_RESULT_DIGITS" default.limits.maxDigits
  if 1 <<< 1024 ≤ roundSignificant 53 maxDigits.natAbs then throw .digitsOverflow
  if 1 <<< (1024 + 51) ≤ bitsProduct maxDigits.natAbs then throw .bitsOverflow
  let logLevel := upperCase ((lookup "RPNCALC_LOG_LEVEL").getD default.logLevel)
  return ⟨.ofDigits maxLength maxDigits, logLevel⟩

end Settings

end ExprCalc
