import ExprCalc.Proofs.Outcome
import ExprCalc.Settings
import Mathlib.Algebra.Order.Ring.Int
import Mathlib.Data.List.Basic
import Mathlib.Data.List.TakeWhile

/-!
# Which settings can be used

A natural number written in decimal is read as itself if it has not too many digits
(`IntegerLiteral.read_decimal`). So an environment may ask for any two natural numbers as limits, and
they are the limits that hold, unless the one on digits is too large for a floating-point number
(`Settings.ofEnvironment_asking`).
-/

namespace ExprCalc

/-! ### Digits -/

section
variable {c : Char}

theorem scriptDigit?_of_isDigit (h : c.isDigit = true) : scriptDigit? c = some (c.toNat - 48) := by
  have hge : 48 ≤ c.toNat := (Char.isDigit_iff_toNat.1 h).1
  have hle : c.toNat ≤ 57 := (Char.isDigit_iff_toNat.1 h).2
  have hzero : (48 ≤ c.toNat && c.toNat < 48 + 10) = true := by
    simp only [Bool.and_eq_true, decide_eq_true_eq]
    omega
  have hfind : scriptZeros.find? (fun z => z ≤ c.toNat && c.toNat < z + 10) = some 48 :=
    List.find?_cons_of_pos hzero
  rw [scriptDigit?, hfind]
  rfl

theorem isBlank_of_isDigit (h : c.isDigit = true) : isBlank c = false := by
  have hge : 48 ≤ c.toNat := (Char.isDigit_iff_toNat.1 h).1
  have hle : c.toNat ≤ 57 := (Char.isDigit_iff_toNat.1 h).2
  simp only [isBlank, blanks, CodeRanges.contains, Bool.and_eq_false_iff, Bool.or_eq_false_iff,
    decide_eq_false_iff_not]
  omega

theorem ne_underscore_of_isDigit (h : c.isDigit = true) : c ≠ '_' := by
  rintro rfl
  cases h

end

namespace IntegerLiteral

theorem isGrouped_of_digits {ds : List Char} (hne : ds ≠ []) (h : ∀ c ∈ ds, c.isDigit = true) :
    isGrouped ds = true := by
  induction ds with
  | nil => exact absurd rfl hne
  | cons c ds ih =>
    have hc := ne_underscore_of_isDigit (h c List.mem_cons_self)
    cases ds with
    | nil => simpa [isGrouped] using hc
    | cons d ds =>
      have hd := ne_underscore_of_isDigit (h d (by simp))
      have hrest := ih (List.cons_ne_nil _ _) fun c hc => h c (List.mem_cons_of_mem _ hc)
      simp [isGrouped, hc, hd, hrest]

theorem foldl_digits (ds : List Char) (n : Nat) :
    (ds.map fun c => c.toNat - 48).foldl (fun n d => 10 * n + d) n = Nat.ofDigitChars 10 ds n := by
  induction ds generalizing n with
  | nil => rfl
  | cons c ds ih =>
    rw [List.map_cons, List.foldl_cons, ih, Nat.ofDigitChars_cons]
    rfl

theorem read_digits {ds : List Char} (hne : ds ≠ []) (h : ∀ c ∈ ds, c.isDigit = true)
    (hlength : ds.length ≤ conversionLimit) :
    read (String.ofList ds) = .ok (Nat.ofDigitChars 10 ds 0 : Nat) := by
  have hpadding : ds.dropWhile isPadding = ds :=
    List.dropWhile_eq_self_iff.2 fun h0 => by
      simp [isPadding, isBlank_of_isDigit (h _ (ds.getElem_mem h0))]
  have hsign : splitSign ds = (false, ds) := by
    unfold splitSign
    split
    · cases h '-' List.mem_cons_self
    · cases h '+' List.mem_cons_self
    · rfl
  have hpart : ∀ c ∈ ds, (c == '_' || isScriptDigit c) = true := fun c hc => by
    simp [isScriptDigit, scriptDigit?_of_isDigit (h c hc)]
  have hvalues : ds.filterMap scriptDigit? = ds.map fun c => c.toNat - 48 := by
    rw [← List.filterMap_eq_map]
    exact List.filterMap_congr fun c hc => scriptDigit?_of_isDigit (h c hc)
  unfold read
  simp only [String.toList_ofList, hpadding, hsign, List.takeWhile_eq_self_iff.2 hpart,
    List.dropWhile_eq_nil_iff.2 hpart, hvalues, isGrouped_of_digits hne h, List.length_map,
    Nat.not_lt.2 hlength, ofDigits, foldl_digits]
  rfl

theorem read_decimal {n : Nat} (h : (Nat.toDigits 10 n).length ≤ conversionLimit) :
    read (decimal n) = .ok n := by
  have hd : ∀ c ∈ Nat.toDigits 10 n, c.isDigit = true := fun c hc =>
    Nat.isDigit_of_mem_toDigits (by decide) (by decide) hc
  have hread := read_digits Nat.toDigits_ne_nil hd h
  rwa [Nat.ofDigitChars_ten_toDigits, ← decimalChars_natCast] at hread

end IntegerLiteral

namespace Settings

/-- The environment that asks for limits of so many characters and digits. -/
def asking (maxLength maxDigits : Nat) (name : String) : Option String :=
  if name = "RPNCALC_MAX_INPUT_LENGTH" then some (decimal maxLength)
  else if name = "RPNCALC_MAX_RESULT_DIGITS" then some (decimal maxDigits)
  else none

theorem ofEnvironment_asking {maxLength maxDigits : Nat}
    (hlength : (Nat.toDigits 10 maxLength).length ≤ conversionLimit)
    (hdigits : (Nat.toDigits 10 maxDigits).length ≤ conversionLimit) :
    ofEnvironment (asking maxLength maxDigits) =
      if 1 <<< 1024 ≤ roundSignificant 53 maxDigits then .error .digitsOverflow
      else if 1 <<< (1024 + 51) ≤ bitsProduct maxDigits then .error .bitsOverflow
      else .ok ⟨.ofDigits maxLength maxDigits, "WARNING"⟩ := by
  have hl : integer (asking maxLength maxDigits) "RPNCALC_MAX_INPUT_LENGTH"
      default.limits.maxLength = .ok maxLength := by
    have hname : asking maxLength maxDigits "RPNCALC_MAX_INPUT_LENGTH" =
        some (decimal maxLength) := rfl
    simp only [integer, hname, IntegerLiteral.read_decimal hlength]
    rfl
  have hd : integer (asking maxLength maxDigits) "RPNCALC_MAX_RESULT_DIGITS"
      default.limits.maxDigits = .ok maxDigits := by
    have hname : asking maxLength maxDigits "RPNCALC_MAX_RESULT_DIGITS" =
        some (decimal maxDigits) := rfl
    simp only [integer, hname, IntegerLiteral.read_decimal hdigits]
    rfl
  have hlevel : upperCase ((asking maxLength maxDigits "RPNCALC_LOG_LEVEL").getD default.logLevel) =
      "WARNING" := by
    show upperCase "WARNING" = "WARNING"
    decide +kernel
  unfold ofEnvironment
  rw [hl, hd]
  simp only [hlevel, bind, Except.bind, Int.natAbs_natCast]
  split_ifs <;> rfl

theorem length_toDigits_le {n : Nat} (h : n < 10 ^ conversionLimit) :
    (Nat.toDigits 10 n).length ≤ conversionLimit :=
  (Nat.length_toDigits_le_iff (by decide) (by decide)).2 h

theorem length_toDigits_le_of_lt {n : Nat} (h : n < 10 ^ 5) :
    (Nat.toDigits 10 n).length ≤ conversionLimit :=
  length_toDigits_le (Nat.lt_of_lt_of_le h (Nat.pow_le_pow_right (by decide) (by decide)))

/-- A limit of `2 ^ 1024` digits is the first beyond the range of floating-point numbers. -/
theorem ofEnvironment_asking_overflow :
    ofEnvironment (asking 10000 (1 <<< 1024)) = .error .digitsOverflow := by
  have hdigits : 1 <<< 1024 < 10 ^ conversionLimit := by
    rw [Nat.one_shiftLeft]
    calc 2 ^ 1024 ≤ 10 ^ 1024 := Nat.pow_le_pow_left (by decide) _
      _ < 10 ^ conversionLimit := Nat.pow_lt_pow_right (by decide) (by decide)
  rw [ofEnvironment_asking (length_toDigits_le_of_lt (by decide)) (length_toDigits_le hdigits)]
  exact if_pos (by decide +kernel)

/-- A limit of 5000 digits can be asked for, though that many digits are not converted. -/
theorem ofEnvironment_asking_five_thousand :
    ofEnvironment (asking 10000 5000) = .ok ⟨.ofDigits 10000 5000, "WARNING"⟩ := by
  rw [ofEnvironment_asking (length_toDigits_le_of_lt (by decide))
    (length_toDigits_le_of_lt (by decide)), if_neg (by decide +kernel), if_neg (by decide +kernel)]
  rfl

end Settings

end ExprCalc
