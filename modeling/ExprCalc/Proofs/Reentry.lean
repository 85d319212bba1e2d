import ExprCalc.Proofs.EntryPoints
import ExprCalc.Proofs.Loading
import ExprCalc.Proofs.Magnitude

/-!
# Numbers as texts

A number in decimal is worth itself if it is below the bound for literals and its digits can be
converted, however many zeros stand before it. A value that the calculator returns can be given back to
it: the value of a literal is below that bound, and so is the result of an operator, whose bound is
lower. A negative value has to be written as a difference, which is computed; but no literal is negative,
so the value is the result of an operator and has no more bits than a result may have
(`bitLength_le_of_neg`).
-/

namespace ExprCalc

/-- A number in decimal behind `z` zeros. -/
def padded (z n : Nat) : String := String.ofList (List.replicate z '0') ++ decimal n

/-- A value as an expression. -/
def reentered (v : Int) : String :=
  if 0 ≤ v then decimal v else "(0 - " ++ decimal v.natAbs ++ ")"

theorem toList_decimal_natCast (n : Nat) : (decimal n).toList = Nat.toDigits 10 n := by
  rw [decimal, String.toList_ofList, decimalChars_natCast]

theorem toList_padded (z n : Nat) :
    (padded z n).toList = List.replicate z '0' ++ Nat.toDigits 10 n := by
  rw [padded, String.toList_append, String.toList_ofList, toList_decimal_natCast]

theorem padded_zero (n : Nat) : padded 0 n = decimal n := by
  rw [← String.toList_inj, toList_padded, toList_decimal_natCast]
  rfl

/-! ### Literals -/

theorem isDigit_of_mem_padded {z n : Nat} : ∀ c ∈ (padded z n).toList, c.isDigit = true := by
  intro c hc
  rw [toList_padded] at hc
  rcases List.mem_append.1 hc with hc | hc
  · rw [List.eq_of_mem_replicate hc]
    rfl
  · exact Nat.isDigit_of_mem_toDigits (by decide) (by decide) hc

theorem toList_padded_ne_nil (z n : Nat) : (padded z n).toList ≠ [] := by
  simp [toList_padded, Nat.toDigits_ne_nil]

theorem ofDigitChars_padded (z n : Nat) : Nat.ofDigitChars 10 (padded z n).toList 0 = n := by
  rw [toList_padded, Nat.ofDigitChars_append, Nat.ofDigitChars_replicate_zero, Nat.mul_zero,
    Nat.ofDigitChars_ten_toDigits]

theorem length_decimal_le_iff {n k : Nat} (h1 : 1 ≤ k) : (decimal n).length ≤ k ↔ n < 10 ^ k := by
  rw [← String.length_toList, toList_decimal_natCast, Nat.length_toDigits_le_iff (by decide) h1]

theorem length_decimal_ten_pow {k : Nat} (h1 : 1 ≤ k) :
    (decimal ((10 ^ k : Nat) : Int)).length = k + 1 := by
  refine Nat.le_antisymm ((length_decimal_le_iff (by omega)).2 ?_) ?_
  · exact Nat.pow_lt_pow_right (by decide) (Nat.lt_succ_self k)
  · rw [Nat.succ_le_iff, ← Nat.not_le, length_decimal_le_iff h1]
    exact Nat.lt_irrefl _

/-- Behind the zeros there are just the digits of the number. -/
theorem length_significantDigits_padded (z n : Nat) :
    (significantDigits (padded z n).toList).length = (decimal n).length := by
  have hpos : 0 < (decimal n).length := by
    rw [← String.length_toList, toList_decimal_natCast]
    exact List.length_pos_iff.2 Nat.toDigits_ne_nil
  refine eq_of_forall_lt_iff fun k => ?_
  cases k with
  | zero => exact iff_of_true (length_significantDigits_pos _) hpos
  | succ k =>
    rw [lt_length_significantDigits_iff isDigit_of_mem_padded k.succ_pos, ofDigitChars_padded,
      ← Nat.not_lt, ← length_decimal_le_iff k.succ_pos, Nat.not_le]

section
variable {maxLength : Int} {d : Nat} {limits : Limits}

theorem parseNumber_padded (hl : limits.maxDigits = d) (h1 : 1 ≤ d) (z n : Nat) :
    parseNumber limits (padded z n) =
      if 10 ^ d ≤ n then .error (.resultTooLarge d)
      else convertDigits limits (significantDigits (padded z n).toList) := by
  have hiff := lt_length_significantDigits_iff (isDigit_of_mem_padded (z := z) (n := n)) h1
  rw [ofDigitChars_padded] at hiff
  rw [parseNumber_of_digits limits (toList_padded_ne_nil z n) isDigit_of_mem_padded, hl]
  simp only [Nat.cast_lt, hiff]

theorem convertDigits_padded_of_le {n : Nat}
    (h : ∀ most ∈ limits.maxConverted, (decimal n).length ≤ most) (z : Nat) :
    convertDigits limits (significantDigits (padded z n).toList) = .ok (n : Int) := by
  rw [convertDigits_of_le (by rwa [length_significantDigits_padded]), ofDigitChars_significantDigits,
    ofDigitChars_padded]

theorem convertDigits_padded_of_lt {most n : Nat} (hmost : limits.maxConverted = some most)
    (hlt : most < (decimal n).length) (z : Nat) :
    convertDigits limits (significantDigits (padded z n).toList) =
      .error (.unconvertible most (decimal n).length) := by
  rw [convertDigits_of_lt hmost (by rwa [length_significantDigits_padded]),
    length_significantDigits_padded]

/-- Where literals within the limit can be converted, a number below the bound is what it says. -/
theorem parseNumber_padded_of_lt (hl : limits.maxDigits = d) (h1 : 1 ≤ d)
    (hconv : limits.Convertible) {n : Nat} (hn : n < 10 ^ d) (z : Nat) :
    parseNumber limits (padded z n) = .ok (n : Int) := by
  have hlength := (length_decimal_le_iff h1).2 hn
  rw [parseNumber_padded hl h1, if_neg (Nat.not_le.2 hn), convertDigits_padded_of_le]
  intro most hmost
  have := hconv most hmost
  omega

theorem evaluateExpression_padded {z n : Nat} (hl : ((padded z n).length : Int) ≤ limits.maxLength) :
    Calculator.evaluateExpression limits (padded z n) = parseNumber limits (padded z n) :=
  Calculator.evaluateExpression_of_digits (toList_padded_ne_nil z n) isDigit_of_mem_padded hl

/-- The digits of a number as a formula. -/
def Formula.padded (z n : Nat) : Formula :=
  .number (ExprCalc.padded z n).toList (toList_padded_ne_nil z n) isDigit_of_mem_padded

theorem Formula.value_padded (z n : Nat) :
    (Formula.padded z n).value limits = parseNumber limits (ExprCalc.padded z n) := by
  rw [Formula.padded, Formula.value, String.ofList_toList]

theorem Formula.written_padded (z n : Nat) :
    (Formula.padded z n).Written none (ExprCalc.padded z n).toList := .number _ _ _

/-! ### Negative values -/

theorem nonneg_of_parseNumber {lexeme : String} {v : Int} (h : parseNumber limits lexeme = .ok v) :
    0 ≤ v := by
  have hexact := (parseNumber_unlessRefused limits lexeme).eq_ok h
  unfold exactNumber at hexact
  dsimp only at hexact
  split_ifs at hexact
  cases hexact
  exact Int.natCast_nonneg _

/-- Below zero there are only results of operators. -/
theorem bitLength_le_of_neg {operations : Operations} {ts : List Token} {stack : List Int}
    (h : ts.foldlM (evalStep limits operations) [] = .ok stack) :
    ∀ v ∈ stack, v < 0 → (bitLength v : Int) ≤ limits.maxBits := by
  refine foldlM_invariant (fun _ stack => ∀ v ∈ stack, v < 0 → (bitLength v : Int) ≤ limits.maxBits)
    (by simp) ?_ h
  intro read stack t stack' hs hstep
  rcases evalStep_eq_ok hstep with ⟨v, -, hv, rfl⟩ | ⟨l, r, rest, v, -, rfl, hv, rfl⟩
  · refine List.forall_mem_cons.2 ⟨fun hneg => ?_, hs⟩
    exact absurd (nonneg_of_parseNumber hv) (Int.not_le.2 hneg)
  · refine List.forall_mem_cons.2 ⟨fun _ => bitLength_of_applyLexeme hv, fun v hv => hs v ?_⟩
    exact List.mem_cons_of_mem _ (List.mem_cons_of_mem _ hv)

/-- The difference of zero and `n`, in parentheses. -/
theorem Formula.isText_difference (n : Nat) :
    (Formula.apply .sub (.padded 0 0) (.padded 0 n)).IsText ("(0 - " ++ decimal n ++ ")") := by
  have hspace : Gap [' '] := by
    intro c hc
    rw [List.mem_singleton.1 hc]
    rfl
  have hnone : Gap [] := nofun
  have hminus : (Formula.apply .sub (.padded 0 0) (.padded 0 n)).Written (some .sub) _ :=
    .apply (by simp) (by simp) (written_padded 0 0) hspace hspace (written_padded 0 n)
  refine ⟨none, [], _, [], hnone, .group hnone hminus hnone, hnone, ?_⟩
  simp [toList_padded, toList_decimal_natCast, Operator.lexeme]

theorem Formula.value_difference (hl : limits.maxDigits = d) (h1 : 1 ≤ d)
    (hconv : limits.Convertible) {n : Nat} (hn : n < 10 ^ d)
    (hbits : (bitLength (-n) : Int) ≤ limits.maxBits) :
    (Formula.apply .sub (.padded 0 0) (.padded 0 n)).value limits = .ok (-n) := by
  have hzero := parseNumber_padded_of_lt hl h1 hconv (Nat.pow_pos (n := d) (by decide : 0 < 10)) 0
  have hnumber := parseNumber_padded_of_lt hl h1 hconv hn 0
  have hsub : Operator.sub.apply limits 0 n = .ok (-n) := by
    rw [Operator.apply, Int.zero_sub]
  rw [value_apply, value_padded, value_padded, hzero, hnumber]
  exact applyChecked_eq_ok.2 ⟨hsub, hbits⟩

theorem evaluateExpression_reentered (h1 : 1 ≤ d) (h2 : d ≤ 4300) {s : String} {v : Int}
    (h : Calculator.evaluateExpression (.ofDigits maxLength d) s = .ok v)
    (hl : ((reentered v).length : Int) ≤ maxLength) :
    Calculator.evaluateExpression (.ofDigits maxLength d) (reentered v) = .ok v := by
  have hconv : (Limits.ofDigits maxLength d).Convertible :=
    Limits.convertible_ofDigits (by exact_mod_cast h2)
  obtain ⟨ts, stack, hrun, hmem⟩ := Calculator.exists_stack_of_evaluateExpression h
  have hlt := foldlM_evalStep_natAbs_lt h1 h2 hrun v hmem
  by_cases hv : 0 ≤ v
  · obtain ⟨n, rfl⟩ := Int.eq_ofNat_of_zero_le hv
    rw [reentered, if_pos hv, ← padded_zero] at hl ⊢
    rw [evaluateExpression_padded hl]
    exact parseNumber_padded_of_lt rfl h1 hconv (by simpa using hlt) 0
  · have hbits := bitLength_le_of_neg hrun v hmem (Int.not_le.1 hv)
    have hneg : -(v.natAbs : Int) = v := by omega
    rw [← hneg] at hbits
    rw [reentered, if_neg hv] at hl ⊢
    rw [(Formula.isText_difference v.natAbs).evaluateExpression_eq hl,
      Formula.value_difference rfl h1 hconv hlt hbits, hneg]

end

/-- A number in decimal is refused if it has more than `d` digits, leading zeros apart, and is worth
itself otherwise, unless it has more digits than are converted. The value of an expression, given as an
expression, has that value again. -/
theorem evaluateExpression_decimal (maxLength : Int) {d : Nat} (h1 : 1 ≤ d) :
    (∀ (maxConverted : Option Nat) (n z : Nat), ((padded z n).length : Int) ≤ maxLength →
      let value := Calculator.evaluateExpression (.ofDigits maxLength d maxConverted) (padded z n)
      (10 ^ d ≤ n → value = .error (.resultTooLarge d)) ∧
      (n < 10 ^ d → (∀ most ∈ maxConverted, (decimal n).length ≤ most) → value = .ok (n : Int)) ∧
      (n < 10 ^ d → ∀ most ∈ maxConverted, most < (decimal n).length →
        value = .error (.unconvertible most (decimal n).length))) ∧
    (d ≤ 4300 → ∀ s v, Calculator.evaluateExpression (.ofDigits maxLength d) s = .ok v →
      ((reentered v).length : Int) ≤ maxLength →
        Calculator.evaluateExpression (.ofDigits maxLength d) (reentered v) = .ok v) := by
  refine ⟨fun maxConverted n z hl => ?_, fun h2 s v h hl => evaluateExpression_reentered h1 h2 h hl⟩
  intro value
  have hvalue : value = parseNumber (.ofDigits maxLength d maxConverted) (padded z n) :=
    evaluateExpression_padded hl
  rw [hvalue, parseNumber_padded rfl h1]
  refine ⟨fun hle => if_pos hle, fun hlt hmost => ?_, fun hlt most hmost hlength => ?_⟩
  · rw [if_neg (Nat.not_le.2 hlt)]
    exact convertDigits_padded_of_le hmost z
  · rw [if_neg (Nat.not_le.2 hlt)]
    exact convertDigits_padded_of_lt hmost hlength z

/-- With one digit the value of `2-9` can be given again, and ten cannot be given at all. -/
theorem evaluateExpression_decimal_one_digit :
    let limits := Limits.ofDigits 1000 (1 : Nat)
    Calculator.evaluateExpression limits "0009" = .ok 9 ∧
      Calculator.evaluateExpression limits "0010" = .error (.resultTooLarge 1) ∧
      Calculator.evaluateExpression limits "2-9" = .ok (-7) ∧
      Calculator.evaluateExpression limits "(0 - 7)" = .ok (-7) := by
  intro limits
  obtain ⟨hnumber, hagain⟩ := evaluateExpression_decimal 1000 (d := 1) (by decide)
  have hlimits : limits = ⟨1000, 1, 3, some 4300⟩ := by decide +kernel
  have hsub : Calculator.evaluateExpression limits "2-9" = .ok (-7) := by
    have hscan : Scan 0 "2-9".toList
        [⟨.number, 0, ['2']⟩, ⟨.operator, 1, ['-']⟩, ⟨.number, 2, ['9']⟩] :=
      .token (.digit rfl rfl) (.token (.operator .sub nofun) (.token (.digit rfl rfl) .done))
    rw [hlimits, Calculator.evaluateExpression, hscan.tokenize_eq (by decide)]
    rfl
  have hnine : padded 3 9 = "0009" := by decide
  have hten : padded 2 10 = "0010" := by decide
  have hminus : reentered (-7) = "(0 - 7)" := by decide
  obtain ⟨-, hok, -⟩ := hnumber (some 4300) 9 3 (by decide)
  obtain ⟨hlarge, -⟩ := hnumber (some 4300) 10 2 (by decide)
  rw [← hnine, ← hten, ← hminus]
  refine ⟨hok (by decide) ?_, hlarge (by decide), hsub, hagain (by decide) "2-9" (-7) hsub (by decide)⟩
  rintro most ⟨⟩
  decide

/-- The smallest number with more than `k` digits, where `k` are converted. -/
theorem evaluateExpression_ten_pow {maxLength : Int} {k d : Nat} (h1 : 1 ≤ k) (hk : k < d)
    (hl : k + 1 ≤ maxLength) :
    10 ^ k < 10 ^ d ∧ ((padded 0 (10 ^ k)).length : Int) ≤ maxLength ∧
      Calculator.evaluateExpression (.ofDigits maxLength d (some k)) (padded 0 (10 ^ k)) =
        .error (.unconvertible k (k + 1)) := by
  have hlt : 10 ^ k < 10 ^ d := Nat.pow_lt_pow_right (by decide) hk
  have hcount := length_decimal_ten_pow h1
  have hfits : ((padded 0 (10 ^ k)).length : Int) ≤ maxLength := by
    rw [padded_zero, hcount]
    exact_mod_cast hl
  refine ⟨hlt, hfits, ?_⟩
  rw [evaluateExpression_padded hfits, parseNumber_padded rfl (by omega), if_neg (Nat.not_le.2 hlt),
    convertDigits_padded_of_lt rfl (by omega), hcount]

/-- A limit of 5000 digits can be set, and then `10 ^ 4300` is not worth itself, though it is below the
bound; and a limit of `2 ^ 1024` digits cannot even be set. -/
theorem evaluateExpression_decimal_unconvertible :
    Settings.ofEnvironment (Settings.asking 10000 (1 <<< 1024)) = .error .digitsOverflow ∧
    Settings.ofEnvironment (Settings.asking 10000 5000) = .ok ⟨.ofDigits 10000 5000, "WARNING"⟩ ∧
    10 ^ conversionLimit < 10 ^ 5000 ∧ ((padded 0 (10 ^ conversionLimit)).length : Int) ≤ 10000 ∧
      Calculator.evaluateExpression (.ofDigits 10000 5000) (padded 0 (10 ^ conversionLimit)) =
        .error (.unconvertible conversionLimit (conversionLimit + 1)) :=
  ⟨Settings.ofEnvironment_asking_overflow, Settings.ofEnvironment_asking_five_thousand,
    evaluateExpression_ten_pow (by decide) (by decide) (by decide)⟩

end ExprCalc
