import ExprCalc.Proofs.Failure
import ExprCalc.Proofs.Magnitude

/-!
# What is refused for its size

An evaluation is refused for the size of a number exactly when it comes upon a literal or a result
that is `Oversized`. The bound for a literal is `10 ^ d`, that is `d` digits, but the bound for a
result is `2 ^ b`, the greatest power of two below: a result from `2 ^ b` up is refused even if a
literal of its value would do.
-/

namespace ExprCalc

/-- The evaluation comes upon a literal whose exact value is at least `literal`, or upon an operator
whose exact result on the values on the stack is at least `result`. -/
def Oversized (limits : Limits) (literal result : Nat) (ts : List Token) : Prop :=
  ∃ before t after stack, ts = before ++ t :: after ∧
    before.foldlM (evalStep limits (.arithmetic limits)) [] = .ok stack ∧
    ((t.kind = .number ∧ ∃ x, exactNumber t.lexeme = .ok x ∧ literal ≤ x.natAbs) ∨
      (t.kind = .operator ∧ ∃ l r rest x, stack = r :: l :: rest ∧
        exactLexeme t.lexeme l r = .ok x ∧ result ≤ x.natAbs))

section
variable {limits : Limits} {d b : Nat} {t : Token} {stack : List Int} {ts : List Token}

theorem evalStep_eq_resultTooLarge (hconv : limits.Convertible) (hd : limits.maxDigits = d)
    (h1 : 1 ≤ d) (hb : limits.maxBits = b) :
    (∃ n, evalStep limits (.arithmetic limits) stack t = .error (.resultTooLarge n)) ↔
      (t.kind = .number ∧ ∃ x, exactNumber t.lexeme = .ok x ∧ 10 ^ d ≤ x.natAbs) ∨
      (t.kind = .operator ∧ ∃ l r rest x, stack = r :: l :: rest ∧
        exactLexeme t.lexeme l r = .ok x ∧ 2 ^ b ≤ x.natAbs) := by
  constructor
  · rintro ⟨n, h⟩
    rcases evalStep_eq_error h with ⟨hk, hnum⟩ | ⟨l, r, rest, hk, rfl, hop⟩ |
      ⟨-, -, ⟨-, ⟨⟩⟩ | ⟨-, ⟨⟩⟩⟩ | ⟨-, ⟨⟩⟩
    · rw [parseNumber_eq_capped hd h1 hconv] at hnum
      rcases bind_eq_error.1 hnum with hnum | ⟨x, hx, hsize⟩
      · cases exactNumber_eq_error hnum
      · exact .inl ⟨hk, x, hx, (Limits.capped_eq_error.1 hsize).2⟩
    · rw [applyLexeme_eq_capped hb] at hop
      rcases bind_eq_error.1 hop with hop | ⟨x, hx, hsize⟩
      · rcases exactLexeme_eq_error hop with ⟨⟨⟩⟩ | ⟨⟨⟩⟩
      · exact .inr ⟨hk, l, r, rest, x, rfl, hx, (Limits.capped_eq_error.1 hsize).2⟩
  · rintro (⟨hk, x, hx, hsize⟩ | ⟨hk, l, r, rest, x, rfl, hx, hsize⟩)
    · refine ⟨limits.maxDigits, ?_⟩
      rw [evalStep_number hk, map_eq_error, parseNumber_eq_capped hd h1 hconv]
      exact bind_eq_error.2 (.inr ⟨x, hx, Limits.capped_eq_error.2 ⟨rfl, hsize⟩⟩)
    · refine ⟨limits.maxDigits, ?_⟩
      rw [evalStep_operator hk, map_eq_error, applyLexeme_eq_capped hb]
      exact bind_eq_error.2 (.inr ⟨x, hx, Limits.capped_eq_error.2 ⟨rfl, hsize⟩⟩)

theorem evaluate_eq_resultTooLarge (hconv : limits.Convertible) (hd : limits.maxDigits = d)
    (h1 : 1 ≤ d) (hb : limits.maxBits = b) :
    (∃ n, evaluate limits (.arithmetic limits) ts = .error (.resultTooLarge n)) ↔
      Oversized limits (10 ^ d) (2 ^ b) ts := by
  constructor
  · rintro ⟨n, h⟩
    rcases evaluate_eq_error.1 h with ⟨before, t, after, stack, hts, hrun, h⟩ | ⟨stack, -, h⟩
    · exact ⟨before, t, after, stack, hts, hrun,
        (evalStep_eq_resultTooLarge hconv hd h1 hb).1 ⟨n, h⟩⟩
    · rcases soleValue_eq_error h with ⟨-, ⟨⟩⟩ | ⟨-, ⟨⟩⟩
  · rintro ⟨before, t, after, stack, hts, hrun, h⟩
    obtain ⟨n, h⟩ := (evalStep_eq_resultTooLarge hconv hd h1 hb).2 h
    exact ⟨n, evaluate_eq_error.2 (.inl ⟨before, t, after, stack, hts, hrun, h⟩)⟩

end

/-- The greatest power of two below a power of ten is above the power of ten before it. -/
theorem ten_pow_pred_lt_two_pow_log2 {d : Nat} (h1 : 1 ≤ d) :
    10 ^ (d - 1) < 2 ^ (10 ^ d).log2 := by
  obtain ⟨e, rfl⟩ := Nat.exists_eq_add_of_le' h1
  have hlt : 10 ^ (e + 1) < 2 ^ ((10 ^ (e + 1)).log2 + 1) := Nat.lt_log2_self
  have hten : 10 ^ (e + 1) = 10 ^ e * 10 := Nat.pow_succ 10 e
  rw [Nat.pow_succ 2] at hlt
  rw [Nat.add_sub_cancel]
  omega

/-- With a limit of `d` digits an evaluation is refused for the size of a number just if it comes upon
a literal of more than `d` digits or a result of more than `b` bits, where `2 ^ b` is the greatest
power of two below `10 ^ d`. No result of fewer than `d` digits has that many bits, and none that has
them is below half of `10 ^ d`. -/
theorem code_eq_resultTooLarge_iff_oversized (maxLength : Int) {d : Nat} (h1 : 1 ≤ d)
    (h2 : d ≤ 4300) :
    ∃ b : Nat, (Limits.ofDigits maxLength d).maxBits = b ∧
      10 ^ (d - 1) < 2 ^ b ∧ 2 ^ b ≤ 10 ^ d ∧ 10 ^ d < 2 * 2 ^ b ∧
      ∀ ts, (∃ f, evaluate (.ofDigits maxLength d) (.arithmetic (.ofDigits maxLength d)) ts =
          .error f ∧ f.code = "RESULT_TOO_LARGE") ↔
        Oversized (.ofDigits maxLength d) (10 ^ d) (2 ^ b) ts := by
  have hpos : 10 ^ d ≠ 0 := Nat.pos_iff_ne_zero.1 (Nat.pow_pos (by decide))
  have hbits := maxBits_ofDigits maxLength h2
  have hconv : (Limits.ofDigits maxLength d).Convertible :=
    Limits.convertible_ofDigits (by exact_mod_cast h2)
  refine ⟨(10 ^ d).log2, hbits, ten_pow_pred_lt_two_pow_log2 h1, Nat.log2_self_le hpos, ?_,
    fun ts => ?_⟩
  · rw [← Nat.pow_succ']
    exact Nat.lt_log2_self
  · rw [← evaluate_eq_resultTooLarge hconv rfl h1 hbits]
    constructor
    · rintro ⟨f, h, hcode⟩
      obtain ⟨n, rfl⟩ := Fault.code_eq_resultTooLarge.1 hcode
      exact ⟨n, h⟩
    · rintro ⟨n, h⟩
      exact ⟨_, h, Fault.code_eq_resultTooLarge.2 ⟨n, rfl⟩⟩

/-- With the limit of 4300 digits `2 ^ 14284` is refused, a number of 4300 digits. -/
theorem code_eq_resultTooLarge_iff_oversized_power_of_two :
    ∃ b : Nat, (Limits.ofDigits 10000 (4300 : Nat)).maxBits = b ∧ 2 ^ 14284 < 10 ^ 4300 ∧
      Oversized (.ofDigits 10000 (4300 : Nat)) (10 ^ 4300) (2 ^ b)
        [⟨.number, "2", none⟩, ⟨.number, "14284", none⟩, ⟨.operator, "**", none⟩] := by
  obtain ⟨b, hb, -, -, -, h⟩ := code_eq_resultTooLarge_iff_oversized 10000 (d := 4300) (by decide)
    (by decide)
  refine ⟨b, hb, two_pow_lt_ten_pow (by decide) (by decide), (h _).1 ?_⟩
  exact ⟨.resultTooLarge 4300, by decide +kernel, rfl⟩

/-- With a limit of one digit the sum of 4 and 4 is refused, though neither it nor a literal has more
than one digit. -/
theorem resultTooLarge_of_not_oversized :
    (∃ f, evaluate (.ofDigits 10000 (1 : Nat)) (.arithmetic (.ofDigits 10000 (1 : Nat)))
        [⟨.number, "4", none⟩, ⟨.number, "4", none⟩, ⟨.operator, "+", none⟩] = .error f ∧
      f.code = "RESULT_TOO_LARGE") ∧
    ¬ Oversized (.ofDigits 10000 (1 : Nat)) (10 ^ 1) (10 ^ 1)
        [⟨.number, "4", none⟩, ⟨.number, "4", none⟩, ⟨.operator, "+", none⟩] := by
  have hlimits : Limits.ofDigits 10000 (1 : Nat) = ⟨10000, 1, 3, some 4300⟩ := by decide +kernel
  rw [hlimits]
  refine ⟨⟨.resultTooLarge 1, by decide +kernel, rfl⟩, ?_⟩
  have hfour : exactNumber "4" = .ok 4 := by decide +kernel
  have hsum : exactLexeme "+" 4 4 = .ok 8 := rfl
  rintro ⟨before, t, after, stack, hts, hrun, h⟩
  match before, hts with
  | [], hts | [_], hts =>
    cases hts
    rcases h with ⟨-, x, hx, hle⟩ | ⟨⟨⟩, -⟩
    cases hfour.symm.trans hx
    exact absurd hle (by decide)
  | [_, _], hts =>
    cases hts
    rcases h with ⟨⟨⟩, -⟩ | ⟨-, l, r, rest, x, rfl, hx, hle⟩
    have hstack : r :: l :: rest = [4, 4] := Except.ok.inj (hrun.symm.trans (by decide +kernel))
    cases hstack
    cases hsum.symm.trans hx
    exact absurd hle (by decide)
  | _ :: _ :: _ :: before, hts =>
    cases before <;> cases hts

end ExprCalc
