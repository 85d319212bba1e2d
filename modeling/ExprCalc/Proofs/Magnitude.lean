import ExprCalc.Proofs.BitLimit
import ExprCalc.Proofs.Exact
import ExprCalc.Proofs.Scan

/-!
# How large values get

Within limits a literal or a result is its exact value, taken if its magnitude is below a bound
(`Limits.capped`): below `10 ^ d` for a literal, where `d` is the limit on digits and so many digits can
be converted, and below `2 ^ b` for the result of an operator, where `b` is the limit on bits
(`parseNumber_eq_capped`, `applyLexeme_eq_capped`). That a power may be refused before it is computed
makes no difference.

With the limit on bits that belongs to the one on digits the second bound is below the first, so every
value that is ever on the stack has at most `d` digits. A literal that could be read can be written, and so
can the result of an operator where all results within the limits can (`unwritable_of_mem_stack`).
-/

namespace ExprCalc

/-- A value whose magnitude is below `bound`. -/
def Limits.capped (limits : Limits) (bound : Nat) (x : Int) : Except Fault Int :=
  if bound ≤ x.natAbs then .error (.resultTooLarge limits.maxDigits) else .ok x

namespace Limits
variable {limits : Limits} {bound : Nat} {x y : Int} {f : Fault}

theorem capped_eq_ok : limits.capped bound x = .ok y ↔ x = y ∧ x.natAbs < bound := by
  unfold capped
  split
  · next h => exact ⟨nofun, fun ⟨_, hlt⟩ => absurd h (Nat.not_le.2 hlt)⟩
  · next h => exact ⟨fun hx => ⟨Except.ok.inj hx, Nat.not_le.1 h⟩, fun ⟨hx, _⟩ => hx ▸ rfl⟩

theorem capped_eq_error :
    limits.capped bound x = .error f ↔ f = .resultTooLarge limits.maxDigits ∧ bound ≤ x.natAbs := by
  unfold capped
  split
  · next h => exact ⟨fun hf => ⟨(Except.error.inj hf).symm, h⟩, fun ⟨hf, _⟩ => hf ▸ rfl⟩
  · next h => exact ⟨nofun, fun ⟨_, hle⟩ => absurd hle h⟩

end Limits

/-! ### Literals -/

theorem ofDigitChars_lt {ds : List Char} (hd : ∀ c ∈ ds, c.isDigit = true) :
    Nat.ofDigitChars 10 ds 0 < 10 ^ ds.length := by
  induction ds with
  | nil => decide
  | cons c ds ih =>
    have hc : c.toNat - 48 ≤ 9 := by
      have : c.toNat ≤ 57 := (Char.isDigit_iff_toNat.1 (hd c List.mem_cons_self)).2
      omega
    have hrest := ih fun c hc => hd c (List.mem_cons_of_mem _ hc)
    have hfirst := Nat.mul_le_mul_left (10 ^ ds.length) hc
    rw [Nat.ofDigitChars_cons, Nat.ofDigitChars_eq_ofDigitChars_zero, Nat.mul_zero, Nat.zero_add,
      List.length_cons, Nat.pow_succ]
    show 10 ^ ds.length * (c.toNat - 48) + _ < _
    omega

/-- A number that begins with another digit than zero is at least as large as its length says. -/
theorem le_ofDigitChars_cons {c : Char} (hc : c.isDigit = true) (h0 : c ≠ '0') (ds : List Char) :
    10 ^ ds.length ≤ Nat.ofDigitChars 10 (c :: ds) 0 := by
  have hpos : 0 < c.toNat - 48 := by
    have hge : 48 ≤ c.toNat := (Char.isDigit_iff_toNat.1 hc).1
    have hne : c.toNat ≠ 48 := fun h => h0 (Char.toNat_inj.1 h)
    omega
  rw [Nat.ofDigitChars_cons, Nat.ofDigitChars_eq_ofDigitChars_zero, Nat.mul_zero, Nat.zero_add]
  exact Nat.le_add_right_of_le (Nat.le_mul_of_pos_right _ hpos)

theorem length_significantDigits_pos (cs : List Char) : 0 < (significantDigits cs).length := by
  unfold significantDigits
  split
  · decide
  · next hne => exact List.length_pos_iff.2 hne

theorem lt_length_significantDigits_iff {cs : List Char} (hd : ∀ c ∈ cs, c.isDigit = true) {d : Nat}
    (h1 : 1 ≤ d) : d < (significantDigits cs).length ↔ 10 ^ d ≤ Nat.ofDigitChars 10 cs 0 := by
  rw [← ofDigitChars_significantDigits]
  have hdrop := List.head?_dropWhile_not (· == '0') cs
  have hmem : ∀ c ∈ cs.dropWhile (· == '0'), c.isDigit = true :=
    fun c hc => hd c (List.dropWhile_subset _ hc)
  unfold significantDigits
  cases hds : cs.dropWhile (· == '0') with
  | nil =>
    have hzero : Nat.ofDigitChars 10 ['0'] 0 = 0 := rfl
    have := Nat.pow_pos (n := d) (show 0 < 10 by decide)
    simp only [hzero, List.length_singleton]
    omega
  | cons c ds =>
    rw [hds] at hdrop hmem
    have h0 : c ≠ '0' := by simpa using hdrop
    dsimp only
    constructor
    · intro hlt
      calc 10 ^ d ≤ 10 ^ ds.length := Nat.pow_le_pow_right (by decide) (Nat.le_of_lt_succ hlt)
        _ ≤ _ := le_ofDigitChars_cons (hmem c List.mem_cons_self) h0 ds
    · intro hle
      exact (Nat.pow_lt_pow_iff_right (by decide)).1 (Nat.lt_of_le_of_lt hle (ofDigitChars_lt hmem))

theorem parseNumber_eq_capped {limits : Limits} {d : Nat} (hl : limits.maxDigits = d) (h1 : 1 ≤ d)
    (hconv : limits.Convertible) (lexeme : String) :
    parseNumber limits lexeme = exactNumber lexeme >>= limits.capped (10 ^ d) := by
  unfold parseNumber exactNumber
  dsimp only
  split
  · rfl
  · next h =>
    have hd : ∀ c ∈ lexeme.toList, c.isDigit = true := by simp_all
    have hiff := lt_length_significantDigits_iff hd h1
    show _ = limits.capped _ _
    by_cases hsize : limits.maxDigits < (significantDigits lexeme.toList).length
    · rw [if_pos hsize, Limits.capped, Int.natAbs_natCast, if_pos (hiff.1 (by omega))]
    · rw [if_neg hsize, convertDigits_of_le fun most hmost => by have := hconv most hmost; omega,
        ofDigitChars_significantDigits, Limits.capped, Int.natAbs_natCast,
        if_neg fun hle => hsize (by have := hiff.2 hle; omega)]

/-! ### Results -/

theorem applyChecked_eq_capped {limits : Limits} {b : Nat} (hl : limits.maxBits = b) (op : Operator)
    (l r : Int) :
    applyChecked limits (op.apply limits) l r = op.exact l r >>= limits.capped (2 ^ b) := by
  have htake : ∀ x, (if limits.maxBits < bitLength x then
      (.error (.resultTooLarge limits.maxDigits) : Except Fault Int) else .ok x) =
        limits.capped (2 ^ b) x := by
    intro x
    have hiff : limits.maxBits < bitLength x ↔ 2 ^ b ≤ x.natAbs := by
      rw [hl, Int.ofNat_lt, ← Nat.not_le, bitLength_le_iff, Nat.not_lt]
      rfl
    simp only [Limits.capped, hiff]
  rw [applyChecked_eq_exact, applyChecked]
  simp only [htake]

theorem applyLexeme_eq_capped {limits : Limits} {b : Nat} (hl : limits.maxBits = b) (lexeme : String)
    (l r : Int) :
    applyLexeme limits (.arithmetic limits) lexeme l r =
      exactLexeme lexeme l r >>= limits.capped (2 ^ b) := by
  unfold applyLexeme exactLexeme Operations.arithmetic
  cases Operator.ofLexeme? lexeme with
  | none => rfl
  | some op => exact applyChecked_eq_capped hl op l r

/-! ### The stack -/

theorem maxBits_ofDigits (maxLength : Int) {d : Nat} (hd : d ≤ 4300) :
    (Limits.ofDigits maxLength d).maxBits = ((10 ^ d).log2 : Nat) :=
  bitsOfDigits_eq_log2 hd

section
variable {maxLength : Int} {d : Nat} {operations : Operations} {t : Token} {stack stack' : List Int}

theorem bitLength_of_applyLexeme {limits : Limits} {lexeme : String} {l r v : Int}
    (h : applyLexeme limits operations lexeme l r = .ok v) : bitLength v ≤ limits.maxBits := by
  unfold applyLexeme at h
  split at h
  · cases h
  · exact (applyChecked_eq_ok.1 h).2

theorem natAbs_lt_of_bitLength {n : Int} (h2 : d ≤ 4300)
    (h : bitLength n ≤ (Limits.ofDigits maxLength d).maxBits) : n.natAbs < 10 ^ d := by
  rw [maxBits_ofDigits maxLength h2, Int.ofNat_le] at h
  have hpos : 10 ^ d ≠ 0 := Nat.pos_iff_ne_zero.1 (Nat.pow_pos (by decide))
  exact Nat.lt_of_lt_of_le (bitLength_le_iff.1 h) (Nat.log2_self_le hpos)

theorem evalStep_natAbs_lt (h1 : 1 ≤ d) (h2 : d ≤ 4300) (hs : ∀ v ∈ stack, v.natAbs < 10 ^ d)
    (h : evalStep (.ofDigits maxLength d) operations stack t = .ok stack') :
    ∀ v ∈ stack', v.natAbs < 10 ^ d := by
  rcases evalStep_eq_ok h with ⟨v, -, hv, rfl⟩ | ⟨l, r, rest, v, -, rfl, hv, rfl⟩
  · rw [parseNumber_eq_capped rfl h1 (Limits.convertible_ofDigits (by exact_mod_cast h2))] at hv
    obtain ⟨x, -, hx⟩ := bind_eq_ok.1 hv
    obtain ⟨rfl, hlt⟩ := Limits.capped_eq_ok.1 hx
    exact List.forall_mem_cons.2 ⟨hlt, hs⟩
  · have hlt := natAbs_lt_of_bitLength h2 (bitLength_of_applyLexeme hv)
    refine List.forall_mem_cons.2 ⟨hlt, fun v hv => hs v ?_⟩
    exact List.mem_cons_of_mem _ (List.mem_cons_of_mem _ hv)

theorem foldlM_evalStep_natAbs_lt {ts : List Token} (h1 : 1 ≤ d) (h2 : d ≤ 4300)
    (h : ts.foldlM (evalStep (.ofDigits maxLength d) operations) [] = .ok stack) :
    ∀ v ∈ stack, v.natAbs < 10 ^ d :=
  foldlM_invariant (fun _ stack => ∀ v ∈ stack, v.natAbs < 10 ^ d) nofun
    (fun _ _ _ _ hs hstep => evalStep_natAbs_lt h1 h2 hs hstep) h

end

/-! ### Values that can be written -/

theorem unwritable_of_parseNumber {limits : Limits} {lexeme : String} {v : Int}
    (h : parseNumber limits lexeme = .ok v) : limits.unwritable v = none := by
  unfold parseNumber at h
  dsimp only at h
  split_ifs at h with hdigits hsize
  obtain ⟨hle, rfl⟩ := convertDigits_eq_ok_iff.1 h
  have hd : ∀ c ∈ lexeme.toList, c.isDigit = true := by simp_all
  have hpos := length_significantDigits_pos lexeme.toList
  have hlt := Nat.not_le.1 (mt (lt_length_significantDigits_iff hd hpos).2 (Nat.lt_irrefl _))
  have hlength := (Nat.length_toDigits_le_iff (by decide) hpos).2 hlt
  rw [ofDigitChars_significantDigits]
  exact Limits.exceeded_eq_none.2 fun most hmost => Nat.le_trans hlength (hle most hmost)

theorem unwritable_of_mem_stack {limits : Limits} {operations : Operations} {ts : List Token}
    {stack : List Int} (hwrites : limits.Writable)
    (h : ts.foldlM (evalStep limits operations) [] = .ok stack) :
    ∀ v ∈ stack, limits.unwritable v = none := by
  refine foldlM_invariant (fun _ stack => ∀ v ∈ stack, limits.unwritable v = none)
    (List.forall_mem_nil _) ?_ h
  intro read stack t stack' hs hstep
  rcases evalStep_eq_ok hstep with ⟨v, -, hv, rfl⟩ | ⟨l, r, rest, v, -, rfl, hv, rfl⟩
  · exact List.forall_mem_cons.2 ⟨unwritable_of_parseNumber hv, hs⟩
  · refine List.forall_mem_cons.2 ⟨hwrites v (bitLength_of_applyLexeme hv), fun v hv => hs v ?_⟩
    exact List.mem_cons_of_mem _ (List.mem_cons_of_mem _ hv)

theorem Limits.writable_ofDigits {maxLength maxDigits : Int} (h : maxDigits ≤ conversionLimit) :
    (Limits.ofDigits maxLength maxDigits).Writable := by
  intro n hbits
  have hlt : n.natAbs < 10 ^ conversionLimit := by
    by_cases hneg : maxDigits < 0
    · have hzero : bitLength n ≤ 0 := by
        have hmost : bitsOfDigits maxDigits ≤ 0 := by
          rw [bitsOfDigits, if_pos hneg]
          omega
        have : (bitLength n : Int) ≤ bitsOfDigits maxDigits := hbits
        omega
      exact Nat.lt_of_lt_of_le (bitLength_le_iff.1 hzero) (Nat.pow_pos (by decide))
    · obtain ⟨d, rfl⟩ := Int.eq_ofNat_of_zero_le (Int.not_lt.1 hneg)
      have hd : d ≤ conversionLimit := by exact_mod_cast h
      exact Nat.lt_of_lt_of_le (natAbs_lt_of_bitLength hd hbits)
        (Nat.pow_le_pow_right (by decide) hd)
  refine Limits.exceeded_eq_none.2 ?_
  rintro most ⟨⟩
  exact (Nat.length_toDigits_le_iff (by decide) (by decide)).2 hlt

theorem mem_of_soleValue {stack : List Int} {v : Int} (h : soleValue stack = .ok v) : v ∈ stack := by
  match stack, h with
  | [_], h => exact List.mem_singleton.2 (Except.ok.inj h).symm

theorem length_filter_decimalChars_le {v : Int} {d : Nat} (h1 : 1 ≤ d) (h : v.natAbs < 10 ^ d) :
    ((decimalChars v).filter Char.isDigit).length ≤ d := by
  have hdigits : ((Nat.toDigits 10 v.natAbs).filter Char.isDigit).length ≤ d :=
    Nat.le_trans (List.length_filter_le _ _) ((Nat.length_toDigits_le_iff (by decide) h1).2 h)
  unfold decimalChars
  split
  · exact hdigits
  · exact hdigits

/-- With a limit of `d` digits no value of more than `d` digits is ever on the stack, after whatever
tokens, and the value of an expression is printed with at most `d` digits. -/
theorem natAbs_lt_of_mem_stack (maxLength : Int) {d : Nat} (h1 : 1 ≤ d) (h2 : d ≤ 4300) :
    (∀ (operations : Operations) (ts read : List Token) (stack : List Int), read <+: ts →
      read.foldlM (evalStep (.ofDigits maxLength d) operations) [] = .ok stack →
        ∀ v ∈ stack, v.natAbs < 10 ^ d) ∧
    ∀ s v, Calculator.evaluateExpression (.ofDigits maxLength d) s = .ok v →
      v.natAbs < 10 ^ d ∧ ((decimalChars v).filter Char.isDigit).length ≤ d := by
  refine ⟨fun _ _ _ _ _ h => foldlM_evalStep_natAbs_lt h1 h2 h, fun s v h => ?_⟩
  obtain ⟨ts, -, h⟩ := bind_eq_ok.1 h
  obtain ⟨ps, -, h⟩ := bind_eq_ok.1 h
  obtain ⟨stack, hrun, hv⟩ := bind_eq_ok.1 h
  have hlt := foldlM_evalStep_natAbs_lt h1 h2 hrun v (mem_of_soleValue hv)
  exact ⟨hlt, length_filter_decimalChars_le h1 hlt⟩

/-- One digit goes with three bits: the largest literal is 9, and the largest result 7. -/
theorem natAbs_lt_of_mem_stack_three_bits :
    Calculator.evaluateExpression (.ofDigits 1000 (1 : Nat)) "9-2" = .ok 7 ∧
      (7 : Int).natAbs < 10 ^ 1 ∧ ((decimalChars 7).filter Char.isDigit).length ≤ 1 := by
  have hlimits : Limits.ofDigits 1000 (1 : Nat) = ⟨1000, 1, 3, some 4300⟩ := by decide +kernel
  have h : Calculator.evaluateExpression (.ofDigits 1000 (1 : Nat)) "9-2" = .ok 7 := by
    have hscan : Scan 0 "9-2".toList
        [⟨.number, 0, ['9']⟩, ⟨.operator, 1, ['-']⟩, ⟨.number, 2, ['2']⟩] :=
      .token (.digit rfl rfl) (.token (.operator .sub nofun)
        (.token (.digit rfl rfl) .done))
    rw [hlimits, Calculator.evaluateExpression, hscan.tokenize_eq (by decide)]
    rfl
  exact ⟨h, (natAbs_lt_of_mem_stack 1000 (by decide) (by decide)).2 _ _ h⟩

end ExprCalc
