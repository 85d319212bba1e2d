import ExprCalc.Proofs.Magnitude

/-!
# What comes up in an operator

The operators again, with every integer that comes up in them kept (`Operator.worked`); what they come
to is the same (`Operator.outcome_worked`). On operands of at most `d` digits none of these integers has
more than `2 * d` digits (`Operator.within_worked`). For a power of a base of `b ≥ 2` bits that is so
because it is computed only if `(b - 1) * e` is below the limit on bits: then `b * e` is below twice the
limit.
-/

namespace ExprCalc

/-- A computation with the integers that come up in it. -/
structure Worked (α : Type) where
  outcome : Except Fault α
  integers : List Int

namespace Worked

protected def bind {α β : Type} (x : Worked α) (f : α → Worked β) : Worked β :=
  match x.outcome with
  | .error e => ⟨.error e, x.integers⟩
  | .ok a => ⟨(f a).outcome, x.integers ++ (f a).integers⟩

instance : Monad Worked where
  pure a := ⟨.ok a, []⟩
  bind := Worked.bind

def compute (n : Int) : Worked Int := ⟨.ok n, [n]⟩

def fail (f : Fault) : Worked Int := ⟨.error f, []⟩

def power (limits : Limits) (base exponent : Int) : Worked Int :=
  if exponent < 0 then
    if base = 0 then fail .zeroToNegativePower
    else do
      let magnitude ← compute base.natAbs
      if 1 < magnitude then compute 0
      else do
        let parity ← compute (exponent % 2)
        compute (if parity = 0 then 1 else base)
  else do
    let magnitude ← compute base.natAbs
    if magnitude ≤ 1 then compute (base ^ exponent.toNat)
    else do
      let bits ← compute (bitLength base)
      let fewer ← compute (bits - 1)
      let size ← compute (fewer * exponent)
      if limits.maxBits ≤ size then fail (.resultTooLarge limits.maxDigits)
      else compute (base ^ exponent.toNat)

/-- Division by way of the magnitudes. -/
def quotient (dividend divisor : Int) : Worked Int :=
  if divisor = 0 then fail .divisionByZero
  else do
    let a ← compute dividend.natAbs
    let b ← compute divisor.natAbs
    let q ← compute (a / b)
    if dividend < 0 ↔ divisor < 0 then compute q else compute (-q)

end Worked

/-- An operator with the integers that come up in it, its result included. -/
def Operator.worked (limits : Limits) : Operator → Int → Int → Worked Int
  | pow, l, r => .power limits l r
  | mul, l, r => .compute (l * r)
  | div, l, r => .quotient l r
  | add, l, r => .compute (l + r)
  | sub, l, r => .compute (l - r)

/-! ### The outcome is the same -/

theorem tdiv_eq_natAbs_div (m n : Int) : m.tdiv n =
    if m < 0 ↔ n < 0 then (m.natAbs : Int) / n.natAbs else -((m.natAbs : Int) / n.natAbs) := by
  have hsize : (m.natAbs : Int) / n.natAbs = (m.tdiv n).natAbs := by
    rw [Int.natAbs_tdiv]
    rfl
  rw [hsize]
  rcases Int.lt_or_le m 0 with hm | hm <;> rcases Int.lt_or_le n 0 with hn | hn
  · have := Int.tdiv_nonneg_of_nonpos_of_nonpos hm.le hn.le
    rw [if_pos (iff_of_true hm hn)]
    omega
  · have := Int.tdiv_nonneg (Int.neg_nonneg_of_nonpos hm.le) hn
    rw [Int.neg_tdiv] at this
    rw [if_neg (by omega)]
    omega
  · have := Int.tdiv_nonpos_of_nonneg_of_nonpos hm hn.le
    rw [if_neg (by omega)]
    omega
  · have := Int.tdiv_nonneg hm hn
    rw [if_pos (iff_of_false hm.not_gt hn.not_gt)]
    omega

theorem one_lt_bitLength {n : Int} (h : 1 < n.natAbs) : 1 < bitLength n := by
  rw [← Nat.not_le, bitLength_le_iff]
  exact Nat.not_lt.2 h

namespace Worked

theorem outcome_compute_bind (n : Int) (f : Int → Worked Int) :
    (compute n >>= f).outcome = (f n).outcome := rfl

theorem outcome_quotient (dividend divisor : Int) :
    (quotient dividend divisor).outcome = ExprCalc.quotient dividend divisor := by
  unfold quotient ExprCalc.quotient
  rw [tdiv_eq_natAbs_div]
  split
  · rfl
  · split <;> rfl

theorem outcome_power (limits : Limits) (base exponent : Int) :
    (power limits base exponent).outcome = ExprCalc.power limits base exponent := by
  unfold power ExprCalc.power
  split
  · split
    · rfl
    · simp only [outcome_compute_bind, apply_ite outcome, Nat.one_lt_cast]
      rfl
  · simp only [outcome_compute_bind, apply_ite outcome, Nat.cast_le_one]
    split
    · next hunit =>
      rw [unitPower_eq_pow hunit]
      rfl
    · next hbase =>
      have hbits : ((bitLength base - 1 : Nat) : Int) = bitLength base - 1 := by
        have := one_lt_bitLength (Nat.lt_of_not_le hbase)
        omega
      rw [hbits]
      rfl

end Worked

theorem Operator.outcome_worked (limits : Limits) (op : Operator) (l r : Int) :
    (op.worked limits l r).outcome = op.apply limits l r := by
  cases op with
  | pow => exact Worked.outcome_power limits l r
  | div => exact Worked.outcome_quotient l r
  | mul | add | sub => rfl

/-! ### How large the integers get -/

namespace Worked

/-- Every integer that comes up has a magnitude below `bound`, and so does the outcome. -/
structure Within (bound : Nat) (x : Worked Int) : Prop where
  integers : ∀ n ∈ x.integers, n.natAbs < bound
  outcome : ∀ v, x.outcome = .ok v → v.natAbs < bound

section
variable {bound : Nat} {n : Int}

theorem within_fail (bound : Nat) (f : Fault) : Within bound (fail f) := ⟨nofun, nofun⟩

theorem within_compute (h : n.natAbs < bound) : Within bound (compute n) := by
  refine ⟨List.forall_mem_singleton.2 h, fun v hv => ?_⟩
  cases hv
  exact h

theorem within_compute_bind {f : Int → Worked Int} (h : n.natAbs < bound) (hf : Within bound (f n)) :
    Within bound (compute n >>= f) :=
  ⟨List.forall_mem_cons.2 ⟨h, hf.integers⟩, hf.outcome⟩

end

section
variable {limits : Limits} {l r : Int} {b top : Nat}

/-- A base of two bits or more has at most twice as many bits as one bit fewer. -/
theorem natAbs_pow_lt {base : Int} {e : Nat} (hbase : 1 < base.natAbs)
    (h : (bitLength base - 1) * e < b) : (base ^ e).natAbs < 2 ^ b * 2 ^ b := by
  have hbits := one_lt_bitLength hbase
  have hlt : base.natAbs < 2 ^ bitLength base := bitLength_le_iff.1 (Nat.le_refl _)
  rw [Int.natAbs_pow, ← Nat.pow_add]
  calc base.natAbs ^ e ≤ (2 ^ bitLength base) ^ e := Nat.pow_le_pow_left hlt.le e
    _ = 2 ^ (bitLength base * e) := (Nat.pow_mul 2 _ e).symm
    _ ≤ 2 ^ (2 * (bitLength base - 1) * e) :=
      Nat.pow_le_pow_right Nat.two_pos (Nat.mul_le_mul_right e (by omega))
    _ < 2 ^ (b + b) := Nat.pow_lt_pow_right Nat.one_lt_two (by rw [Nat.mul_assoc]; omega)

theorem within_power (hb : limits.maxBits = b) (hlow : 2 ^ b ≤ top) (hhigh : top < 2 ^ (b + 1))
    (htop : 2 ≤ top) (hl : l.natAbs < top) (hr : r.natAbs < top) :
    Within (top * top) (power limits l r) := by
  have hle : top < top * top := Nat.lt_mul_self_iff.2 htop
  have hbase : (l.natAbs : Int).natAbs < top * top := hl.trans hle
  unfold power
  by_cases hneg : r < 0
  · rw [if_pos hneg]
    split
    · exact within_fail _ _
    refine within_compute_bind hbase ?_
    split
    · exact within_compute (by omega)
    refine within_compute_bind (by omega) (within_compute ?_)
    split <;> omega
  rw [if_neg hneg]
  refine within_compute_bind hbase ?_
  obtain ⟨e, rfl⟩ := Int.eq_ofNat_of_zero_le (Int.not_lt.1 hneg)
  rw [Int.toNat_natCast]
  split
  · next hunit =>
    have hpow : (l ^ e).natAbs ≤ 1 ^ e := by
      rw [Int.natAbs_pow]
      exact Nat.pow_le_pow_left (by omega) e
    rw [Nat.one_pow] at hpow
    exact within_compute (by omega)
  · next hlarge =>
    have hone : 1 < l.natAbs := by omega
    have hbits : bitLength l ≤ b + 1 := bitLength_le_iff.2 (hl.trans hhigh)
    have hpos := one_lt_bitLength hone
    have hb' : b < 2 ^ b := Nat.lt_two_pow_self
    have hfewer : ((bitLength l : Int) - 1).natAbs < top := by omega
    have hsize : (((bitLength l : Int) - 1) * e).natAbs < top * top := by
      rw [Int.natAbs_mul]
      exact Nat.mul_lt_mul'' hfewer hr
    refine within_compute_bind (by omega) (within_compute_bind (hfewer.trans hle)
      (within_compute_bind hsize ?_))
    split
    · exact within_fail _ _
    · next hfits =>
      have hlt : (bitLength l - 1) * e < b := by
        rw [hb, Int.not_le, ← Nat.cast_pred (Nat.zero_lt_of_lt hpos)] at hfits
        exact_mod_cast hfits
      exact within_compute ((natAbs_pow_lt hone hlt).trans_le (Nat.mul_le_mul hlow hlow))

theorem within_quotient (htop : 2 ≤ top) (hl : l.natAbs < top) (hr : r.natAbs < top) :
    Within (top * top) (quotient l r) := by
  have hle : top < top * top := Nat.lt_mul_self_iff.2 htop
  have hq : ((l.natAbs : Int) / r.natAbs).natAbs < top * top := by
    rw [← Int.natCast_ediv, Int.natAbs_natCast]
    exact (Nat.div_le_self _ _).trans_lt (hl.trans hle)
  unfold quotient
  split
  · exact within_fail _ _
  refine within_compute_bind (by omega) (within_compute_bind (by omega) (within_compute_bind hq ?_))
  split
  · exact within_compute hq
  · exact within_compute (by rwa [Int.natAbs_neg])

end

end Worked

theorem Operator.within_worked {limits : Limits} {l r : Int} {b top : Nat} (hb : limits.maxBits = b)
    (hlow : 2 ^ b ≤ top) (hhigh : top < 2 ^ (b + 1)) (htop : 2 ≤ top) (hl : l.natAbs < top)
    (hr : r.natAbs < top) (op : Operator) : (op.worked limits l r).Within (top * top) := by
  have hdouble : top + top ≤ top * top := by
    rw [← Nat.two_mul]
    exact Nat.mul_le_mul_right top htop
  cases op with
  | pow => exact Worked.within_power hb hlow hhigh htop hl hr
  | div => exact Worked.within_quotient htop hl hr
  | mul =>
    refine Worked.within_compute ?_
    rw [Int.natAbs_mul]
    exact Nat.mul_lt_mul'' hl hr
  | add | sub => exact Worked.within_compute (by omega)

/-- With a limit of `d` digits no integer of more than `2 * d` digits comes up in any step that the
evaluation of any tokens makes with an operator, be it its result, a result that is refused after it has
been computed, or an integer on the way there. -/
theorem natAbs_lt_of_mem_integers (maxLength : Int) {d : Nat} (h1 : 1 ≤ d) (h2 : d ≤ 4300)
    (op : Operator) {read : List Token} {t : Token} {l r : Int} {rest : List Int}
    (hk : t.kind = .operator) (ho : Operator.ofLexeme? t.lexeme = some op) :
    let limits := Limits.ofDigits maxLength d
    read.foldlM (evalStep limits (.arithmetic limits)) [] = .ok (r :: l :: rest) →
      evalStep limits (.arithmetic limits) (r :: l :: rest) t =
        (· :: rest) <$> applyChecked limits (fun l r => (op.worked limits l r).outcome) l r ∧
      (∀ x ∈ (op.worked limits l r).integers, x.natAbs < 10 ^ (2 * d)) ∧
      ∀ v, (op.worked limits l r).outcome = .ok v → v.natAbs < 10 ^ (2 * d) := by
  intro limits hrun
  have hstack := foldlM_evalStep_natAbs_lt h1 h2 hrun
  have hr : r.natAbs < 10 ^ d := hstack r List.mem_cons_self
  have hl : l.natAbs < 10 ^ d := hstack l (List.mem_cons_of_mem _ List.mem_cons_self)
  have hten : 10 ^ 1 ≤ 10 ^ d := Nat.pow_le_pow_right (by decide) h1
  have hwithin : (op.worked limits l r).Within (10 ^ d * 10 ^ d) :=
    op.within_worked (maxBits_ofDigits maxLength h2) (Nat.log2_self_le (by omega)) Nat.lt_log2_self
      (by omega) hl hr
  rw [Nat.two_mul, Nat.pow_add]
  refine ⟨?_, hwithin.integers, hwithin.outcome⟩
  simp only [evalStep_operator hk, applyLexeme, Operations.arithmetic, ho, Option.map_some,
    Operator.outcome_worked]

/-- With a limit of one digit a result has three bits at most. Three squared is computed, and refused for
its four bits after that. -/
theorem natAbs_lt_of_mem_integers_one_digit :
    let limits := Limits.ofDigits 1000 (1 : Nat)
    let num (s : String) : Token := ⟨.number, s, none⟩
    let power : Token := ⟨.operator, "**", none⟩
    [num "3", num "2"].foldlM (evalStep limits (.arithmetic limits)) [] = .ok [2, 3] ∧
      evalStep limits (.arithmetic limits) [2, 3] power = .error (.resultTooLarge 1) ∧
      (Operator.pow.worked limits 3 2).integers = [3, 2, 1, 2, 9] ∧
      ∀ x ∈ (Operator.pow.worked limits 3 2).integers, x.natAbs < 10 ^ (2 * 1) := by
  intro limits num power
  have hlimits : limits = ⟨1000, 1, 3, some 4300⟩ := by decide +kernel
  have hrun : [num "3", num "2"].foldlM (evalStep limits (.arithmetic limits)) [] = .ok [2, 3] := by
    rw [hlimits]
    decide +kernel
  have hk : power.kind = .operator := rfl
  obtain ⟨hstep, hintegers, -⟩ := natAbs_lt_of_mem_integers 1000 (d := 1) (by decide) (by decide)
    .pow hk rfl hrun
  refine ⟨hrun, hstep.trans ?_, ?_, hintegers⟩
  · rw [show Limits.ofDigits 1000 (1 : Nat) = _ from hlimits]
    rfl
  · rw [hlimits]
    decide +kernel

end ExprCalc
