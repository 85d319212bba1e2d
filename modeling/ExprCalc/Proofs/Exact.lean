import ExprCalc.Proofs.Tree
import Mathlib.Algebra.Order.Ring.Int
import Mathlib.Tactic.NormNum

/-!
# Exact values

The value of a tree without any limits: digits of any number, powers and products of any size.
Limits only ever refuse a value (`Limits.Refuses`): within them a literal or a result is its exact value
or too large, and a literal that is not too large may still have more digits than can be converted
(`parseNumber_cases`, `applyLexeme_cases`). So a tree is worth what it is worth exactly, or it is refused
(`Tree.value_unlessRefused`).
-/

namespace ExprCalc

def exactNumber (lexeme : String) : Except Fault Int :=
  let cs := lexeme.toList
  if cs.isEmpty || !cs.all Char.isDigit then .error (.invalidNumber lexeme)
  else .ok (Nat.ofDigitChars 10 cs 0)

/-- `base ^ exponent` of any size; with a negative exponent one over the power with the opposite
exponent, cut off toward zero. -/
def exactPower (base exponent : Int) : Except Fault Int :=
  if 0 ≤ exponent then .ok (base ^ exponent.toNat)
  else if base = 0 then .error .zeroToNegativePower
  else .ok (Int.tdiv 1 (base ^ exponent.natAbs))

namespace Operator

def exact : Operator → Int → Int → Except Fault Int
  | pow, l, r => exactPower l r
  | mul, l, r => .ok (l * r)
  | div, l, r => quotient l r
  | add, l, r => .ok (l + r)
  | sub, l, r => .ok (l - r)

theorem lexeme_of_ofLexeme? {s : String} {op : Operator} (h : ofLexeme? s = some op) :
    s = op.lexeme := by
  have := List.find?_some h
  exact (eq_of_beq this).symm

end Operator

/-- What the operator of a lexeme makes of two values of any size. -/
def exactLexeme (lexeme : String) (left right : Int) : Except Fault Int :=
  match Operator.ofLexeme? lexeme with
  | none => .error (.unknownOperator lexeme)
  | some op => op.exact left right

theorem exactLexeme_eq {s : String} {o : Operator} (h : Operator.ofLexeme? s = some o) :
    exactLexeme s = o.exact := by
  funext x y
  rw [exactLexeme, h]

def Tree.exactValue : Tree → Except Fault Int := evalWith exactNumber exactLexeme

/-- The faults with which limits refuse a number that is worked with. -/
inductive Limits.Refuses (limits : Limits) : Fault → Prop
  /-- it is beyond the limit on digits, or that on bits -/
  | size : limits.Refuses (.resultTooLarge limits.maxDigits)
  /-- it is not, but its digits are too many to be converted -/
  | conversion {most count : Nat} : limits.maxConverted = some most → most < count →
      count ≤ limits.maxDigits → limits.Refuses (.unconvertible most count)

/-- Where every literal can be converted, size is all that counts. -/
theorem Limits.Refuses.eq_resultTooLarge {limits : Limits} {f : Fault} (h : limits.Refuses f)
    (hconv : limits.Convertible) : f = .resultTooLarge limits.maxDigits := by
  cases h with
  | size => rfl
  | conversion hmost hlt hle =>
    have := hconv _ hmost
    omega

/-- `x` comes out as `y` does, or it is refused under `limits`. -/
def UnlessRefused {α : Type} (limits : Limits) (x y : Except Fault α) : Prop :=
  x = y ∨ ∃ f, limits.Refuses f ∧ x = .error f

namespace UnlessRefused
variable {α β σ : Type} {limits : Limits} {x y : Except Fault α}

theorem bind {g h : α → Except Fault β} (hx : UnlessRefused limits x y)
    (hg : ∀ a, UnlessRefused limits (g a) (h a)) : UnlessRefused limits (x >>= g) (y >>= h) := by
  rcases hx with rfl | ⟨f, hf, rfl⟩
  · cases x with
    | error e => exact .inl rfl
    | ok a => exact hg a
  · exact .inr ⟨f, hf, rfl⟩

theorem map (g : α → β) (hx : UnlessRefused limits x y) :
    UnlessRefused limits (g <$> x) (g <$> y) := by
  rcases hx with rfl | ⟨f, hf, rfl⟩
  · exact .inl rfl
  · exact .inr ⟨f, hf, rfl⟩

/-- What is not refused is the same. -/
theorem eq_ok {a : α} (h : UnlessRefused limits x y) (hx : x = .ok a) : y = .ok a := by
  rcases h with h | ⟨f, -, h⟩
  · rw [← h, hx]
  · cases h.symm.trans hx

theorem foldlM {step step' : σ → α → Except Fault σ}
    (h : ∀ s a, UnlessRefused limits (step s a) (step' s a)) (as : List α) (s : σ) :
    UnlessRefused limits (as.foldlM step s) (as.foldlM step' s) := by
  induction as generalizing s with
  | nil => exact .inl rfl
  | cons a as ih =>
    rw [List.foldlM_cons, List.foldlM_cons]
    exact (h s a).bind ih

end UnlessRefused

/-! ### Limits only refuse -/

theorem ofDigitChars_significantDigits (cs : List Char) :
    Nat.ofDigitChars 10 (significantDigits cs) 0 = Nat.ofDigitChars 10 cs 0 := by
  have hdrop : Nat.ofDigitChars 10 (cs.dropWhile (· == '0')) 0 = Nat.ofDigitChars 10 cs 0 := by
    induction cs with
    | nil => rfl
    | cons c cs ih =>
      rw [List.dropWhile_cons]
      split
      · next hc =>
        rw [ih, eq_of_beq hc]
        rfl
      · rfl
  unfold significantDigits
  split
  · next h =>
    rw [h] at hdrop
    exact hdrop
  · exact hdrop

/-- Digits are converted, or there are too many of them. -/
theorem convertDigits_cases (limits : Limits) (ds : List Char) :
    (∀ most ∈ limits.maxConverted, ds.length ≤ most) ∧
        convertDigits limits ds = .ok (Nat.ofDigitChars 10 ds 0) ∨
      ∃ most, limits.maxConverted = some most ∧ most < ds.length ∧
        convertDigits limits ds = .error (.unconvertible most ds.length) := by
  by_cases h : ∀ most ∈ limits.maxConverted, ds.length ≤ most
  · exact .inl ⟨h, convertDigits_of_le h⟩
  · simp only [Option.mem_def, not_forall, Nat.not_le] at h
    obtain ⟨most, hmost, hlt⟩ := h
    exact .inr ⟨most, hmost, hlt, convertDigits_of_lt hmost hlt⟩

theorem convertDigits_eq_ok_iff {limits : Limits} {ds : List Char} {v : Int} :
    convertDigits limits ds = .ok v ↔
      (∀ most ∈ limits.maxConverted, ds.length ≤ most) ∧ v = Nat.ofDigitChars 10 ds 0 := by
  rcases convertDigits_cases limits ds with ⟨hle, h⟩ | ⟨most, hmost, hlt, h⟩
  · rw [h, Except.ok.injEq, eq_comm, and_iff_right hle]
  · rw [h]
    exact iff_of_false nofun fun hok => Nat.not_le.2 hlt (hok.1 most hmost)

/-- A literal is its exact value, or it has more digits than the limit allows, or it has not but has more
than are converted. -/
theorem parseNumber_cases (limits : Limits) (lexeme : String) :
    parseNumber limits lexeme = exactNumber lexeme ∨
      ∃ count, (significantDigits lexeme.toList).length = count ∧
        (parseNumber limits lexeme = .error (.resultTooLarge limits.maxDigits) ∧
            limits.maxDigits < count ∨
          ∃ most, parseNumber limits lexeme = .error (.unconvertible most count) ∧
            limits.maxConverted = some most ∧ most < count ∧ count ≤ limits.maxDigits) := by
  simp only [parseNumber, exactNumber]
  split
  · exact .inl rfl
  by_cases hsize : limits.maxDigits < (significantDigits lexeme.toList).length
  · exact .inr ⟨_, rfl, .inl ⟨if_pos hsize, hsize⟩⟩
  rw [if_neg hsize, ← ofDigitChars_significantDigits lexeme.toList]
  rcases convertDigits_cases limits (significantDigits lexeme.toList) with
    ⟨-, hconv⟩ | ⟨most, hmost, hlt, hconv⟩
  · exact .inl hconv
  · exact .inr ⟨_, rfl, .inr ⟨most, hconv, hmost, hlt, Int.not_lt.1 hsize⟩⟩

/-- Of a run of digits only their number is looked at before it is converted. -/
theorem parseNumber_of_digits (limits : Limits) {lexeme : String} (hne : lexeme.toList ≠ [])
    (hd : ∀ c ∈ lexeme.toList, c.isDigit = true) : parseNumber limits lexeme =
      if limits.maxDigits < (significantDigits lexeme.toList).length then
        .error (.resultTooLarge limits.maxDigits)
      else convertDigits limits (significantDigits lexeme.toList) := by
  have hdigits : ¬ (lexeme.toList.isEmpty || !lexeme.toList.all Char.isDigit) = true := by
    simpa [hne] using hd
  exact if_neg hdigits

/-- One over a power is no integer but for the bases 1 and -1, where the parity of the exponent
decides. -/
theorem tdiv_one_pow {base : Int} (hb : base ≠ 0) {n : Nat} (hn : n ≠ 0) :
    Int.tdiv 1 (base ^ n) = if 1 < base.natAbs then 0 else if n % 2 = 0 then 1 else base := by
  split
  · next h =>
    have hpow : 1 < (base ^ n).natAbs := by
      rw [Int.natAbs_pow]
      exact Nat.one_lt_pow hn h
    rw [← Int.natAbs_eq_zero, Int.natAbs_tdiv, Int.natAbs_one]
    exact Nat.div_eq_of_lt hpow
  · next h =>
    have hu : base = 1 ∨ base = -1 := by omega
    rcases hu with rfl | rfl
    · simp
    · rw [show (-1 : Int) ^ n = _ from neg_one_pow_eq n]
      split <;> rfl

theorem power_of_neg {limits : Limits} {base exponent : Int} (h : exponent < 0) :
    power limits base exponent = exactPower base exponent := by
  rw [power, if_pos h, exactPower, if_neg (Int.not_le.2 h)]
  by_cases hb : base = 0
  · rw [if_pos hb, if_pos hb]
  · have hparity : exponent.natAbs % 2 = 0 ↔ exponent % 2 = 0 := by omega
    rw [if_neg hb, if_neg hb, tdiv_one_pow hb (by omega)]
    simp only [hparity]
    split <;> rfl

theorem two_pow_le_natAbs {x : Int} (hx : x ≠ 0) : 2 ^ (bitLength x - 1) ≤ x.natAbs := by
  rw [bitLength, if_neg hx, Nat.add_sub_cancel]
  exact Nat.log2_self_le (Int.natAbs_ne_zero.2 hx)

/-- A power is refused before it is computed if it would be refused after that. -/
theorem power_cases (limits : Limits) (base exponent : Int) :
    power limits base exponent = exactPower base exponent ∨
      power limits base exponent = .error (.resultTooLarge limits.maxDigits) ∧
        ∃ x, exactPower base exponent = .ok x ∧ limits.maxBits < bitLength x := by
  by_cases hneg : exponent < 0
  · exact .inl (power_of_neg hneg)
  rw [exactPower, if_pos (Int.not_lt.1 hneg), power, if_neg hneg]
  split
  · next hunit =>
    rw [unitPower_eq_pow hunit]
    exact .inl rfl
  split
  · next hbase hbits =>
    refine .inr ⟨rfl, _, rfl, ?_⟩
    obtain ⟨e, rfl⟩ := Int.eq_ofNat_of_zero_le (Int.not_lt.1 hneg)
    have hle : 2 ^ ((bitLength base - 1) * e) ≤ (base ^ e).natAbs := by
      rw [Int.natAbs_pow, Nat.pow_mul]
      exact Nat.pow_le_pow_left (two_pow_le_natAbs (by omega)) e
    have hlt : (bitLength base - 1) * e < bitLength (base ^ e) :=
      Nat.lt_of_not_le fun h => Nat.not_le.2 (bitLength_le_iff.1 h) hle
    rw [Int.toNat_natCast]
    exact Int.lt_of_le_of_lt hbits (by exact_mod_cast hlt)
  · exact .inl rfl

theorem Operator.apply_cases (limits : Limits) (op : Operator) (l r : Int) :
    op.apply limits l r = op.exact l r ∨
      op.apply limits l r = .error (.resultTooLarge limits.maxDigits) ∧
        ∃ x, op.exact l r = .ok x ∧ limits.maxBits < bitLength x := by
  cases op with
  | pow => exact power_cases limits l r
  | mul | div | add | sub => exact .inl rfl

/-- That a power may be refused before it is computed makes no difference to a result. -/
theorem applyChecked_eq_exact (limits : Limits) (op : Operator) (l r : Int) :
    applyChecked limits (op.apply limits) l r = applyChecked limits op.exact l r := by
  unfold applyChecked
  rcases op.apply_cases limits l r with h | ⟨h, x, hx, hsize⟩
  · rw [h]
  · rw [h, hx]
    exact (if_pos hsize).symm

theorem applyChecked_eq_ok {limits : Limits} {f : Int → Int → Except Fault Int} {l r x : Int} :
    applyChecked limits f l r = .ok x ↔ f l r = .ok x ∧ (bitLength x : Int) ≤ limits.maxBits := by
  unfold applyChecked
  rw [bind_eq_ok]
  constructor
  · rintro ⟨y, hy, h⟩
    split_ifs at h with hsize
    cases h
    exact ⟨hy, Int.not_lt.1 hsize⟩
  · rintro ⟨hx, hsize⟩
    exact ⟨x, hx, if_neg (Int.not_lt.2 hsize)⟩

theorem applyLexeme_cases (limits : Limits) (lexeme : String) (l r : Int) :
    applyLexeme limits (.arithmetic limits) lexeme l r = exactLexeme lexeme l r ∨
      applyLexeme limits (.arithmetic limits) lexeme l r =
          .error (.resultTooLarge limits.maxDigits) ∧
        ∃ x, exactLexeme lexeme l r = .ok x ∧ limits.maxBits < bitLength x := by
  cases ho : Operator.ofLexeme? lexeme with
  | none =>
    simp only [applyLexeme, exactLexeme, Operations.arithmetic, ho]
    exact .inl rfl
  | some op =>
    simp only [applyLexeme, Operations.arithmetic, ho, Option.map_some, exactLexeme_eq ho,
      applyChecked_eq_exact]
    unfold applyChecked
    cases op.exact l r with
    | error f => exact .inl rfl
    | ok x =>
      by_cases hsize : limits.maxBits < bitLength x
      · exact .inr ⟨if_pos hsize, x, rfl, hsize⟩
      · exact .inl (if_neg hsize)

theorem parseNumber_unlessRefused (limits : Limits) (lexeme : String) :
    UnlessRefused limits (parseNumber limits lexeme) (exactNumber lexeme) := by
  refine (parseNumber_cases limits lexeme).imp_right ?_
  rintro ⟨count, -, ⟨h, -⟩ | ⟨most, h, hmost, hlt, hle⟩⟩
  · exact ⟨_, .size, h⟩
  · exact ⟨_, .conversion hmost hlt hle, h⟩

theorem applyLexeme_unlessRefused (limits : Limits) (lexeme : String) (l r : Int) :
    UnlessRefused limits (applyLexeme limits (.arithmetic limits) lexeme l r)
      (exactLexeme lexeme l r) :=
  (applyLexeme_cases limits lexeme l r).imp_right fun h => ⟨_, .size, h.1⟩

theorem Tree.value_unlessRefused (limits : Limits) (e : Tree) :
    UnlessRefused limits (e.value limits (.arithmetic limits)) e.exactValue := by
  induction e with
  | leaf t _ => exact parseNumber_unlessRefused limits t.lexeme
  | node op _ l r ihl ihr =>
    exact ihl.bind fun x => ihr.bind fun y => applyLexeme_unlessRefused limits op.lexeme x y

/-- What a tree is worth within limits it is worth exactly. -/
theorem Tree.exactValue_of_value {limits : Limits} {e : Tree} {v : Int}
    (h : e.value limits (.arithmetic limits) = .ok v) : e.exactValue = .ok v :=
  (e.value_unlessRefused limits).eq_ok h

end ExprCalc
