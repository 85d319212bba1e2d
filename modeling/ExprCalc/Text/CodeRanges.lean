/-!
# Sets of code points

A set of characters as a list of ranges `(first, last)` in increasing order.
-/

namespace ExprCalc

/-- Ranges of code points, both ends included, in increasing order. -/
abbrev CodeRanges := List (Nat × Nat)

namespace CodeRanges

/-- Does one of the ranges hold `c`? The first range that begins beyond `c` ends the search. -/
def contains : CodeRanges → Char → Bool
  | [], _ => false
  | (first, last) :: rest, c => first ≤ c.toNat && (c.toNat ≤ last || contains rest c)

/-- The ranges are in order and do not overlap. -/
def increasing : CodeRanges → Bool
  | [] => true
  | [(first, last)] => first ≤ last
  | (first, last) :: (first', last') :: rest =>
    first ≤ last && last < first' && increasing ((first', last') :: rest)

theorem head_le_of_mem {first last : Nat} {rest : CodeRanges}
    (h : increasing ((first, last) :: rest) = true) {p : Nat × Nat} (hp : p ∈ rest) :
    first ≤ p.1 := by
  induction rest generalizing first last with
  | nil => cases hp
  | cons q rest ih =>
    obtain ⟨first', last'⟩ := q
    simp only [increasing, Bool.and_eq_true, decide_eq_true_eq] at h
    rcases List.mem_cons.1 hp with rfl | hp
    · show first ≤ first'
      omega
    · exact Nat.le_trans (by omega) (ih h.2 hp)

theorem increasing_tail {q : Nat × Nat} {rest : CodeRanges}
    (h : increasing (q :: rest) = true) : increasing rest = true := by
  cases rest with
  | nil => rfl
  | cons q' rest =>
    simp only [increasing, Bool.and_eq_true] at h
    exact h.2

/-- Ending the search early loses nothing. -/
theorem contains_iff {r : CodeRanges} (h : increasing r = true) (c : Char) :
    contains r c = true ↔ ∃ p ∈ r, p.1 ≤ c.toNat ∧ c.toNat ≤ p.2 := by
  induction r with
  | nil => simp [contains]
  | cons q rest ih =>
    obtain ⟨first, last⟩ := q
    have hrest := ih (increasing_tail h)
    simp only [contains, Bool.and_eq_true, Bool.or_eq_true, decide_eq_true_eq, hrest,
      List.mem_cons]
    constructor
    · rintro ⟨hfirst, hlast | ⟨p, hp, hb⟩⟩
      · exact ⟨(first, last), .inl rfl, hfirst, hlast⟩
      · exact ⟨p, .inr hp, hb⟩
    · rintro ⟨p, rfl | hp, hb⟩
      · exact ⟨hb.1, .inl hb.2⟩
      · exact ⟨Nat.le_trans (head_le_of_mem h hp) hb.1, .inr ⟨p, hp, hb⟩⟩

end CodeRanges

end ExprCalc
