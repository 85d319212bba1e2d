import ExprCalc.Log
import ExprCalc.Text.CodeRanges
import Mathlib.Data.List.Basic

/-!
# Names of levels

The name of a level may be given in any letters whose upper case spells it. The name in the settings is
in upper case already and is put into upper case again where it is used; that finds the same level
(`Level.resolve_upperCase`), because no character whose upper case lies among `A` to `Z` is itself an
upper case.
-/

namespace ExprCalc

/-- The characters outside of `A` to `Z` with an upper case in there: small letters, also the sharp s, the
dotless i, the long s, and ligatures. -/
def smallLatin : CodeRanges :=
  [(0x61, 0x7A), (0xDF, 0xDF), (0x131, 0x131), (0x17F, 0x17F), (0xFB00, 0xFB06)]

/-! ### The tables -/

theorem upperRuns_latin : (upperRuns.all fun r =>
    decide (90 < r.first + r.shift ∨ r.last + r.shift < 65) ||
      smallLatin.any fun p => decide (p.1 ≤ r.first ∧ r.last ≤ p.2)) = true := by
  decide +kernel

theorem upperRuns_not_small : (upperRuns.all fun r => smallLatin.all fun p =>
    decide (p.2 < r.first + r.shift ∨ r.last + r.shift < p.1)) = true := by
  decide +kernel

theorem upperSpecial_latin : (upperSpecial.all fun e =>
    (e.2.any fun k => decide (k < 65 ∨ 90 < k)) ||
      smallLatin.any fun p => decide (p.1 ≤ e.1 ∧ e.1 ≤ p.2)) = true := by
  decide +kernel

theorem upperSpecial_not_small : (upperSpecial.all fun e => e.2.all fun k => smallLatin.all fun p =>
    decide (k < p.1 ∨ p.2 < k)) = true := by
  decide +kernel

/-! ### Characters -/

section
variable {n k : Nat}

theorem upperCodes_cases (n : Nat) :
    (∃ r ∈ upperRuns, r.first ≤ n ∧ n ≤ r.last ∧ upperCodes n = [(n + r.shift).toNat]) ∨
    (∃ e ∈ upperSpecial, n = e.1 ∧ upperCodes n = e.2) ∨ upperCodes n = [n] := by
  unfold upperCodes
  cases hr : upperRuns.find? (·.covers n) with
  | some r =>
    have hcovers := List.find?_some hr
    simp only [CaseRun.covers, Bool.and_eq_true, decide_eq_true_eq] at hcovers
    exact .inl ⟨r, List.mem_of_find?_eq_some hr, hcovers.1.1, hcovers.1.2, rfl⟩
  | none =>
    cases he : upperSpecial.lookup n with
    | none => exact .inr (.inr rfl)
    | some codes =>
      obtain ⟨before, after, htable, -⟩ := List.lookup_eq_some_iff.1 he
      refine .inr (.inl ⟨(n, codes), ?_, rfl, rfl⟩)
      rw [htable]
      exact List.mem_append_cons_self

/-- A character whose upper case lies among `A` to `Z` is one of them, or small. -/
theorem latin_or_small (h : ∀ k ∈ upperCodes n, 65 ≤ k ∧ k ≤ 90) :
    upperCodes n = [n] ∨ ∃ p ∈ smallLatin, p.1 ≤ n ∧ n ≤ p.2 := by
  rcases upperCodes_cases n with ⟨r, hr, hfirst, hlast, hn⟩ | ⟨e, he, rfl, hn⟩ | hn
  · have hrun := List.all_eq_true.1 upperRuns_latin r hr
    simp only [Bool.or_eq_true, decide_eq_true_eq, List.any_eq_true] at hrun
    rw [hn, List.forall_mem_singleton] at h
    rcases hrun with hrun | ⟨p, hp, hin⟩
    · omega
    · exact .inr ⟨p, hp, by omega⟩
  · have hspecial := List.all_eq_true.1 upperSpecial_latin e he
    simp only [Bool.or_eq_true, decide_eq_true_eq, List.any_eq_true] at hspecial
    rw [hn] at h
    rcases hspecial with ⟨k, hk, hout⟩ | ⟨p, hp, hin⟩
    · have := h k hk
      omega
    · exact .inr ⟨p, hp, hin⟩
  · exact .inl hn

/-- An upper case is no small character. -/
theorem eq_of_mem_upperCodes (h : k ∈ upperCodes n) :
    k = n ∧ upperCodes n = [n] ∨ ∀ p ∈ smallLatin, k < p.1 ∨ p.2 < k := by
  rcases upperCodes_cases n with ⟨r, hr, hfirst, hlast, hn⟩ | ⟨e, he, rfl, hn⟩ | hn
  · have hrun := List.all_eq_true.1 upperRuns_not_small r hr
    simp only [List.all_eq_true, decide_eq_true_eq] at hrun
    rw [hn, List.mem_singleton] at h
    refine .inr fun p hp => ?_
    have hpos : ∀ p ∈ smallLatin, 0 < p.1 := by simp [smallLatin]
    have := hpos p hp
    have := hrun p hp
    omega
  · have hspecial := List.all_eq_true.1 upperSpecial_not_small e he
    simp only [List.all_eq_true, decide_eq_true_eq] at hspecial
    exact .inr (hspecial k (hn ▸ h))
  · rw [hn, List.mem_singleton] at h
    exact .inl ⟨h, hn⟩

theorem upperCodes_upper (hk : k ∈ upperCodes n) (h : ∀ m ∈ upperCodes k, 65 ≤ m ∧ m ≤ 90) :
    upperCodes k = [k] := by
  rcases latin_or_small h with hself | ⟨p, hp, hin⟩
  · exact hself
  · rcases eq_of_mem_upperCodes hk with ⟨rfl, hself⟩ | hout
    · exact hself
    · have := hout p hp
      omega

end

/-! ### Texts -/

/-- The upper case of a character, as characters. -/
def upperChars (c : Char) : List Char := (upperCodes c.toNat).map Char.ofNat

theorem toList_upperCase (s : String) : (upperCase s).toList = s.toList.flatMap upperChars :=
  String.toList_ofList

theorem toNat_ofNat (n : Nat) : (Char.ofNat n).toNat = n ∨ (Char.ofNat n).toNat = 0 := by
  by_cases h : n.isValidChar
  · have hc : Char.ofNat n = Char.ofNatAux n h := dif_pos h
    exact .inl (hc ▸ rfl)
  · have hc : Char.ofNat n = '\x00' := dif_neg h
    exact .inr (hc ▸ rfl)

theorem upperChars_upper {c d : Char} (hd : d ∈ upperChars c)
    (h : ∀ u ∈ upperChars d, 65 ≤ u.toNat ∧ u.toNat ≤ 90) : upperChars d = [d] := by
  have hcodes : ∀ m ∈ upperCodes d.toNat, 65 ≤ m ∧ m ≤ 90 := by
    intro m hm
    have hu := h (Char.ofNat m) (List.mem_map_of_mem hm)
    rcases toNat_ofNat m with hm | hm
    · rwa [hm] at hu
    · omega
  have hself : upperCodes d.toNat = [d.toNat] := by
    obtain ⟨k, hk, rfl⟩ := List.mem_map.1 hd
    rcases toNat_ofNat k with hk' | hk'
    · rw [hk'] at hcodes ⊢
      exact upperCodes_upper hk hcodes
    · rw [hk']
      rfl
  rw [upperChars, hself, List.map_singleton, Char.ofNat_toNat]

theorem upperCase_of_upper {s t : String} (ht : ∀ u ∈ t.toList, 65 ≤ u.toNat ∧ u.toNat ≤ 90)
    (h : upperCase (upperCase s) = t) : upperCase s = t := by
  have hself : ∀ d ∈ (upperCase s).toList, upperChars d = [d] := by
    intro d hd
    rw [toList_upperCase] at hd
    obtain ⟨c, hc, hd'⟩ := List.mem_flatMap.1 hd
    refine upperChars_upper hd' fun u hu => ht u ?_
    rw [← h, toList_upperCase, toList_upperCase]
    exact List.mem_flatMap.2 ⟨d, hd, hu⟩
  rw [← h, ← String.toList_inj, toList_upperCase (upperCase s), List.flatMap_congr hself,
    List.flatMap_singleton']

namespace Level

theorem upperCase_name (l : Level) : upperCase l.name = l.name := by
  cases l <;> decide +kernel

theorem toNat_of_mem_name (l : Level) : ∀ u ∈ l.name.toList, 65 ≤ u.toNat ∧ u.toNat ≤ 90 := by
  cases l <;> simp [name]

theorem upperCase_upperCase_eq_name {s : String} {l : Level} :
    upperCase (upperCase s) = l.name ↔ upperCase s = l.name :=
  ⟨upperCase_of_upper l.toNat_of_mem_name, fun h => by rw [h, upperCase_name]⟩

/-- `l` has the name `text` in upper case, or there is no such level and `l` is the one of warnings. -/
def Named (text : String) (l : Level) : Prop :=
  l.name = upperCase text ∨ (∀ m : Level, m.name ≠ upperCase text) ∧ l = .warning

theorem ofName?_eq_some_iff {s : String} {l : Level} : ofName? s = some l ↔ l.name = s := by
  constructor
  · intro h
    have hname := List.find?_some h
    exact eq_of_beq hname
  · rintro rfl
    exact ofName?_name l

theorem named_resolve (text : String) : Named text (resolve text) := by
  unfold resolve
  cases h : ofName? (upperCase text) with
  | some l => exact .inl (ofName?_eq_some_iff.1 h)
  | none =>
    refine .inr ⟨fun m hm => ?_, rfl⟩
    cases h.symm.trans (ofName?_eq_some_iff.2 hm)

theorem Named.eq_of_name {text : String} {l m : Level} (h : Named text l)
    (hm : m.name = upperCase text) : l = m := by
  rcases h with h | ⟨h, -⟩
  · have hl := ofName?_eq_some_iff.2 h
    exact Option.some.inj (hl.symm.trans (ofName?_eq_some_iff.2 hm))
  · exact absurd hm (h m)

theorem named_upperCase_iff {text : String} {l : Level} :
    Named (upperCase text) l ↔ Named text l := by
  have hname (m : Level) : m.name = upperCase (upperCase text) ↔ m.name = upperCase text := by
    rw [eq_comm, upperCase_upperCase_eq_name, eq_comm]
  simp only [Named, ne_eq, hname]

end Level

end ExprCalc
