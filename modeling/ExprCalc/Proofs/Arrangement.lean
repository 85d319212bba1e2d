import ExprCalc.Proofs.OutputOrder
import ExprCalc.Proofs.Places
import Mathlib.Data.List.Nodup

/-!
# The output as an arrangement of the input

The postfix form lists the numbers and operators of a text, each once, and `Arrangement` says in which
order. It speaks of the places in the text, since the tokens at two places may be equal.

The conversion does not look at positions (`toPostfix_of_map`). So it may as well be given the text
with every token marked by its place, where no two tokens are equal; the places are then read off its
output.
-/

namespace ExprCalc

/-- The tokens behind place `i` and in front of place `j`. -/
def between (ts : List Token) (i j : Nat) : List Token := (ts.take j).drop (i + 1)

/-- Place `j` is behind `i`, and both lie directly in the same parentheses or outside all of them: each
parenthesis between the two has its partner there. -/
def SameGroup (ts : List Token) (i j : Nat) : Prop := i < j ∧ Balanced Token.side (between ts i j)

/-- The operator `c` does not rank above the operator `a`. -/
def Precedence.NotAbove (table : Precedence) (c a : Token) : Prop :=
  ∃ r ∈ table.lookup c.lexeme, ∃ k ∈ table.lookup a.lexeme, r ≤ k

/-- `ps` are the tokens at `places`, in this order. These are the places of all numbers and operators
of `ts`. -/
structure Arrangement (table : Precedence) (ts ps : List Token) (places : List Nat) : Prop where
  tokens : places.map (ts[·]?) = ps.map some
  nodup : places.Nodup
  mem_iff : ∀ i, i ∈ places ↔ ∃ t ∈ ts[i]?, t.kind = .number ∨ t.kind = .operator
  /-- A number comes before the numbers and operators behind it. -/
  number_first : ∀ i j a b, ts[i]? = some a → ts[j]? = some b → i < j → a.kind = .number →
    b.kind = .number ∨ b.kind = .operator → [i, j].Sublist places
  /-- Of two operators in the same group the first comes first just if an operator of the group, behind
  the first and up to the second, does not rank above it. -/
  operator_first : ∀ i j a b, ts[i]? = some a → ts[j]? = some b → a.kind = .operator →
    b.kind = .operator → SameGroup ts i j →
      ([i, j].Sublist places ↔ ∃ k c, k ≤ j ∧ ts[k]? = some c ∧ c.kind = .operator ∧
        SameGroup ts i k ∧ table.NotAbove c a)

/-! ### Tokens marked by their places -/

namespace Token

def mark (i : Nat) (t : Token) : Token := { t with position := some (i : Int) }

def place (t : Token) : Nat := (t.position.getD 0).toNat

/-- The marked token with the position that it has in `ts`. -/
def unmark (ts : List Token) (t : Token) : Token := { t with position := ts[t.place]?.bind position }

@[simp] theorem place_mark (i : Nat) (t : Token) : (t.mark i).place = i := rfl

@[simp] theorem kind_mark (i : Nat) (t : Token) : (t.mark i).kind = t.kind := rfl

@[simp] theorem lexeme_mark (i : Nat) (t : Token) : (t.mark i).lexeme = t.lexeme := rfl

theorem unmark_mark {ts : List Token} {i : Nat} {t : Token} (h : ts[i]? = some t) :
    (t.mark i).unmark ts = t := by
  rw [unmark, place_mark, h]
  rfl

end Token

def marked (ts : List Token) : List Token := ts.mapIdx Token.mark

section
variable {ts vs : List Token} {i j : Nat} {a b c t : Token}

theorem getElem?_marked (ts : List Token) (i : Nat) : (marked ts)[i]? = ts[i]?.map (Token.mark i) := by
  simp [marked]

theorem mem_marked_iff :
    t ∈ marked ts ↔ ∃ (i : Nat) (u : Token), ts[i]? = some u ∧ u.mark i = t := by
  simp only [List.mem_iff_getElem?, getElem?_marked, Option.map_eq_some_iff]

theorem map_unmark_marked (ts : List Token) : (marked ts).map (Token.unmark ts) = ts := by
  apply List.ext_getElem?
  intro i
  rw [List.getElem?_map, getElem?_marked]
  cases h : ts[i]? with
  | none => rfl
  | some t => simp [Token.unmark_mark h]

theorem nodup_map_place_marked (ts : List Token) : ((marked ts).map Token.place).Nodup := by
  have hrange : (marked ts).map Token.place = List.range ts.length := by
    apply List.ext_getElem?
    intro i
    rw [List.getElem?_map, getElem?_marked]
    by_cases hi : i < ts.length
    · simp [hi]
    · simp [hi]
  rw [hrange]
  exact List.nodup_range

theorem map_side_marked (ts : List Token) : (marked ts).map Token.side = ts.map Token.side := by
  apply List.ext_getElem?
  intro i
  rw [List.getElem?_map, getElem?_marked, List.getElem?_map]
  cases ts[i]? <;> rfl

theorem balanced_between_marked :
    Balanced Token.side (between (marked ts) i j) ↔ Balanced Token.side (between ts i j) := by
  refine balanced_congr ?_
  simp only [between, List.map_drop, List.map_take, map_side_marked]

/-- The order of two tokens among marked ones is that of their places. -/
theorem pair_sublist_map_place_iff (hvs : ∀ v ∈ vs, v ∈ marked ts) (ha : ts[i]? = some a)
    (hb : ts[j]? = some b) :
    [i, j].Sublist (vs.map Token.place) ↔ [a.mark i, b.mark j].Sublist vs := by
  have hmark : ∀ {n u v}, ts[n]? = some u → v ∈ vs → v.place = n → v = u.mark n := by
    rintro n u v hu hv rfl
    obtain ⟨m, w, hw, rfl⟩ := mem_marked_iff.1 (hvs v hv)
    rw [Token.place_mark, hw] at hu
    cases hu
    rfl
  constructor
  · intro h
    obtain ⟨l, hl, hplaces⟩ := List.sublist_map_iff.1 h
    obtain ⟨u, l, rfl, hu, hplaces⟩ := List.map_eq_cons_iff.1 hplaces.symm
    obtain ⟨v, l, rfl, hv, hnil⟩ := List.map_eq_cons_iff.1 hplaces
    obtain rfl := List.map_eq_nil_iff.1 hnil
    rwa [hmark ha (hl.subset (by simp)) hu, hmark hb (hl.subset (by simp)) hv] at hl
  · exact fun h => h.map Token.place

/-! ### Places -/

theorem between_split {k : Nat} (hik : i < k) (hkj : k < j) (hk : ts[k]? = some c) :
    between ts i j = between ts i k ++ c :: between ts k j := by
  have hlt : k < ts.length := (List.getElem?_eq_some_iff.1 hk).1
  have hc : (ts.take j)[k]? = some c := by rw [List.getElem?_take_of_lt hkj, hk]
  have htake : ts.take j = ts.take k ++ c :: (ts.take j).drop (k + 1) := by
    obtain ⟨hk', rfl⟩ := List.getElem?_eq_some_iff.1 hc
    rw [← List.drop_eq_getElem_cons hk']
    have := List.take_append_drop k (ts.take j)
    rwa [List.take_take, Nat.min_eq_left (Nat.le_of_lt hkj), eq_comm] at this
  unfold between
  conv_lhs => rw [htake]
  rw [List.drop_append_of_le_length (by rw [List.length_take]; omega)]

theorem between_self (ts : List Token) (j : Nat) : between ts j (j + 1) = [] :=
  List.drop_eq_nil_of_le (List.length_take_le _ _)

theorem between_length (ts : List Token) (i : Nat) : between ts i ts.length = ts.drop (i + 1) := by
  rw [between, List.take_length]

/-- A text cut at two places. -/
theorem eq_append_between (hi : ts[i]? = some a) (hj : ts[j]? = some b) (hij : i < j) :
    ts = ts.take i ++ a :: (between ts i j ++ b :: ts.drop (j + 1)) := by
  have hlt : j < ts.length := (List.getElem?_eq_some_iff.1 hj).1
  obtain ⟨hi', rfl⟩ := List.getElem?_eq_some_iff.1 hi
  rw [← between_length, ← between_split hij hlt hj, between_length, ← List.drop_eq_getElem_cons hi',
    List.take_append_drop]

theorem exists_place_of_between {m₁ m₂ : List Token}
    (h : between ts i j = m₁ ++ c :: m₂) :
    ∃ k, i < k ∧ k < j ∧ ts[k]? = some c ∧ m₁ = between ts i k := by
  have hc : (between ts i j)[m₁.length]? = some c := by simp [h]
  have htake : (between ts i j).take m₁.length = m₁ := by simp [h]
  rw [between, List.getElem?_drop] at hc
  have hlt : i + 1 + m₁.length < j := by
    by_contra hge
    rw [List.getElem?_eq_none (by rw [List.length_take]; omega)] at hc
    cases hc
  refine ⟨i + 1 + m₁.length, by omega, hlt, ?_, ?_⟩
  · rwa [List.getElem?_take_of_lt hlt] at hc
  · rw [between, List.take_drop, List.take_take, Nat.min_eq_left (Nat.le_of_lt hlt)] at htake
    exact htake.symm

end

/-! ### The arrangement -/

section
variable {table : Precedence} {ts ps vs : List Token}

theorem exists_rank_of_toPostfix {a : Token} (h : toPostfix table ts = .ok ps) (ha : a ∈ ts)
    (ho : a.kind = .operator) : ∃ k, table.lookup a.lexeme = some k := by
  obtain ⟨y, hrun, -⟩ := bind_eq_ok.1 h
  obtain ⟨before, after, hts⟩ := List.append_of_mem ha
  have hgoes := Yard.never_stops_of_foldlM hrun before a after hts
  cases hk : table.lookup a.lexeme with
  | none => exact absurd (.inl ⟨ho, hk⟩) hgoes
  | some k => exact ⟨k, rfl⟩

theorem not_pair_sublist_of_nodup {α : Type} {l : List α} {a b : α} (hl : l.Nodup)
    (hab : [a, b].Sublist l) : ¬ [b, a].Sublist l := by
  intro hba
  obtain ⟨l₁, l₂, rfl, ha, hb⟩ := List.cons_sublist_iff.1 hab
  obtain ⟨r₁, r₂, hsplit, hb', ha'⟩ := List.cons_sublist_iff.1 hba
  rw [List.singleton_sublist] at hb ha'
  have hdisjoint := List.disjoint_of_nodup_append hl
  rcases List.append_eq_append_iff.1 hsplit with ⟨mid, rfl, rfl⟩ | ⟨mid, rfl, rfl⟩
  · exact hdisjoint ha (List.mem_append_right _ ha')
  · exact hdisjoint (List.mem_append_left _ hb') hb

section
variable {i j : Nat} {a b : Token} (h : toPostfix table (marked ts) = .ok vs)
include h

theorem map_place_perm : (vs.map Token.place).Perm (((marked ts).filter Yard.kept).map Token.place) :=
  (toPostfix_perm h).map _

theorem nodup_map_place : (vs.map Token.place).Nodup := by
  refine (map_place_perm h).nodup_iff.2 ?_
  exact (nodup_map_place_marked ts).sublist (List.filter_sublist.map _)

theorem mem_map_place_iff :
    i ∈ vs.map Token.place ↔ ∃ t ∈ ts[i]?, t.kind = .number ∨ t.kind = .operator := by
  rw [(map_place_perm h).mem_iff, List.mem_map]
  constructor
  · rintro ⟨v, hv, rfl⟩
    obtain ⟨hmem, hkept⟩ := List.mem_filter.1 hv
    obtain ⟨n, t, ht, rfl⟩ := mem_marked_iff.1 hmem
    exact ⟨t, ht, of_decide_eq_true hkept⟩
  · rintro ⟨t, ht, hkept⟩
    have hmem : t.mark i ∈ marked ts := mem_marked_iff.2 ⟨i, t, ht, rfl⟩
    exact ⟨t.mark i, List.mem_filter.2 ⟨hmem, decide_eq_true hkept⟩, rfl⟩

theorem number_sublist_marked (ha : ts[i]? = some a) (hb : ts[j]? = some b) (hij : i < j)
    (hn : a.kind = .number) (hk : b.kind = .number ∨ b.kind = .operator) :
    [a.mark i, b.mark j].Sublist vs := by
  have ha' : (marked ts)[i]? = some (a.mark i) := by simp [getElem?_marked, ha]
  have hb' : (marked ts)[j]? = some (b.mark j) := by simp [getElem?_marked, hb]
  have hcut := eq_append_between ha' hb' hij
  rw [hcut, ← List.cons_append, ← List.append_assoc] at h
  exact Yard.number_sublist h (by simp) hn (decide_eq_true hk)

theorem operator_sublist_marked_iff (ha : ts[i]? = some a) (hb : ts[j]? = some b)
    (hao : a.kind = .operator) (hbo : b.kind = .operator) (hij : SameGroup ts i j) :
    [a.mark i, b.mark j].Sublist vs ↔ ∃ k c, k ≤ j ∧ ts[k]? = some c ∧ c.kind = .operator ∧
      SameGroup ts i k ∧ table.NotAbove c a := by
  have ha' : (marked ts)[i]? = some (a.mark i) := by simp [getElem?_marked, ha]
  have hb' : (marked ts)[j]? = some (b.mark j) := by simp [getElem?_marked, hb]
  obtain ⟨hlt, hmid⟩ := hij
  have hcut := eq_append_between ha' hb' hlt
  have hlast : between (marked ts) i j ++ [b.mark j] = between (marked ts) i (j + 1) := by
    rw [between_split hlt (Nat.lt_succ_self j) hb', between_self]
  constructor
  · intro hab
    obtain ⟨r, hr⟩ := exists_rank_of_toPostfix h (mem_marked_iff.2 ⟨i, a, ha, rfl⟩) hao
    by_contra hnone
    have hnodup : vs.Nodup := (nodup_map_place h).of_map
    rw [hcut] at h
    refine not_pair_sublist_of_nodup hnodup hab
      (Yard.operator_sublist_of_waiting h hao hbo hr (balanced_between_marked.2 hmid) ?_)
    intro m₁ c m₂ r' hsplit hm₁ hc hr'
    obtain ⟨k, hik, hkj, hck, rfl⟩ := exists_place_of_between (hlast.symm.trans hsplit)
    rw [getElem?_marked] at hck
    obtain ⟨u, hu, rfl⟩ := Option.map_eq_some_iff.1 hck
    by_contra hge
    exact hnone ⟨k, u, Nat.le_of_lt_succ hkj, hu, hc, ⟨hik, balanced_between_marked.1 hm₁⟩,
      r', hr', r, hr, Int.not_lt.1 hge⟩
  · rintro ⟨k, c, hkj, hc, hco, ⟨hik, hm₁⟩, r', hr', r, hr, hle⟩
    have hc' : (marked ts)[k]? = some (c.mark k) := by simp [getElem?_marked, hc]
    have hsplit := between_split hik (Nat.lt_succ_of_le hkj) hc'
    rw [hcut] at h
    exact Yard.operator_sublist_of_released h hao hbo hr (hlast.trans hsplit)
      (balanced_between_marked.2 hm₁) hco hr' hle

end

theorem exists_arrangement (h : toPostfix table ts = .ok ps) :
    ∃ places, Arrangement table ts ps places := by
  -- converting the marked text gives the same output, and the marks are the places
  rw [← map_unmark_marked ts] at h
  obtain ⟨vs, hvs, rfl⟩ := toPostfix_of_map (g := Token.unmark ts) (fun _ => rfl) (fun _ => rfl) h
  have hmarked : ∀ v ∈ vs, v ∈ marked ts :=
    fun v hv => (List.mem_filter.1 ((toPostfix_perm hvs).subset hv)).1
  refine ⟨vs.map Token.place, ?_, nodup_map_place hvs, fun i => mem_map_place_iff hvs, ?_, ?_⟩
  · rw [List.map_map, List.map_map]
    refine List.map_congr_left fun v hv => ?_
    obtain ⟨i, t, ht, rfl⟩ := mem_marked_iff.1 (hmarked v hv)
    simp [ht, Token.unmark_mark ht]
  · intro i j a b ha hb hij hn hk
    rw [pair_sublist_map_place_iff hmarked ha hb]
    exact number_sublist_marked hvs ha hb hij hn hk
  · intro i j a b ha hb hao hbo hij
    rw [pair_sublist_map_place_iff hmarked ha hb]
    exact operator_sublist_marked_iff hvs ha hb hao hbo hij

theorem filter_number_of_toPostfix (h : toPostfix table ts = .ok ps) :
    ps.filter (·.kind = .number) = ts.filter (·.kind = .number) := by
  obtain ⟨y, hrun, hfinish⟩ := bind_eq_ok.1 h
  obtain ⟨hnone, rfl⟩ := Yard.finish_eq_ok hfinish
  have hwait : y.waiting.filter (·.kind = .number) = [] := by
    refine List.filter_eq_nil_iff.2 fun w hw => ?_
    rcases (Yard.reached_of_foldlM hrun).ranked w hw with hp | ⟨ho, -⟩
    · simp [hp]
    · simp [ho]
  simp [hwait, Yard.filter_number_output hrun]

/-- The output is a rearrangement of the numbers and operators of the text that keeps the order of the
numbers, and it is an arrangement by the ranks of the operators. -/
theorem toPostfix_arrangement (h : toPostfix table ts = .ok ps) :
    ps.Perm (ts.filter Yard.kept) ∧ (∀ t ∈ ps, t.kind ≠ .leftParen ∧ t.kind ≠ .rightParen) ∧
      ps.filter (·.kind = .number) = ts.filter (·.kind = .number) ∧
      ∃ places, Arrangement table ts ps places := by
  refine ⟨toPostfix_perm h, ?_, filter_number_of_toPostfix h, exists_arrangement h⟩
  intro t ht
  have hkept := (List.mem_filter.1 ((toPostfix_perm h).subset ht)).2
  constructor <;> (intro hp; simp [Yard.kept, hp] at hkept)

/-- A text need not be an expression for this, and its operators may be of equal rank. -/
theorem toPostfix_arrangement_incomplete :
    let table : Precedence := [("+", 1), ("-", 1), ("*", 2)]
    let num (s : String) : Token := ⟨.number, s, none⟩
    let op (s : String) : Token := ⟨.operator, s, none⟩
    let ts := [op "+", ⟨.leftParen, "(", none⟩, num "2", op "-", ⟨.rightParen, ")", none⟩, num "1",
      op "*", op "-"]
    let ps := [num "2", op "-", num "1", op "*", op "+", op "-"]
    toPostfix table ts = .ok ps ∧ ps.Perm (ts.filter Yard.kept) ∧
      (∀ t ∈ ps, t.kind ≠ .leftParen ∧ t.kind ≠ .rightParen) ∧
      ps.filter (·.kind = .number) = ts.filter (·.kind = .number) ∧
      ∃ places, Arrangement table ts ps places := by
  intro table num op ts ps
  have h : toPostfix table ts = .ok ps := rfl
  exact ⟨h, toPostfix_arrangement h⟩

end

end ExprCalc
