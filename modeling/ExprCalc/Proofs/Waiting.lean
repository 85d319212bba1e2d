import ExprCalc.Proofs.Arrangement
import Mathlib.Data.List.Dedup
import Mathlib.Data.List.Perm.Subperm

/-!
# What waits

Which tokens of a text wait when it has been read can be told from the text (`Waits`): the `(` that are
not closed, and in front of each of them, and at the end, those operators that rank below all operators
behind them in the same group. One more token ends the waiting of some tokens of its own group only
(`waits_concat_iff`), and these are the ones that the yard sends away, down to the next `(`.

An operator is put on top of another one only if it ranks above it (`Rising`). So no more operators wait
between two parentheses than the table has ranks.
-/

namespace ExprCalc

namespace Precedence
variable {table : Precedence} {r : Int}

/-- The ranks that the operators of a table have, each once. -/
def ranks (table : Precedence) : List Int :=
  (table.filterMap fun entry => table.lookup entry.1).dedup

theorem mem_ranks : r ∈ table.ranks ↔ ∃ lexeme, table.lookup lexeme = some r := by
  simp only [ranks, List.mem_dedup, List.mem_filterMap]
  constructor
  · rintro ⟨entry, -, h⟩
    exact ⟨entry.1, h⟩
  · rintro ⟨lexeme, h⟩
    obtain ⟨before, after, hsplit, -⟩ := List.lookup_eq_some_iff.1 h
    exact ⟨(lexeme, r), by simp [hsplit], h⟩

theorem exists_of_below {a b : Token} (h : table.below a b = true) :
    ∃ i j, table.lookup a.lexeme = some i ∧ table.lookup b.lexeme = some j ∧ i < j := by
  unfold below at h
  split at h
  · next i j hi hj => exact ⟨i, j, hi, hj, of_decide_eq_true h⟩
  · cases h

theorem below_trans {a b c : Token} (h : table.below a b = true) (h' : table.below b c = true) :
    table.below a c = true := by
  obtain ⟨i, j, hi, hj, hlt⟩ := exists_of_below h
  obtain ⟨j', k, hj', hk, hlt'⟩ := exists_of_below h'
  cases hj.symm.trans hj'
  exact (below_iff hi hk).2 (Int.lt_trans hlt hlt')

end Precedence

namespace Yard
variable {table : Precedence} {y y' : Yard} {t w : Token} {read : List Token} {p q : Token × Nat}
  {held above below sent kept : List (Token × Nat)} {waiting : List Token}

/-! ### Tokens that wait, by their places -/

/-- The token at a place is a `(` that is not closed, or an operator in a group that is not closed, which
ranks below the operators behind it in that group. -/
structure Waits (table : Precedence) (read : List Token) (p : Token × Nat) : Prop where
  placed : read[p.2]? = some p.1
  unclosed : ¬ ClosedIn Token.side (read.drop (p.2 + 1))
  role : p.1.kind = .leftParen ∨ p.1.kind = .operator ∧ ∀ j c, read[j]? = some c →
    c.kind = .operator → SameGroup read p.2 j → table.below p.1 c = true

/-- The reading of `t` in the same group does not end the waiting of `w`. -/
def Stays (table : Precedence) (w t : Token) : Prop :=
  t.kind ≠ .rightParen ∧ (w.kind = .operator → t.kind = .operator → table.below w t = true)

theorem Waits.lt_length (h : Waits table read p) : p.2 < read.length :=
  (List.getElem?_eq_some_iff.1 h.placed).1

theorem between_concat {i j : Nat} (hj : j ≤ read.length) :
    between (read ++ [t]) i j = between read i j := by
  rw [between, between, List.take_append_of_le_length hj]

theorem getElem?_concat_cases {j : Nat} {c : Token} (h : (read ++ [t])[j]? = some c) :
    read[j]? = some c ∨ j = read.length ∧ c = t := by
  rcases Nat.lt_or_ge j read.length with hlt | hge
  · exact .inl (by rwa [List.getElem?_append_left hlt] at h)
  · rw [List.getElem?_append_right hge] at h
    obtain ⟨hlt, rfl⟩ := List.getElem?_eq_some_iff.1 h
    rw [List.length_singleton] at hlt
    exact .inr ⟨by omega, List.getElem_singleton _⟩

theorem waits_concat_of_lt (hlt : p.2 < read.length) : Waits table (read ++ [t]) p ↔
    Waits table read p ∧ (Balanced Token.side (read.drop (p.2 + 1)) → Stays table p.1 t) := by
  have hplaced : (read ++ [t])[p.2]? = read[p.2]? := List.getElem?_append_left hlt
  have hdrop : (read ++ [t]).drop (p.2 + 1) = read.drop (p.2 + 1) ++ [t] :=
    List.drop_append_of_le_length hlt
  constructor
  · rintro ⟨hp, hclosed, hrole⟩
    rw [hplaced] at hp
    rw [hdrop, closedIn_concat_iff, not_or] at hclosed
    refine ⟨⟨hp, hclosed.1, hrole.imp_right (And.imp_right fun hbelow j c hj hc hgroup => ?_)⟩,
      fun hb => ⟨fun hr => hclosed.2 ⟨Token.side_eq_closing_iff.2 hr, hb⟩, fun ho ht => ?_⟩⟩
    · have hjl := (List.getElem?_eq_some_iff.1 hj).1
      refine hbelow j c (by rwa [List.getElem?_append_left hjl]) hc ⟨hgroup.1, ?_⟩
      rw [between_concat (Nat.le_of_lt hjl)]
      exact hgroup.2
    · obtain ⟨-, hbelow⟩ := hrole.resolve_left (by simp [ho])
      refine hbelow read.length t List.getElem?_concat_length ht ⟨hlt, ?_⟩
      rwa [between_concat (Nat.le_refl _), between_length]
  · rintro ⟨⟨hp, hclosed, hrole⟩, hstays⟩
    refine ⟨hplaced.trans hp, ?_, hrole.imp_right fun ⟨ho, hbelow⟩ => ⟨ho, fun j c hj hc hgroup => ?_⟩⟩
    · rw [hdrop, closedIn_concat_iff, not_or]
      exact ⟨hclosed, fun ⟨hr, hb⟩ => (hstays hb).1 (Token.side_eq_closing_iff.1 hr)⟩
    · obtain ⟨hij, hb⟩ := hgroup
      rcases getElem?_concat_cases hj with hj | ⟨rfl, rfl⟩
      · have hjl := (List.getElem?_eq_some_iff.1 hj).1
        rw [between_concat (Nat.le_of_lt hjl)] at hb
        exact hbelow j c hj hc ⟨hij, hb⟩
      · rw [between_concat (Nat.le_refl _), between_length] at hb
        exact (hstays hb).2 ho hc

/-- The last token waits if it is a `(` or an operator. One in front of it goes on waiting, unless nothing
is open between the two and the last one ends its waiting. -/
theorem waits_concat_iff : Waits table (read ++ [t]) p ↔
    (p = (t, read.length) ∧ (t.kind = .leftParen ∨ t.kind = .operator)) ∨
      Waits table read p ∧ (Balanced Token.side (read.drop (p.2 + 1)) → Stays table p.1 t) := by
  have hlast : Waits table (read ++ [t]) (t, read.length) ↔
      t.kind = .leftParen ∨ t.kind = .operator := by
    refine ⟨fun h => h.role.imp_right And.left, fun h => ⟨List.getElem?_concat_length, ?_, ?_⟩⟩
    · rw [List.drop_of_length_le (by simp)]
      exact Balanced.nil.not_closedIn
    · refine h.imp_right fun ho => ⟨ho, fun j c hj _ hgroup => ?_⟩
      have hjl := (List.getElem?_eq_some_iff.1 hj).1
      have hlt := hgroup.1
      rw [List.length_append, List.length_singleton] at hjl
      omega
  constructor
  · intro h
    rcases getElem?_concat_cases h.placed with hp | ⟨hlength, ht⟩
    · exact .inr ((waits_concat_of_lt (List.getElem?_eq_some_iff.1 hp).1).1 h)
    · obtain rfl : p = (t, read.length) := Prod.ext ht hlength
      exact .inl ⟨rfl, hlast.1 h⟩
  · rintro (⟨rfl, h⟩ | h)
    · exact hlast.2 h
    · exact (waits_concat_of_lt h.1.lt_length).2 h

/-! ### Ranks -/

/-- Each operator that waits fits on what waits below it. -/
def Rising (table : Precedence) (waiting : List Token) : Prop :=
  ∀ w rest k, w :: rest <:+ waiting → w.kind = .operator → table.lookup w.lexeme = some k →
    Fits table k rest

namespace Rising

theorem suffix {stay : List Token} (h : Rising table waiting) (hs : stay <:+ waiting) :
    Rising table stay :=
  fun w rest k hrest => h w rest k (hrest.trans hs)

theorem cons (h : Rising table waiting)
    (hw : w.kind = .operator → ∀ k, table.lookup w.lexeme = some k → Fits table k waiting) :
    Rising table (w :: waiting) := by
  intro v rest k hs hv hk
  rcases List.suffix_cons_iff.1 hs with heq | hs
  · cases heq
    exact hw hv k hk
  · exact h v rest k hs hv hk

/-- Operators that wait on top of one another, with no `(` between them, rank above one another. -/
theorem pairwise {ops rest : List Token} (h : Rising table (ops ++ rest))
    (hranked : Ranked table (ops ++ rest)) (hops : ∀ w ∈ ops, w.kind = .operator) :
    ops.Pairwise fun upper lower => table.below lower upper = true := by
  induction ops with
  | nil => exact .nil
  | cons w ops ih =>
    obtain ⟨hw, hops⟩ := List.forall_mem_cons.1 hops
    have hrest := ih (h.suffix (List.suffix_cons w _)) hranked.tail hops
    obtain ⟨-, i, hi⟩ := (hranked w List.mem_cons_self).resolve_left (by simp [hw])
    have hfits : Fits table i (ops ++ rest) := h w _ i List.suffix_rfl hw hi
    refine .cons (fun v hv => ?_) hrest
    cases ops with
    | nil => cases hv
    | cons u ops =>
      obtain ⟨j, hj, hlt⟩ := hfits u rfl (by simp [hops u List.mem_cons_self])
      have hu : table.below u w = true := (Precedence.below_iff hj hi).2 hlt
      rcases List.mem_cons.1 hv with rfl | hv
      · exact hu
      · exact Precedence.below_trans ((List.pairwise_cons.1 hrest).1 v hv) hu

end Rising

/-- Operators that rank above one another are no more than there are ranks. -/
theorem length_le_length_ranks {ops : List Token}
    (hranks : ∀ w ∈ ops, ∃ i, table.lookup w.lexeme = some i)
    (h : ops.Pairwise fun upper lower => table.below lower upper = true) :
    ops.length ≤ table.ranks.length := by
  have hnodup : (ops.filterMap fun w => table.lookup w.lexeme).Nodup := by
    refine List.pairwise_filterMap.2 (h.imp fun hbelow i hi j hj => ?_)
    exact (Int.ne_of_lt ((Precedence.below_iff hj hi).1 hbelow)).symm
  have hsubset : (ops.filterMap fun w => table.lookup w.lexeme) ⊆ table.ranks := by
    intro i hi
    obtain ⟨w, -, hi⟩ := List.mem_filterMap.1 hi
    exact Precedence.mem_ranks.2 ⟨w.lexeme, hi⟩
  have hlength : (ops.filterMap fun w => table.lookup w.lexeme).length = ops.length := by
    refine List.filterMap_length_eq_length.2 fun w hw => ?_
    obtain ⟨i, hi⟩ := hranks w hw
    rw [hi]
    rfl
  rw [← hlength]
  exact (List.Nodup.subperm hnodup hsubset).length_le

/-! ### Runs -/

/-- The tokens that wait when the text `read` has been read, with their places, the last one first. -/
structure Held (table : Precedence) (read : List Token) (held : List (Token × Nat)) : Prop where
  descending : held.Pairwise fun upper lower => lower.2 < upper.2
  mem_iff : ∀ p, p ∈ held ↔ Waits table read p
  rising : Rising table (held.map Prod.fst)

namespace Held

theorem place_lt (h : Held table read (above ++ p :: below)) (hq : q ∈ above) : p.2 < q.2 :=
  (List.pairwise_append.1 h.descending).2.2 q hq p List.mem_cons_self

/-- Nothing is open behind a token if no `(` waits above it. -/
theorem balanced (h : Held table read (above ++ p :: below))
    (habove : ∀ q ∈ above, q.1.kind ≠ .leftParen) :
    Balanced Token.side (read.drop (p.2 + 1)) := by
  have hp := (h.mem_iff p).1 (by simp)
  refine balanced_of_allClosed (fun before l after hsplit hl => ?_) hp.unclosed
  by_contra hopen
  have hplace : read[p.2 + 1 + before.length]? = some l := by
    rw [← List.getElem?_drop, hsplit, List.getElem?_append_right (Nat.le_refl _), Nat.sub_self]
    rfl
  have hafter : read.drop (p.2 + 1 + before.length + 1) = after := by
    rw [Nat.add_assoc _ before.length, ← List.drop_drop, hsplit, List.drop_append]
    simp
  have hlp := Token.side_eq_opening_iff.1 hl
  have hmem : (l, p.2 + 1 + before.length) ∈ above ++ p :: below :=
    (h.mem_iff _).2 ⟨hplace, hafter ▸ hopen, .inl hlp⟩
  rcases List.mem_append.1 hmem with hmem | hmem
  · exact habove _ hmem hlp
  · have hdescending := (List.pairwise_append.1 h.descending).2.1
    rcases List.mem_cons.1 hmem with heq | hmem
    · have hsame : p.2 + 1 + before.length = p.2 := congrArg Prod.snd heq
      omega
    · have hlower : p.2 + 1 + before.length < p.2 := (List.pairwise_cons.1 hdescending).1 _ hmem
      omega

/-- A `(` that waits above a token is open behind it. -/
theorem not_balanced (h : Held table read (above ++ p :: below)) (hq : q ∈ above)
    (hlp : q.1.kind = .leftParen) : ¬ Balanced Token.side (read.drop (p.2 + 1)) := by
  intro hb
  have hwaits := (h.mem_iff q).1 (List.mem_append_left _ hq)
  have hlength := hwaits.lt_length
  have hsplit := between_split (h.place_lt hq) hlength hwaits.placed
  rw [between_length, between_length] at hsplit
  exact hwaits.unclosed (hb.allClosed _ _ _ hsplit (Token.side_eq_opening_iff.2 hlp))

theorem balanced_of_sent (h : Held table read (sent ++ kept))
    (hsent : ∀ q ∈ sent, q.1.kind = .operator) (hp : p ∈ sent) :
    Balanced Token.side (read.drop (p.2 + 1)) := by
  obtain ⟨above, below, rfl⟩ := List.append_of_mem hp
  rw [List.append_assoc, List.cons_append] at h
  exact h.balanced fun q hq => by simp [hsent q (List.mem_append_left _ hq)]

/-- What stays in the yard is what goes on waiting. -/
theorem concat (h : Held table read held) {held' : List (Token × Nat)}
    (hdescending : held'.Pairwise fun upper lower => lower.2 < upper.2)
    (hrising : Rising table (held'.map Prod.fst))
    (hmem : ∀ p, p ∈ held' ↔ (p = (t, read.length) ∧ (t.kind = .leftParen ∨ t.kind = .operator)) ∨
      p ∈ held ∧ (Balanced Token.side (read.drop (p.2 + 1)) → Stays table p.1 t)) :
    Held table (read ++ [t]) held' := by
  refine ⟨hdescending, fun p => ?_, hrising⟩
  rw [hmem, waits_concat_iff, h.mem_iff]

theorem descending_cons (h : Held table read held) (hkept : kept.Sublist held) (t : Token) :
    ((t, read.length) :: kept).Pairwise fun upper lower => lower.2 < upper.2 :=
  .cons (fun p hp => ((h.mem_iff p).1 (hkept.subset hp)).lt_length) (h.descending.sublist hkept)

/-- What stays below a new operator, with nothing open between the two, ranks below it. -/
theorem below_of_kept (h : Held table read (sent ++ kept))
    (hranked : Ranked table (t :: kept.map Prod.fst)) (hrising : Rising table (t :: kept.map Prod.fst))
    (ht : t.kind = .operator) (hp : p ∈ kept) (ho : p.1.kind = .operator)
    (hb : Balanced Token.side (read.drop (p.2 + 1))) : table.below p.1 t = true := by
  obtain ⟨above, below, rfl⟩ := List.append_of_mem hp
  rw [← List.append_assoc] at h
  have hstretch : t :: (above ++ p :: below).map Prod.fst =
      (t :: (above.map Prod.fst ++ [p.1])) ++ below.map Prod.fst := by simp
  rw [hstretch] at hranked hrising
  have hops : ∀ w ∈ t :: (above.map Prod.fst ++ [p.1]), w.kind = .operator := by
    refine List.forall_mem_cons.2 ⟨ht, List.forall_mem_append.2 ⟨fun w hw => ?_, ?_⟩⟩
    · have hw' := hranked w (List.mem_append_left _ (List.mem_cons_of_mem _ (List.mem_append_left _ hw)))
      obtain ⟨q, hq, rfl⟩ := List.mem_map.1 hw
      exact (hw'.resolve_left fun hlp => h.not_balanced (List.mem_append_right _ hq) hlp hb).1
    · exact List.forall_mem_singleton.2 ho
  have hpairwise := hrising.pairwise hranked hops
  exact (List.pairwise_cons.1 hpairwise).1 p.1 (by simp)

/-- What an operator leaves waiting, when it has sent away what it does not rank above, is what goes on
waiting. -/
theorem mem_kept_iff_stays (h : Held table read (sent ++ kept))
    (hranked : Ranked table (t :: kept.map Prod.fst)) (hrising : Rising table (t :: kept.map Prod.fst))
    (ht : t.kind = .operator)
    (hsent : ∀ q ∈ sent, q.1.kind = .operator ∧ ¬ table.below q.1 t = true) : p ∈ kept ↔
      p ∈ sent ++ kept ∧ (Balanced Token.side (read.drop (p.2 + 1)) → Stays table p.1 t) := by
  constructor
  · intro hp
    refine ⟨List.mem_append_right _ hp, fun hb => ⟨by simp [ht], fun ho _ => ?_⟩⟩
    exact h.below_of_kept hranked hrising ht hp ho hb
  · rintro ⟨hp, hstays⟩
    refine (List.mem_append.1 hp).resolve_left fun hp => ?_
    obtain ⟨-, hbelow⟩ := hstays (h.balanced_of_sent (fun q hq => (hsent q hq).1) hp)
    obtain ⟨hop, hnot⟩ := hsent p hp
    exact hnot (hbelow hop ht)

/-- What waits below the last `(` is what has something open behind it. -/
theorem mem_kept_iff_open (h : Held table read (sent ++ q :: kept))
    (hsent : ∀ q ∈ sent, q.1.kind = .operator) (hlp : q.1.kind = .leftParen) : p ∈ kept ↔
      p ∈ sent ++ q :: kept ∧ ¬ Balanced Token.side (read.drop (p.2 + 1)) := by
  constructor
  · intro hp
    refine ⟨List.mem_append_right _ (List.mem_cons_of_mem _ hp), ?_⟩
    obtain ⟨above, below, rfl⟩ := List.append_of_mem hp
    rw [← List.cons_append, ← List.append_assoc] at h
    exact h.not_balanced (List.mem_append_right _ List.mem_cons_self) hlp
  · rintro ⟨hp, hopen⟩
    rcases List.mem_append.1 hp with hp | hp
    · exact absurd (h.balanced_of_sent hsent hp) hopen
    · refine (List.mem_cons.1 hp).resolve_left ?_
      rintro rfl
      exact hopen (h.balanced fun q hq => by simp [hsent q hq])

/-- One more token, by the ways the yard can take it. -/
theorem move (h : Held table read held) (hy : y.waiting = held.map Prod.fst)
    (hranked : Ranked table y.waiting) (hm : Move table y t (.ok y')) :
    ∃ held', y'.waiting = held'.map Prod.fst ∧ Held table (read ++ [t]) held' := by
  cases hm with
  | number hn =>
    refine ⟨held, hy, h.concat h.descending h.rising fun p => ?_⟩
    have hstays : Stays table p.1 t := ⟨by simp [hn], fun _ ht => by simp [hn] at ht⟩
    simp [hn, hstays]
  | leftParen hlp =>
    have hrising := h.rising.cons (w := t) fun ho => by simp [hlp] at ho
    refine ⟨(t, read.length) :: held, by rw [hy]; rfl,
      h.concat (h.descending_cons (.refl _) t) hrising fun p => ?_⟩
    have hstays : Stays table p.1 t := ⟨by simp [hlp], fun _ ht => by simp [hlp] at ht⟩
    simp [hlp, hstays]
  | @operator k gone stay ho hk hsplit hgone hfits =>
    obtain ⟨sent, kept, rfl, rfl, rfl⟩ := List.map_eq_append_iff.1 (hy.symm.trans hsplit)
    have hrising : Rising table (t :: kept.map Prod.fst) := by
      refine (h.rising.suffix (List.map_append ▸ List.suffix_append _ _)).cons fun _ k' hk' => ?_
      cases hk.symm.trans hk'
      exact hfits
    have hkept : kept.Sublist (sent ++ kept) := List.sublist_append_right _ _
    refine ⟨(t, read.length) :: kept, rfl, h.concat (h.descending_cons hkept t) hrising fun p => ?_⟩
    simp only [List.mem_cons, ho, or_true, and_true]
    have hranks : Ranked table (t :: kept.map Prod.fst) :=
      .cons (.inr ⟨ho, k, hk⟩) (Ranked.right (hsplit ▸ hranked))
    refine or_congr_right (h.mem_kept_iff_stays hranks hrising ho fun q hq => ?_)
    obtain ⟨hop, i, hi, hle⟩ := hgone q.1 (List.mem_map_of_mem hq)
    exact ⟨hop, by rw [Precedence.below_iff hi hk]; omega⟩
  | @rightParen gone stay lp hr hsplit hgone hlp =>
    obtain ⟨sent, rest, rfl, rfl, hrest⟩ := List.map_eq_append_iff.1 (hy.symm.trans hsplit)
    obtain ⟨q, kept, rfl, rfl, rfl⟩ := List.map_eq_cons_iff.1 hrest
    have hsent : ∀ q ∈ sent, q.1.kind = .operator := fun q hq => hgone q.1 (List.mem_map_of_mem hq)
    have hstays : ∀ {w}, ¬ Stays table w t := fun hstays => hstays.1 hr
    have hkept : kept <:+ sent ++ q :: kept := (List.suffix_cons q kept).trans (List.suffix_append _ _)
    refine ⟨kept, rfl, h.concat (h.descending.sublist hkept.sublist)
      (h.rising.suffix (hkept.map Prod.fst)) fun p => ?_⟩
    simp only [hr, reduceCtorEq, or_self, and_false, false_or, hstays, imp_false]
    exact h.mem_kept_iff_open hsent hlp

end Held

theorem exists_held (h : read.foldlM (step table) empty = .ok y) :
    ∃ held, y.waiting = held.map Prod.fst ∧ Held table read held := by
  refine (foldlM_invariant (fun read y => Reached table read y ∧
    ∃ held, y.waiting = held.map Prod.fst ∧ Held table read held) ?_ ?_ h).2
  · refine ⟨reached_of_foldlM rfl, [], rfl, .nil, fun p => ?_, fun _ _ _ hs => by simp at hs⟩
    exact iff_of_false List.not_mem_nil fun hp => Nat.not_lt_zero _ hp.lt_length
  · rintro read y t y' ⟨hreached, held, hy, hheld⟩ hstep
    have hm : Move table y t (.ok y') := hstep ▸ step_move hreached.ranked t
    exact ⟨hreached.step hstep, hheld.move hy hreached.ranked hm⟩

end Yard

/-- When some tokens have been read without a fault, nothing waits but `(` and operators of the table. Each
has its place in the text, and what waits further up stands further back. A `(` waits if it is not closed
yet, and an operator if its group is not closed yet and all operators behind it in the group rank above
it. Operators that wait with no `(` between them increase in rank, so there are no more of them than
ranks. -/
theorem waiting_of_foldlM_step (table : Precedence) (read : List Token) (y : Yard)
    (hrun : read.foldlM (Yard.step table) .empty = .ok y) :
    (∀ w ∈ y.waiting,
      w.kind = .leftParen ∨ w.kind = .operator ∧ (table.lookup w.lexeme).isSome) ∧
    (∃ held : List (Token × Nat), y.waiting = held.map Prod.fst ∧
      (∀ p ∈ held, read[p.2]? = some p.1) ∧
      held.Pairwise (fun upper lower => lower.2 < upper.2) ∧
      (∀ i lp, read[i]? = some lp → lp.kind = .leftParen →
        ((lp, i) ∈ held ↔ ¬ ClosedIn Token.side (read.drop (i + 1)))) ∧
      ∀ i op, read[i]? = some op → op.kind = .operator →
        ((op, i) ∈ held ↔ ¬ ClosedIn Token.side (read.drop (i + 1)) ∧ ∀ j c, read[j]? = some c →
          c.kind = .operator → SameGroup read i j → table.below op c = true)) ∧
    ∀ above ops below, y.waiting = above ++ ops ++ below → (∀ w ∈ ops, w.kind = .operator) →
      ops.Pairwise (fun upper lower => table.below lower upper = true) ∧
      ops.length ≤ table.ranks.length := by
  have hranked := (Yard.reached_of_foldlM hrun).ranked
  obtain ⟨held, hy, hheld⟩ := Yard.exists_held hrun
  refine ⟨fun w hw => ?_, ⟨held, hy, fun p hp => ((hheld.mem_iff p).1 hp).placed, hheld.descending,
    fun i lp hi hlp => ?_, fun i op hi hop => ?_⟩, fun above ops below hsplit hops => ?_⟩
  · rw [Option.isSome_iff_exists]
    exact hranked w hw
  · rw [hheld.mem_iff]
    exact ⟨Yard.Waits.unclosed, fun h => ⟨hi, h, .inl hlp⟩⟩
  · rw [hheld.mem_iff]
    refine ⟨fun h => ⟨h.unclosed, (h.role.resolve_left (by simp [hop])).2⟩, ?_⟩
    exact fun ⟨h, hbelow⟩ => ⟨hi, h, .inr ⟨hop, hbelow⟩⟩
  · rw [List.append_assoc] at hsplit
    have hranks : Yard.Ranked table (ops ++ below) := Yard.Ranked.right (hsplit ▸ hranked)
    have hrising : Yard.Rising table (ops ++ below) :=
      hheld.rising.suffix (by rw [← hy, hsplit]; exact List.suffix_append _ _)
    have hpairwise := hrising.pairwise hranks hops
    refine ⟨hpairwise, Yard.length_le_length_ranks (fun w hw => ?_) hpairwise⟩
    have hw' := hranks w (List.mem_append_left _ hw)
    exact (hw'.resolve_left (by simp [hops w hw])).2

/-- The group `(3)` is closed and its `(` is gone; the other `(`, which is the same token, waits. The second
`*` has sent the first one away. -/
theorem waiting_of_foldlM_step_second_group :
    let num (s : String) : Token := ⟨.number, s, none⟩
    let op (s : String) : Token := ⟨.operator, s, none⟩
    let lp : Token := ⟨.leftParen, "(", none⟩
    let closed := [num "1", op "-", num "2", op "*", lp, num "3", ⟨.rightParen, ")", none⟩, op "*"]
    let inside := [num "4", op "+", num "5", op "/"]
    let waiting := [op "/", op "+", lp, op "*", op "-"]
    ∃ (y : Yard) (held : List (Token × Nat)),
      (closed ++ lp :: inside).foldlM (Yard.step .arithmetic) .empty = .ok y ∧
      y.waiting = waiting ∧ waiting = held.map Prod.fst ∧ (lp, 4) ∉ held ∧ (lp, 8) ∈ held ∧
      (op "*", 3) ∉ held ∧ [op "/", op "+"].length ≤ Precedence.arithmetic.ranks.length := by
  intro num op lp closed inside waiting
  have hrun : (closed ++ lp :: inside).foldlM (Yard.step .arithmetic) .empty =
      .ok ⟨#[num "1", num "2", num "3", op "*", num "4", num "5"], waiting⟩ := rfl
  obtain ⟨-, ⟨held, hheld, -, -, hopen, hoperator⟩, hstretch⟩ :=
    waiting_of_foldlM_step .arithmetic _ _ hrun
  obtain ⟨-, hlength⟩ := hstretch [] [op "/", op "+"] [lp, op "*", op "-"] rfl (by simp [op])
  refine ⟨_, held, hrun, rfl, hheld, ?_, ?_, ?_, hlength⟩
  · refine (hopen 4 lp rfl rfl).not.2 (not_not_intro ?_)
    exact ⟨[num "3"], _, _, rfl, rfl, .inner rfl .nil⟩
  · have hinside : Balanced Token.side inside := by decide
    exact (hopen 8 lp rfl rfl).2 hinside.not_closedIn
  · refine (hoperator 3 (op "*") rfl rfl).not.2 fun ⟨_, hbelow⟩ => ?_
    have hsame := hbelow 7 (op "*") rfl rfl ⟨by decide, by decide⟩
    exact absurd hsame (by decide)

end ExprCalc
