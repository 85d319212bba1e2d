import ExprCalc.Proofs.Scan

/-!
# The search for one pattern

`Hits` reads a text from left to right for one pattern, without the empty matches. Where the pattern has
no other match the reading goes on with the next character, and behind a match it goes on with the text
that is left. The matches of a search that are not empty are found in this way (`hits_hitsFrom`). So they
do not overlap, and wherever the pattern matches there is one that covers the place
(`Hits.exists_covers`); but it may have begun before.
-/

namespace ExprCalc

namespace Pattern
variable {p : Pattern} {cs w rest : List Char} {n : Nat}

/-- The pattern matches the whole of `w`. -/
def Matches : Pattern → List Char → Prop
  | anyOf words, w => w ∈ words
  | runOf chars least, w => least ≤ w.length ∧ ∀ c ∈ w, c ∈ chars

instance (p : Pattern) (w : List Char) : Decidable (p.Matches w) :=
  match p with
  | anyOf words => inferInstanceAs (Decidable (w ∈ words))
  | runOf chars least =>
    decidable_of_iff (least ≤ w.length ∧ w.all chars.contains = true) (by simp [Matches])

/-- The length of the preferred match at the start of `cs` that is not empty. -/
def firstLength (p : Pattern) (cs : List Char) : Option Nat := (p.lengths cs).find? (· ≠ 0)

theorem le_length_of_mem_lengths (h : n ∈ p.lengths cs) : n ≤ cs.length := by
  cases p with
  | anyOf words =>
    obtain ⟨word, hword, rfl⟩ := List.mem_map.1 h
    exact (List.isPrefixOf_iff_prefix.1 (List.mem_filter.1 hword).2).length_le
  | runOf chars least =>
    have hprefix := List.takeWhile_prefix chars.contains (l := cs)
    simp only [lengths] at h
    split at h
    · exact List.mem_singleton.1 h ▸ hprefix.length_le
    · cases h

theorem exists_mem_lengths (h : p.Matches w) (hne : w ≠ []) (rest : List Char) :
    ∃ n ∈ p.lengths (w ++ rest), n ≠ 0 := by
  have hpos : w.length ≠ 0 := fun h0 => hne (List.length_eq_zero_iff.1 h0)
  cases p with
  | anyOf words =>
    refine ⟨w.length, List.mem_map.2 ⟨w, List.mem_filter.2 ⟨h, ?_⟩, rfl⟩, hpos⟩
    exact List.isPrefixOf_iff_prefix.2 (List.prefix_append w rest)
  | runOf chars least =>
    obtain ⟨hleast, hchars⟩ := h
    have hle : w.length ≤ ((w ++ rest).takeWhile chars.contains).length := by
      rw [List.takeWhile_append_of_pos fun c hc => by simpa using hchars c hc]
      simp
    refine ⟨_, ?_, Nat.ne_of_gt (Nat.lt_of_lt_of_le (Nat.pos_of_ne_zero hpos) hle)⟩
    rw [lengths, if_pos (hleast.trans hle)]
    exact List.mem_singleton.2 rfl

theorem found_eq (p : Pattern) (cs : List Char) :
    p.found cs = (if (p.lengths cs).head? = some 0 then [0] else []) ++ (p.firstLength cs).toList := by
  unfold found firstLength
  cases p.lengths cs with
  | nil => rfl
  | cons n rest =>
    cases n with
    | zero => simp
    | succ n => simp

theorem firstLength_eq_some (h : p.firstLength cs = some n) :
    n ≠ 0 ∧ n ≤ cs.length := by
  have hne : n ≠ 0 := by simpa using List.find?_some h
  exact ⟨hne, le_length_of_mem_lengths (List.mem_of_find?_eq_some h)⟩

theorem firstLength_ne_none (h : p.Matches w) (hne : w ≠ []) (rest : List Char) :
    p.firstLength (w ++ rest) ≠ none := by
  obtain ⟨n, hn, h0⟩ := exists_mem_lengths h hne rest
  intro hnone
  exact List.find?_eq_none.1 hnone n hn (by simpa using h0)

end Pattern

/-- The matches in `cs`, which begins at offset `pos`, that are found one behind the other. -/
inductive Hits (p : Pattern) : (pos : Nat) → List Char → List (Nat × List Char) → Prop
  | done {pos : Nat} : Hits p pos [] []
  | skip {pos : Nat} {c : Char} {cs : List Char} {hits : List (Nat × List Char)} :
      p.firstLength (c :: cs) = none → Hits p (pos + 1) cs hits → Hits p pos (c :: cs) hits
  | hit {pos : Nat} {text rest : List Char} {hits : List (Nat × List Char)} :
      p.firstLength (text ++ rest) = some text.length → Hits p (pos + text.length) rest hits →
      Hits p pos (text ++ rest) ((pos, text) :: hits)

namespace Hits
variable {p : Pattern} {pos i : Nat} {cs w : List Char} {hits : List (Nat × List Char)}

theorem text_ne_nil {text rest : List Char} (h : p.firstLength (text ++ rest) = some text.length) :
    text ≠ [] :=
  fun hnil => (Pattern.firstLength_eq_some h).1 (List.length_eq_zero_iff.2 hnil)

theorem start_ge (h : Hits p pos cs hits) : ∀ m ∈ hits, pos ≤ m.1 := by
  induction h with
  | done => nofun
  | skip _ _ ih => exact fun m hm => Nat.le_of_succ_le (ih m hm)
  | hit _ _ ih =>
    refine List.forall_mem_cons.2 ⟨Nat.le_refl _, fun m hm => ?_⟩
    exact Nat.le_of_add_right_le (ih m hm)

theorem pairwise_stop_le (h : Hits p pos cs hits) :
    hits.Pairwise fun a b => a.1 + a.2.length ≤ b.1 := by
  induction h with
  | done => exact .nil
  | skip _ _ ih => exact ih
  | hit _ hrest ih => exact .cons hrest.start_ge ih

/-- A match stands in the text where it is found. -/
theorem prefix_drop (h : Hits p pos cs hits) : ∀ m ∈ hits, m.2 <+: cs.drop (m.1 - pos) := by
  induction h with
  | done => nofun
  | @skip pos c cs hits _ hrest ih =>
    intro m hm
    have hge := hrest.start_ge m hm
    obtain ⟨i, hi⟩ := Nat.exists_eq_add_of_le hge
    have hprefix := ih m hm
    rw [show m.1 - (pos + 1) = i by omega] at hprefix
    rwa [show m.1 - pos = i + 1 by omega]
  | @hit pos text rest hits _ hrest ih =>
    refine List.forall_mem_cons.2 ⟨?_, fun m hm => ?_⟩
    · rw [Nat.sub_self]
      exact List.prefix_append text rest
    · have hge := hrest.start_ge m hm
      obtain ⟨i, hi⟩ := Nat.exists_eq_add_of_le hge
      have hprefix := ih m hm
      rw [show m.1 - (pos + text.length) = i by omega] at hprefix
      rwa [show m.1 - pos = text.length + i by omega, List.drop_length_add_append]

/-- Wherever the pattern matches, one of the matches found covers the place. -/
theorem exists_covers (h : Hits p pos cs hits) (hm : p.Matches w) (hne : w ≠ [])
    (hw : w <+: cs.drop i) : ∃ m ∈ hits, m.1 ≤ pos + i ∧ pos + i < m.1 + m.2.length := by
  induction h generalizing i with
  | done => simp [hne] at hw
  | @skip pos c cs hits hnone _ ih =>
    cases i with
    | zero =>
      obtain ⟨rest, hrest⟩ := hw
      rw [List.drop_zero] at hrest
      exact absurd (hrest ▸ hnone) (Pattern.firstLength_ne_none hm hne rest)
    | succ i =>
      obtain ⟨m, hmem, hcov⟩ := ih hw
      exact ⟨m, hmem, by omega⟩
  | @hit pos text rest hits _ _ ih =>
    rcases Nat.lt_or_ge i text.length with hlt | hge
    · exact ⟨_, List.mem_cons_self, Nat.le_add_right _ _, Nat.add_lt_add_left hlt _⟩
    · obtain ⟨j, rfl⟩ := Nat.exists_eq_add_of_le hge
      rw [List.drop_length_add_append] at hw
      obtain ⟨m, hmem, hcov⟩ := ih hw
      exact ⟨m, List.mem_cons_of_mem _ hmem, by omega⟩

end Hits

/-! ### The search finds them -/

namespace Pattern
variable {p : Pattern} {pos : Nat} {c : Char} {cs text rest : List Char}

/-- The matches of a search that are not empty. -/
def hitsFrom (p : Pattern) (pos : Nat) (cs : List Char) : List (Nat × List Char) :=
  (p.searchFrom pos 0 cs).filter (!·.2.isEmpty)

theorem hitsFrom_nil (p : Pattern) (pos : Nat) : p.hitsFrom pos [] = [] := by
  simp [hitsFrom, searchFrom]

theorem hitsFrom_of_none (h : p.firstLength (c :: cs) = none) :
    p.hitsFrom pos (c :: cs) = p.hitsFrom (pos + 1) cs := by
  rw [hitsFrom, searchFrom, found_eq, h]
  split <;> simp [hitsFrom]

theorem hitsFrom_of_some (h : p.firstLength (text ++ rest) = some text.length) :
    p.hitsFrom pos (text ++ rest) = (pos, text) :: p.hitsFrom (pos + text.length) rest := by
  obtain ⟨c, text, rfl⟩ := List.exists_cons_of_ne_nil (Hits.text_ne_nil h)
  have hrest : p.searchFrom (pos + 1) text.length (text ++ rest) =
      p.searchFrom (pos + (text.length + 1)) 0 rest := by
    rw [searchFrom_skip, Nat.add_right_comm, Nat.add_assoc]
  rw [List.cons_append] at h ⊢
  rw [hitsFrom, searchFrom, found_eq, h]
  split <;> simp [hitsFrom, hrest]

theorem hits_hitsFrom (p : Pattern) (pos : Nat) (cs : List Char) :
    Hits p pos cs (p.hitsFrom pos cs) := by
  induction hn : cs.length using Nat.strongRecOn generalizing pos cs with
  | _ n ih =>
    subst hn
    cases cs with
    | nil => exact hitsFrom_nil p pos ▸ .done
    | cons c cs =>
      cases hfirst : p.firstLength (c :: cs) with
      | none =>
        rw [hitsFrom_of_none hfirst]
        exact .skip hfirst (ih _ (Nat.lt_succ_self _) _ _ rfl)
      | some n =>
        obtain ⟨hne, hle⟩ := firstLength_eq_some hfirst
        have hlength : ((c :: cs).take n).length = n := List.length_take_of_le hle
        have hsplit := List.take_append_drop n (c :: cs)
        have htext : p.firstLength ((c :: cs).take n ++ (c :: cs).drop n) =
            some ((c :: cs).take n).length := by rw [hsplit, hlength, hfirst]
        have hlt : ((c :: cs).drop n).length < (c :: cs).length := by
          rw [List.length_drop, List.length_cons]
          omega
        rw [← hsplit, hitsFrom_of_some htext]
        exact .hit htext (ih _ hlt _ _ rfl)

end Pattern

/-! ### As occurrences -/

section
variable {entry : TokenKind × Pattern} {cs w : List Char} {o : Occurrence} {i : Nat}

theorem mem_occurrences : o ∈ Lexicon.occurrences entry cs ↔
    o.kind = entry.1 ∧ (o.start, o.text) ∈ entry.2.search cs ∧ o.text ≠ [] := by
  simp only [Lexicon.occurrences, List.mem_map, List.mem_filter, Prod.exists]
  constructor
  · rintro ⟨start, text, ⟨hmem, hne⟩, rfl⟩
    exact ⟨rfl, hmem, by simpa using hne⟩
  · rintro ⟨hk, hmem, hne⟩
    exact ⟨o.start, o.text, ⟨hmem, by simpa using hne⟩, by rw [← hk]⟩

theorem pairwise_occurrences (entry : TokenKind × Pattern) (cs : List Char) :
    (Lexicon.occurrences entry cs).Pairwise fun a b => a.stop ≤ b.start :=
  List.pairwise_map.2 (entry.2.hits_hitsFrom 0 cs).pairwise_stop_le

theorem prefix_of_mem_occurrences (h : o ∈ Lexicon.occurrences entry cs) :
    o.text ≠ [] ∧ o.text <+: cs.drop o.start := by
  obtain ⟨m, hmem, rfl⟩ := List.mem_map.1 h
  exact ⟨by simpa using (List.mem_filter.1 hmem).2, (entry.2.hits_hitsFrom 0 cs).prefix_drop m hmem⟩

theorem exists_occurrence_covers (hm : entry.2.Matches w) (hne : w ≠ []) (hw : w <+: cs.drop i) :
    ∃ o ∈ Lexicon.occurrences entry cs, o.start ≤ i ∧ i < o.stop := by
  obtain ⟨m, hmem, hcov⟩ := (entry.2.hits_hitsFrom 0 cs).exists_covers hm hne hw
  rw [Nat.zero_add] at hcov
  exact ⟨_, List.mem_map_of_mem hmem, hcov⟩

end

end ExprCalc
