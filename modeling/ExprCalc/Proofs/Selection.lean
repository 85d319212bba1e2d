import ExprCalc.Proofs.Search
import Mathlib.Order.WellFoundedSet

/-!
# Which matches become tokens

The matches of all patterns are considered in an order without ties: by their starts, the longer of two
first, and then by the rows of the table (`Finding.Before`). Taking each one that overlaps none taken
before settles every match: it is taken, or it overlaps an earlier one that is. There is only one such
choice (`Resolves.unique`), since whether a match belongs to it depends on earlier matches alone.
-/

namespace ExprCalc

/-- A match, with the row of the table whose pattern finds it. -/
structure Finding extends Occurrence where
  row : Nat

namespace Occurrence

/-- The two have a character in common, if neither is empty. -/
def Overlaps (a b : Occurrence) : Prop := a.start < b.stop ∧ b.start < a.stop

end Occurrence

/-- The first start comes first, then the greater length, then the first row. -/
def Finding.Before (a b : Finding) : Prop :=
  a.start < b.start ∨ a.start = b.start ∧
    (b.text.length < a.text.length ∨ a.text.length = b.text.length ∧ a.row < b.row)

namespace Lexicon

/-- The search for the pattern in row `m.row` finds `m`. -/
def Finds (lexicon : Lexicon) (cs : List Char) (m : Finding) : Prop :=
  ∃ p, lexicon[m.row]? = some (m.kind, p) ∧ (m.start, m.text) ∈ p.search cs ∧ m.text ≠ []

/-- `S` consists of matches that do not overlap, and each match that is left out overlaps an earlier one
that is not. -/
structure Resolves (lexicon : Lexicon) (cs : List Char) (S : Set Finding) : Prop where
  found : ∀ m ∈ S, lexicon.Finds cs m
  disjoint : ∀ a ∈ S, ∀ b ∈ S, a ≠ b → ¬ a.Overlaps b.toOccurrence
  shadowed : ∀ m, lexicon.Finds cs m → m ∉ S → ∃ a ∈ S, a.Before m ∧ a.Overlaps m.toOccurrence

/-- All matches, row by row. -/
def findings (lexicon : Lexicon) (cs : List Char) : List Finding :=
  lexicon.zipIdx.flatMap fun (entry, row) => (occurrences entry cs).map (⟨·, row⟩)

/-- All matches in the order in which they are considered. -/
def ranking (lexicon : Lexicon) (cs : List Char) : List Finding :=
  (lexicon.findings cs).mergeSort (·.precedes ·.toOccurrence)

end Lexicon

/-! ### The order -/

instance : IsStrictOrder Finding Finding.Before where
  irrefl a := by
    unfold Finding.Before
    omega
  trans a b c := by
    unfold Finding.Before
    omega

/-- In a list sorted without regard to ties, ties are in the order that they had before. -/
theorem pairwise_mergeSort_stable {α : Type} {le : α → α → Bool} {R : α → α → Prop} {l : List α}
    (trans : ∀ a b c, le a b = true → le b c = true → le a c = true)
    (total : ∀ a b, (le a b || le b a) = true) (h : l.Pairwise R) :
    (l.mergeSort le).Pairwise fun a b => le a b = true ∧ (le b a = true → R a b) := by
  have hperm := List.mergeSort_perm l.zipIdx (List.zipIdxLE le)
  have hsorted := List.pairwise_mergeSort (List.zipIdxLE_trans trans) (List.zipIdxLE_total total)
    l.zipIdx
  have hplaces : ((l.zipIdx.mergeSort (List.zipIdxLE le)).map Prod.snd).Nodup := by
    refine (hperm.map Prod.snd).nodup_iff.2 ?_
    rw [List.zipIdx_map_snd]
    exact List.nodup_range'
  rw [← List.mergeSort_zipIdx, List.pairwise_map]
  refine (hsorted.and (List.pairwise_map.1 hplaces)).imp_of_mem fun {x y} hx hy hxy => ?_
  obtain ⟨hle, hne⟩ := hxy
  have hx' := List.mem_zipIdx_iff_getElem?.1 (hperm.subset hx)
  have hy' := List.mem_zipIdx_iff_getElem?.1 (hperm.subset hy)
  unfold List.zipIdxLE at hle
  split_ifs at hle with hforth hback
  · have hlt : x.2 < y.2 := Nat.lt_of_le_of_ne (of_decide_eq_true hle) hne
    obtain ⟨hxl, hx'⟩ := List.getElem?_eq_some_iff.1 hx'
    obtain ⟨hyl, hy'⟩ := List.getElem?_eq_some_iff.1 hy'
    refine ⟨hforth, fun _ => ?_⟩
    rw [← hx', ← hy']
    exact List.pairwise_iff_getElem.1 h _ _ hxl hyl hlt
  · exact ⟨hforth, fun h => absurd h hback⟩

namespace Lexicon
variable {lexicon : Lexicon} {cs : List Char} {m : Finding}

theorem mem_findings : m ∈ lexicon.findings cs ↔ lexicon.Finds cs m := by
  simp only [findings, Finds, List.mem_flatMap, List.mem_map, Prod.exists, List.mem_zipIdx_iff_getElem?]
  constructor
  · rintro ⟨kind, p, row, hrow, o, ho, rfl⟩
    obtain ⟨rfl, hmem, hne⟩ := mem_occurrences.1 ho
    exact ⟨p, hrow, hmem, hne⟩
  · rintro ⟨p, hrow, hmem, hne⟩
    exact ⟨m.kind, p, m.row, hrow, m.toOccurrence, mem_occurrences.2 ⟨rfl, hmem, hne⟩, rfl⟩

theorem map_findings (lexicon : Lexicon) (cs : List Char) :
    (lexicon.findings cs).map Finding.toOccurrence = lexicon.flatMap (occurrences · cs) := by
  rw [findings, List.map_flatMap]
  simp only [List.map_map, Function.comp_def, List.map_id']
  conv_rhs => rw [← List.zipIdx_map_fst 0 lexicon, List.flatMap_map]

theorem pairwise_findings (lexicon : Lexicon) (cs : List Char) :
    (lexicon.findings cs).Pairwise fun a b => a.row < b.row ∨ a.row = b.row ∧ a.stop ≤ b.start := by
  refine List.pairwise_flatMap.2 ⟨fun entry _ => ?_, ?_⟩
  · exact List.pairwise_map.2 ((pairwise_occurrences _ _).imp fun h => .inr ⟨rfl, h⟩)
  · rw [List.pairwise_iff_getElem]
    intro i j _ _ hij x hx y hy
    rw [List.getElem_zipIdx] at hx hy
    obtain ⟨_, _, rfl⟩ := List.mem_map.1 hx
    obtain ⟨_, _, rfl⟩ := List.mem_map.1 hy
    exact .inl (Nat.add_lt_add_left hij 0)

theorem map_ranking (lexicon : Lexicon) (cs : List Char) :
    (lexicon.ranking cs).map Finding.toOccurrence = lexicon.candidates cs := by
  rw [ranking, candidates, ← map_findings]
  exact List.map_mergeSort fun _ _ _ _ => rfl

theorem mem_ranking : m ∈ lexicon.ranking cs ↔ lexicon.Finds cs m := by
  rw [ranking, List.mem_mergeSort, mem_findings]

theorem pairwise_ranking (lexicon : Lexicon) (cs : List Char) :
    (lexicon.ranking cs).Pairwise Finding.Before := by
  have hstable : (lexicon.ranking cs).Pairwise fun a b => a.precedes b.toOccurrence = true ∧
      (b.precedes a.toOccurrence = true → a.row < b.row ∨ a.row = b.row ∧ a.stop ≤ b.start) :=
    pairwise_mergeSort_stable (fun _ _ _ => Occurrence.precedes_trans _ _ _)
      (fun _ _ => Occurrence.precedes_total _ _) (lexicon.pairwise_findings cs)
  refine hstable.imp_of_mem fun {a b} ha _ h => ?_
  obtain ⟨_, -, -, hne⟩ := mem_ranking.1 ha
  have hpos := List.length_pos_iff.2 hne
  simp only [Occurrence.precedes, Bool.or_eq_true, Bool.and_eq_true, decide_eq_true_eq, beq_iff_eq,
    Occurrence.stop] at h
  unfold Finding.Before
  omega

end Lexicon

/-! ### The choice -/

namespace Finding
variable {m : Finding} {ms : List Finding} {cursor : Nat}

/-- The matches, of those from offset `cursor` on, that overlap none taken before. -/
def choose : (cursor : Nat) → List Finding → List Finding
  | _, [] => []
  | cursor, m :: ms => if m.start < cursor then choose cursor ms else m :: choose m.stop ms

theorem map_choose (cursor : Nat) (ms : List Finding) :
    (choose cursor ms).map toOccurrence = Occurrence.disjoint cursor (ms.map toOccurrence) := by
  induction ms generalizing cursor with
  | nil => rfl
  | cons m ms ih =>
    rw [choose, List.map_cons, Occurrence.disjoint]
    split
    · exact ih cursor
    · rw [List.map_cons, ih]

theorem choose_sublist (cursor : Nat) (ms : List Finding) : (choose cursor ms).Sublist ms := by
  induction ms generalizing cursor with
  | nil => exact .refl _
  | cons m ms ih =>
    rw [choose]
    split
    · exact (ih cursor).cons m
    · exact (ih m.stop).cons_cons m

theorem start_ge_of_mem_choose (h : m ∈ choose cursor ms) : cursor ≤ m.start := by
  induction ms generalizing cursor with
  | nil => cases h
  | cons n ms ih =>
    rw [choose] at h
    split at h
    · exact ih h
    · next hge =>
      rcases List.mem_cons.1 h with rfl | h
      · exact Nat.not_lt.1 hge
      · have := ih h
        unfold Occurrence.stop at this
        omega

theorem pairwise_choose (cursor : Nat) (ms : List Finding) :
    (choose cursor ms).Pairwise fun a b => a.stop ≤ b.start := by
  induction ms generalizing cursor with
  | nil => exact .nil
  | cons m ms ih =>
    rw [choose]
    split
    · exact ih cursor
    · exact .cons (fun _ => start_ge_of_mem_choose) (ih m.stop)

/-- A match that is not taken begins in front of the cursor or in an earlier match that is taken. -/
theorem exists_before_of_not_mem_choose (hms : ms.Pairwise Before) (hm : m ∈ ms)
    (h : m ∉ choose cursor ms) :
    m.start < cursor ∨ ∃ a ∈ choose cursor ms, a.Before m ∧ m.start < a.stop := by
  induction ms generalizing cursor with
  | nil => cases hm
  | cons n ms ih =>
    obtain ⟨hn, hms⟩ := List.pairwise_cons.1 hms
    rw [choose] at h ⊢
    split at h
    · next hlt =>
      rw [if_pos hlt]
      rcases List.mem_cons.1 hm with rfl | hm
      · exact .inl hlt
      · exact ih hms hm h
    · next hge =>
      rw [if_neg hge]
      obtain ⟨hne, h⟩ := not_or.1 (List.mem_cons.not.1 h)
      have hm := (List.mem_cons.1 hm).resolve_left hne
      rcases ih hms hm h with hlt | ⟨a, ha, hbefore, hlt⟩
      · exact .inr ⟨n, List.mem_cons_self, hn m hm, hlt⟩
      · exact .inr ⟨a, List.mem_cons_of_mem _ ha, hbefore, hlt⟩

end Finding

namespace Lexicon
variable {lexicon : Lexicon} {cs : List Char} {m : Finding} {S T : Set Finding}

/-- The matches that become tokens. -/
def chosen (lexicon : Lexicon) (cs : List Char) : List Finding :=
  Finding.choose 0 (lexicon.ranking cs)

theorem map_chosen (lexicon : Lexicon) (cs : List Char) :
    (lexicon.chosen cs).map Finding.toOccurrence = lexicon.selection cs := by
  rw [chosen, Finding.map_choose, map_ranking, selection]

theorem finds_of_mem_chosen (h : m ∈ lexicon.chosen cs) : lexicon.Finds cs m :=
  mem_ranking.1 ((Finding.choose_sublist _ _).subset h)

/-- A match that becomes no token begins inside a token that precedes it. -/
theorem exists_before_of_not_mem_chosen (hm : lexicon.Finds cs m) (h : m ∉ lexicon.chosen cs) :
    ∃ a ∈ lexicon.chosen cs, a.Before m ∧ a.start ≤ m.start ∧ m.start < a.stop := by
  obtain hlt | ⟨a, ha, hbefore, hlt⟩ :=
    Finding.exists_before_of_not_mem_choose (lexicon.pairwise_ranking cs) (mem_ranking.2 hm) h
  · exact absurd hlt (Nat.not_lt_zero _)
  · refine ⟨a, ha, hbefore, ?_, hlt⟩
    unfold Finding.Before at hbefore
    omega

theorem resolves_chosen (lexicon : Lexicon) (cs : List Char) :
    lexicon.Resolves cs {m | m ∈ lexicon.chosen cs} := by
  refine ⟨fun m => finds_of_mem_chosen, fun a ha b hb hne hover => ?_, fun m hm h => ?_⟩
  · have hsymm : Std.Symm fun a b : Finding => a.stop ≤ b.start ∨ b.stop ≤ a.start :=
      ⟨fun _ _ => Or.symm⟩
    have hpair : (lexicon.chosen cs).Pairwise fun a b => a.stop ≤ b.start ∨ b.stop ≤ a.start :=
      (Finding.pairwise_choose 0 _).imp Or.inl
    have hapart := hpair.forall ha hb hne
    obtain ⟨h1, h2⟩ := hover
    omega
  · obtain ⟨a, ha, hbefore, hle, hlt⟩ := exists_before_of_not_mem_chosen hm h
    obtain ⟨_, -, -, hne⟩ := hm
    have hpos := List.length_pos_iff.2 hne
    exact ⟨a, ha, hbefore, by unfold Occurrence.stop; omega, hlt⟩

/-- Whether a match is taken depends on which earlier ones are taken. -/
theorem Resolves.mem_iff (h : lexicon.Resolves cs S) (hm : lexicon.Finds cs m) :
    m ∈ S ↔ ∀ a, lexicon.Finds cs a → a.Before m → a.Overlaps m.toOccurrence → a ∉ S := by
  constructor
  · rintro hmS a - hbefore hover haS
    refine h.disjoint a haS m hmS ?_ hover
    rintro rfl
    exact irrefl a hbefore
  · intro hnone
    by_contra hmS
    obtain ⟨a, ha, hbefore, hover⟩ := h.shadowed m hm hmS
    exact hnone a (h.found a ha) hbefore hover ha

theorem finite_finds (lexicon : Lexicon) (cs : List Char) : {m | lexicon.Finds cs m}.Finite := by
  refine (List.finite_toSet (lexicon.findings cs)).subset fun m hm => mem_findings.2 hm

theorem Resolves.unique (hS : lexicon.Resolves cs S) (hT : lexicon.Resolves cs T) : S = T := by
  have hwf : {m | lexicon.Finds cs m}.WellFoundedOn Finding.Before :=
    (finite_finds lexicon cs).wellFoundedOn
  have hiff : ∀ m, lexicon.Finds cs m → (m ∈ S ↔ m ∈ T) := by
    intro m hm
    refine hwf.induction (P := fun m => m ∈ S ↔ m ∈ T) hm fun m hm ih => ?_
    rw [hS.mem_iff hm, hT.mem_iff hm]
    refine forall_congr' fun a => forall_congr' fun ha => forall_congr' fun hbefore => ?_
    rw [ih a ha hbefore]
  ext m
  exact ⟨fun hm => (hiff m (hS.found m hm)).1 hm, fun hm => (hiff m (hT.found m hm)).2 hm⟩

theorem tokenize_eq_selection {limits : Limits} {s : String} (lexicon : Lexicon)
    (hl : (s.length : Int) ≤ limits.maxLength) :
    lexicon.tokenize limits s = .ok ((lexicon.selection s.toList).map Occurrence.token) := by
  simp only [tokenize, scan, if_neg (Int.not_lt.2 hl), segments]
  exact congrArg Except.ok (filterMap_token?_cut 0 s.toList _)

/-- Where the matches, pattern by pattern, stand in their order already, nothing has to be sorted. -/
theorem tokenize_of_pairwise {limits : Limits} {s : String} (hl : (s.length : Int) ≤ limits.maxLength)
    (h : (lexicon.flatMap (occurrences · s.toList)).Pairwise fun a b => a.precedes b = true) :
    lexicon.tokenize limits s =
      .ok ((Occurrence.disjoint 0 (lexicon.flatMap (occurrences · s.toList))).map Occurrence.token) := by
  rw [tokenize_eq_selection lexicon hl, selection, candidates, List.mergeSort_of_pairwise h]

end Lexicon

/-- There is one way to resolve the overlaps between all matches in a text: no two matches that stay
overlap, and each match that goes overlaps an earlier one that stays. The tokens of the text are the
matches that stay, in the order in which they stand. -/
theorem tokenize_resolves (lexicon : Lexicon) (limits : Limits) (s : String)
    (hl : (s.length : Int) ≤ limits.maxLength) :
    ∃ taken : List Finding, taken.Pairwise (fun a b => a.stop ≤ b.start) ∧
      lexicon.Resolves s.toList {m | m ∈ taken} ∧
      (∀ S, lexicon.Resolves s.toList S → S = {m | m ∈ taken}) ∧
      lexicon.tokenize limits s =
        .ok (taken.map fun m => ⟨m.kind, String.ofList m.text, some m.start⟩) := by
  have hresolves := lexicon.resolves_chosen s.toList
  refine ⟨lexicon.chosen s.toList, Finding.pairwise_choose _ _, hresolves,
    fun S hS => hS.unique hresolves, ?_⟩
  rw [lexicon.tokenize_eq_selection hl, ← Lexicon.map_chosen, List.map_map]
  rfl

/-- The match of the second pattern overlaps the other two. It goes because of the first, and so the third
stays. -/
theorem tokenize_resolves_chain :
    let lexicon : Lexicon := [(.number, .anyOf [['a', 'b']]), (.operator, .anyOf [['b', 'c', 'd']]),
      (.leftParen, .anyOf [['c', 'd', 'e']])]
    let limits : Limits := ⟨10, 1, 3, some 4300⟩
    (("abcde".length : Nat) : Int) ≤ limits.maxLength ∧
      ∃ taken : List Finding, lexicon.Resolves "abcde".toList {m | m ∈ taken} ∧
        taken.map (fun m => (⟨m.kind, String.ofList m.text, some m.start⟩ : Token)) =
          [⟨.number, "ab", some 0⟩, ⟨.leftParen, "cde", some 2⟩] := by
  intro lexicon limits
  have hl : (("abcde".length : Nat) : Int) ≤ limits.maxLength := by decide
  obtain ⟨taken, -, hresolves, -, htokens⟩ := tokenize_resolves lexicon limits "abcde" hl
  have hrun : lexicon.tokenize limits "abcde" =
      .ok [⟨.number, "ab", some 0⟩, ⟨.leftParen, "cde", some 2⟩] :=
    Lexicon.tokenize_of_pairwise hl (by decide)
  exact ⟨hl, taken, hresolves, Except.ok.inj (htokens.symm.trans hrun)⟩

end ExprCalc
