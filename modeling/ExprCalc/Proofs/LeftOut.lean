import ExprCalc.Proofs.IsToken
import ExprCalc.Proofs.Selection

/-!
# What is left out

The text that belongs to no token may contain a word of a pattern. The pattern finds a match that covers
the beginning of the word all the same, since its search goes over the whole text; but that match begins
inside a token of another pattern, is dropped because of it, and the search is not taken up again behind
the token (`Shadowed`). With the patterns of arithmetic this cannot happen, since every word begins with
a character that belongs to a token wherever it stands.
-/

namespace ExprCalc

/-- No token reaches into the text from offset `start` to offset `stop`. -/
def LeftOut (ts : List Token) (start stop : Nat) : Prop :=
  ∀ o : Occurrence, o.token ∈ ts → o.stop ≤ start ∨ stop ≤ o.start

/-- Offset `i` is covered by a match for `entry` that is no token, and that begins in a token of another
pattern in front of `i`. -/
def Lexicon.Shadowed (lexicon : Lexicon) (cs : List Char) (ts : List Token)
    (entry : TokenKind × Pattern) (i : Nat) : Prop :=
  ∃ m ∈ occurrences entry cs, m.token ∉ ts ∧ i < m.stop ∧
    ∃ other ∈ lexicon, other ≠ entry ∧ ∃ a ∈ occurrences other cs, a.token ∈ ts ∧
      a.start ≤ m.start ∧ m.start < a.stop ∧ a.stop ≤ i

theorem Occurrence.token_injective : Function.Injective Occurrence.token := by
  rintro ⟨kind, start, text⟩ ⟨kind', start', text'⟩ h
  simp only [token, Token.mk.injEq, String.ofList_inj, Option.some.injEq, Int.natCast_inj] at h
  obtain ⟨rfl, rfl, rfl⟩ := h
  rfl

theorem token_mem_map {o : Occurrence} {os : List Occurrence} :
    o.token ∈ os.map Occurrence.token ↔ o ∈ os :=
  List.mem_map_of_injective Occurrence.token_injective

theorem leftOut_map_token (os : List Occurrence) {start stop : Nat} :
    LeftOut (os.map Occurrence.token) start stop ↔ ∀ o ∈ os, o.stop ≤ start ∨ stop ≤ o.start := by
  simp only [LeftOut, token_mem_map]

section
variable {lexicon : Lexicon} {cs w : List Char} {entry : TokenKind × Pattern} {i : Nat}

/-- A place where text is left out is covered by no match that is taken. -/
theorem LeftOut.not_covers {os : List Occurrence} (hne : w ≠ [])
    (hout : LeftOut (os.map Occurrence.token) i (i + w.length)) : ∀ o ∈ os, ¬ o.Covers i := by
  rintro o ho ⟨hle, hlt⟩
  have hpos := List.length_pos_iff.2 hne
  rcases (leftOut_map_token os).1 hout o ho with hstop | hstart <;> omega

/-- Where a pattern matches in front of no token, its own match begins in an earlier one. -/
theorem Lexicon.shadowed_of_not_covers (he : entry ∈ lexicon) (hm : entry.2.Matches w) (hne : w ≠ [])
    (hw : w <+: cs.drop i) (hi : ∀ o ∈ lexicon.selection cs, ¬ o.Covers i) :
    lexicon.Shadowed cs ((lexicon.selection cs).map Occurrence.token) entry i := by
  obtain ⟨m, hmem, hle, hlt⟩ := exists_occurrence_covers hm hne hw
  obtain ⟨row, hrow⟩ := List.mem_iff_getElem?.1 he
  obtain ⟨hk, hsearch, hmne⟩ := mem_occurrences.1 hmem
  have hfinds : lexicon.Finds cs ⟨m, row⟩ := ⟨entry.2, by rw [hrow, hk], hsearch, hmne⟩
  have hselect : ∀ {f : Finding}, f ∈ lexicon.chosen cs → f.toOccurrence ∈ lexicon.selection cs :=
    fun hf => map_chosen lexicon cs ▸ List.mem_map_of_mem hf
  have hnot : m ∉ lexicon.selection cs := fun h => hi m h ⟨hle, hlt⟩
  obtain ⟨a, ha, -, hstart, hstop⟩ := exists_before_of_not_mem_chosen hfinds fun h => hnot (hselect h)
  obtain ⟨p, harow, hasearch, hane⟩ := finds_of_mem_chosen ha
  have hamem : a.toOccurrence ∈ occurrences (a.kind, p) cs :=
    mem_occurrences.2 ⟨rfl, hasearch, hane⟩
  have hai : a.stop ≤ i := Nat.not_lt.1 fun hlt => hi _ (hselect ha) ⟨hstart.trans hle, hlt⟩
  refine ⟨m, hmem, token_mem_map.not.2 hnot, hlt, _, List.mem_of_getElem? harow, ?_, _, hamem,
    token_mem_map.2 (hselect ha), hstart, hstop, hai⟩
  -- two matches of one search do not overlap
  rintro rfl
  have hcov : m.Covers m.start := ⟨Nat.le_refl _, by omega⟩
  cases eq_of_pairwise_stop_le (pairwise_occurrences _ cs) hamem hmem ⟨hstart, hstop⟩ hcov
  omega

/-- A word of arithmetic begins with a character of its class. -/
theorem lexicalClass_of_matches (he : entry ∈ Lexicon.arithmetic) {c : Char}
    (hm : entry.2.Matches (c :: cs)) : lexicalClass c = some entry.1 := by
  by_contra hc
  obtain ⟨n, hn⟩ := Option.ne_none_iff_exists'.1
    (Pattern.firstLength_ne_none hm (List.cons_ne_nil c cs) [])
  have hfound := found_eq_nil he hc (cs ++ [])
  rw [Pattern.found_eq, ← List.cons_append, hn] at hfound
  simp at hfound

end

/-- Where a piece of a text is left out that is a word of a pattern, the pattern has found a match that
begins in a token of another pattern and reaches into the word, and that was dropped because of that
token. With the patterns of arithmetic no piece that is left out is one of their words. -/
theorem leftOut_cases (lexicon : Lexicon) (limits : Limits) (s : String)
    (hl : (s.length : Int) ≤ limits.maxLength) :
    ∃ ts, lexicon.tokenize limits s = .ok ts ∧
      ∀ before w after, s.toList = before ++ w ++ after → w ≠ [] →
        LeftOut ts before.length (before.length + w.length) →
          (∀ entry ∈ lexicon, entry.2.Matches w →
            lexicon.Shadowed s.toList ts entry before.length) ∧
          (lexicon = .arithmetic → ∀ entry ∈ lexicon, ¬ entry.2.Matches w) := by
  refine ⟨_, lexicon.tokenize_eq_selection hl, fun before w after hs hne hout => ?_⟩
  have hfree := hout.not_covers hne
  refine ⟨fun entry he hm => ?_, ?_⟩
  · have hw : w <+: s.toList.drop before.length := by
      rw [hs, List.append_assoc, List.drop_left]
      exact List.prefix_append w after
    exact Lexicon.shadowed_of_not_covers he hm hne hw hfree
  · rintro rfl entry he hm
    obtain ⟨c, w, rfl⟩ := List.exists_cons_of_ne_nil hne
    have hc : s.toList[before.length]? = some c := by simp [hs]
    obtain ⟨os, hscan⟩ := exists_scan 0 s.toList
    obtain ⟨o, ho, hcovers⟩ := hscan.exists_covers hc (lexicalClass_of_matches he hm ▸ nofun)
    rw [Nat.zero_add] at hcovers
    exact hfree o (hscan.selection_eq ▸ ho) hcovers

/-- Behind `ab` the second pattern matches `c`. Its search has found `bc` instead, which goes because of
`ab`. With the patterns of arithmetic, `x` is left out between two numbers. -/
theorem leftOut_cases_shadowed :
    let p : Pattern := .runOf ['b', 'c'] 1
    let lexicon : Lexicon := [(.number, .anyOf [['a', 'b']]), (.operator, p)]
    let limits : Limits := ⟨10, 1, 3, some 4300⟩
    let ts : List Token := [⟨.number, "ab", some 0⟩]
    let numbers : List Token := [⟨.number, "1", some 0⟩, ⟨.number, "2", some 2⟩]
    (lexicon.tokenize limits "abc" = .ok ts ∧ "abc".toList = ['a', 'b'] ++ ['c'] ++ [] ∧
      LeftOut ts 2 3 ∧ p.Matches ['c'] ∧ lexicon.Shadowed "abc".toList ts (.operator, p) 2) ∧
    (Lexicon.arithmetic.tokenize limits "1x2" = .ok numbers ∧
      "1x2".toList = ['1'] ++ ['x'] ++ ['2'] ∧ LeftOut numbers 1 2 ∧
      ∀ entry ∈ Lexicon.arithmetic, ¬ entry.2.Matches ['x']) := by
  intro p lexicon limits ts numbers
  have hs : "abc".toList = ['a', 'b'] ++ ['c'] ++ [] := rfl
  have hout : LeftOut ts 2 3 := (leftOut_map_token [⟨.number, 0, ['a', 'b']⟩]).2 (by decide)
  have hrun : lexicon.tokenize limits "abc" = .ok ts :=
    Lexicon.tokenize_of_pairwise (by decide) (by decide)
  have hs' : "1x2".toList = ['1'] ++ ['x'] ++ ['2'] := rfl
  have hbetween : LeftOut numbers 1 2 :=
    (leftOut_map_token [⟨.number, 0, ['1']⟩, ⟨.number, 2, ['2']⟩]).2 (by decide)
  have hnumbers : Lexicon.arithmetic.tokenize limits "1x2" = .ok numbers :=
    Lexicon.tokenize_of_pairwise (by decide) (by decide)
  refine ⟨⟨hrun, hs, hout, by decide, ?_⟩, hnumbers, hs', hbetween, ?_⟩
  · obtain ⟨ts', htokens, hcases⟩ := leftOut_cases lexicon limits "abc" (by decide)
    cases hrun.symm.trans htokens
    exact (hcases _ _ _ hs (List.cons_ne_nil 'c' []) hout).1 (.operator, p) (by decide) (by decide)
  · obtain ⟨ts', htokens, hcases⟩ := leftOut_cases .arithmetic limits "1x2" (by decide)
    cases hnumbers.symm.trans htokens
    exact (hcases _ _ _ hs' (List.cons_ne_nil 'x' []) hbetween).2 rfl

/-- With patterns that overlap, a word of one of them can be left out. -/
theorem leftOut_recognisable :
    let p : Pattern := .runOf ['b', 'c'] 1
    let lexicon : Lexicon := [(.number, .anyOf [['a', 'b']]), (.operator, p)]
    ∃ ts, lexicon.tokenize ⟨10, 1, 3, some 4300⟩ "abc" = .ok ts ∧ "abc".toList = ['a', 'b'] ++ ['c'] ∧
      LeftOut ts 2 3 ∧ (.operator, p) ∈ lexicon ∧ p.Matches ['c'] := by
  intro p lexicon
  have hrun : lexicon.tokenize ⟨10, 1, 3, some 4300⟩ "abc" = .ok [⟨.number, "ab", some 0⟩] :=
    Lexicon.tokenize_of_pairwise (by decide) (by decide)
  refine ⟨_, hrun, rfl, ?_, List.mem_cons_of_mem _ List.mem_cons_self, by decide⟩
  exact (leftOut_map_token [⟨.number, 0, ['a', 'b']⟩]).2 (by decide)

end ExprCalc
