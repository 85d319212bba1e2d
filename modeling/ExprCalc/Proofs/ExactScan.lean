import ExprCalc.Proofs.IsToken

/-!
# The scan from outside

`ExactScan` says what a list of matches has to look like to be the tokens of a text, without saying
how they are found. The scan looks like that (`Scan.exact`), and no other list does
(`ExactScan.eq`), because such a list consists of all tokens of the text in order.
-/

namespace ExprCalc

/-- The characters of arithmetic. -/
def alphabet : List Char :=
  ['0', '1', '2', '3', '4', '5', '6', '7', '8', '9', '*', '/', '+', '-', '(', ')']

theorem lexicalClass_ne_none_iff {c : Char} : lexicalClass c ≠ none ↔ c ∈ alphabet := by
  have hmem : c ∈ alphabet ↔
      c.isDigit = true ∨ c ∈ ['*', '/', '+', '-'] ∨ c = '(' ∨ c = ')' := by
    rw [← contains_digits]
    simp only [alphabet, List.contains_eq_mem, decide_eq_true_eq, List.mem_cons, List.not_mem_nil,
      or_false, or_assoc]
  rw [hmem, lexicalClass]
  split_ifs <;> simp_all

/-- What the tokens `os` of the text `cs` have to be like: non-empty pieces of it in order and without
overlap, which take up the characters of arithmetic and no other. A maximal run of digits is one
number, a maximal run of stars is cut into pairs from the left, and the other characters are tokens
by themselves. -/
structure ExactScan (cs : List Char) (os : List Occurrence) : Prop where
  slice : ∀ o ∈ os, o.text ≠ [] ∧ o.text <+: cs.drop o.start
  ordered : os.Pairwise fun a b => a.start < b.start ∧ a.stop ≤ b.start
  covered : ∀ i c, cs[i]? = some c → ((∃ o ∈ os, o.Covers i) ↔ c ∈ alphabet)
  numbers : ∀ start stop, (∃ o ∈ os, o.kind = .number ∧ o.start = start ∧ o.stop = stop) ↔
    MaximalRun Char.isDigit cs start stop
  stars : ∀ start stop, MaximalRun isStar cs start stop →
    os.filter (fun o => start ≤ o.start ∧ o.start < stop) = starTokens start (stop - start)
  others : ∀ i c kind, cs[i]? = some c → (c, kind) ∈ singles → ⟨kind, i, [c]⟩ ∈ os

theorem eq_of_mem_iff {as bs : List Occurrence} (ha : as.Pairwise fun a b => a.start < b.start)
    (hb : bs.Pairwise fun a b => a.start < b.start) (h : ∀ o, o ∈ as ↔ o ∈ bs) : as = bs := by
  have hnodup : ∀ {os : List Occurrence}, os.Pairwise (fun a b => a.start < b.start) → os.Nodup :=
    fun hos => hos.imp fun hlt => ne_of_apply_ne Occurrence.start (Nat.ne_of_lt hlt)
  refine List.Perm.eq_of_pairwise (fun a b _ _ hab hba => ?_) ha hb
    ((List.perm_ext_iff_of_nodup (hnodup ha) (hnodup hb)).2 h)
  exact absurd hab (Nat.lt_asymm hba)

theorem Scan.exact {cs : List Char} {os : List Occurrence} (h : Scan 0 cs os) :
    ExactScan cs os := by
  refine ⟨fun o ho => ⟨(h.start_ge o ho).2, h.prefix_drop rfl o ho⟩,
    h.pairwise_start_lt.and h.pairwise_stop_le, fun i c hc => ?_, fun start stop => ?_,
    fun start stop hr => ?_, fun i c kind hc hs => h.mem_iff_isToken.2 (.single hc hs)⟩
  · rw [← lexicalClass_ne_none_iff]
    constructor
    · rintro ⟨o, ho, hi⟩
      obtain ⟨d, hd, hclass⟩ := (h.mem_iff_isToken.1 ho).lexicalClass_ne_none hi
      cases hc.symm.trans hd
      exact hclass
    · intro hclass
      simpa using h.exists_covers hc hclass
  · constructor
    · rintro ⟨o, ho, hk, rfl, rfl⟩
      exact (h.mem_iff_isToken.1 ho).maximalRun_of_number hk
    · exact fun hr => ⟨_, h.mem_iff_isToken.2 (.number hr), rfl, rfl, stop_number hr⟩
  · refine eq_of_mem_iff (h.pairwise_start_lt.filter _) ((starTokens_pairwise _ _).imp And.left)
      fun o => ?_
    simp only [List.mem_filter, decide_eq_true_eq]
    constructor
    · rintro ⟨ho, hin⟩
      exact (h.mem_iff_isToken.1 ho).mem_starTokens_of_run hr hin
    · intro ho
      have htoken : IsToken cs o := .star hr ho
      have hlt := hr.lt
      obtain ⟨h1, h2⟩ := starTokens_covers ho htoken.covers_start
      exact ⟨h.mem_iff_isToken.2 htoken, h1, by omega⟩

namespace ExactScan
variable {cs : List Char} {os os' : List Occurrence} {o : Occurrence}

theorem mem_of_isToken (h : ExactScan cs os) (ho : IsToken cs o) : o ∈ os := by
  cases ho with
  | @number start stop hr =>
    obtain ⟨⟨kind, start', text⟩, ho, rfl, rfl, rfl⟩ := (h.numbers start stop).2 hr
    have htext := List.prefix_iff_eq_take.1 (h.slice _ ho).2
    simp only [Occurrence.stop, Nat.add_sub_cancel_left]
    rwa [← htext]
  | star hr ho =>
    rw [← h.stars _ _ hr] at ho
    exact List.mem_of_mem_filter ho
  | single hc hs => exact h.others _ _ _ hc hs

theorem isToken (h : ExactScan cs os) (ho : o ∈ os) : IsToken cs o := by
  obtain ⟨hne, hprefix⟩ := h.slice o ho
  have hcov : o.Covers o.start :=
    ⟨Nat.le_refl _, Nat.lt_add_of_pos_right (List.length_pos_iff.2 hne)⟩
  have hlt : o.start < cs.length := by
    have := List.length_pos_iff.2 hne
    have := hprefix.length_le
    rw [List.length_drop] at this
    omega
  have hc := List.getElem?_eq_getElem hlt
  have hclass := lexicalClass_ne_none_iff.2 ((h.covered _ _ hc).1 ⟨o, ho, hcov⟩)
  -- the token that the scan has at this place is one of `os`, so it is `o`
  obtain ⟨os', hscan⟩ := exists_scan 0 cs
  obtain ⟨o', ho', hcov'⟩ := hscan.exists_covers hc hclass
  rw [Nat.zero_add] at hcov'
  have htoken := hscan.mem_iff_isToken.1 ho'
  rwa [eq_of_pairwise_stop_le (h.ordered.imp And.right) ho (h.mem_of_isToken htoken) hcov hcov']

theorem eq (h : ExactScan cs os) (h' : ExactScan cs os') : os = os' :=
  eq_of_mem_iff (h.ordered.imp And.left) (h'.ordered.imp And.left)
    fun _ => ⟨fun ho => h'.mem_of_isToken (h.isToken ho), fun ho => h.mem_of_isToken (h'.isToken ho)⟩

end ExactScan

/-- The tokens of a text that is not too long are those of its one exact scan. A longer text has none. -/
theorem tokenize_exactScan (limits : Limits) (s : String) :
    ((s.length : Int) ≤ limits.maxLength →
      ∃ os, Lexicon.arithmetic.tokenize limits s = .ok (os.map Occurrence.token) ∧
        ExactScan s.toList os ∧ ∀ os', ExactScan s.toList os' → os' = os) ∧
    (limits.maxLength < s.length → ∃ f, Lexicon.arithmetic.tokenize limits s = .error f ∧
      f.kind = .limit ∧ f.code = "TOO_LONG") := by
  constructor
  · intro hl
    obtain ⟨os, hos⟩ := exists_scan 0 s.toList
    exact ⟨os, hos.tokenize_eq hl, hos.exact, fun os' h => h.eq hos.exact⟩
  · intro hl
    refine ⟨.tooLong limits.maxLength, ?_, rfl, rfl⟩
    simp only [Lexicon.tokenize, Lexicon.scan, if_pos hl]
    rfl

end ExprCalc
