import ExprCalc.Calculator
import Mathlib.Data.List.Nodup
import Mathlib.Data.List.TakeWhile

/-!
# Scanning arithmetic text

`Scan` reads a text from left to right: a character of no lexical class is skipped, and otherwise the
longest possible token is taken (`Munch`). The lexicon instead searches the text once for every kind
of token, puts the matches in order and drops those that overlap. For arithmetic both find the same
matches (`Scan.selection_eq`): since no character belongs to two classes, the search for one kind
finds the tokens of that kind and nothing else (`Scan.occurrencesFrom_eq`), and nothing is dropped.
-/

namespace ExprCalc

/-- The kind of the tokens that `c` occurs in. -/
def lexicalClass (c : Char) : Option TokenKind :=
  if c.isDigit then some .number
  else if c ∈ ['*', '/', '+', '-'] then some .operator
  else if c = '(' then some .leftParen
  else if c = ')' then some .rightParen
  else none

/-- `text` is the first token of `text ++ rest`. -/
inductive Munch : TokenKind → (text rest : List Char) → Prop
  | number {ds rest : List Char} : ds ≠ [] → (∀ c ∈ ds, c.isDigit = true) →
      (∀ c ∈ rest.head?, c.isDigit = false) → Munch .number ds rest
  | operator {rest : List Char} (op : Operator) : (op = .mul → rest.head? ≠ some '*') →
      Munch .operator op.lexeme.toList rest
  | leftParen {rest : List Char} : Munch .leftParen ['('] rest
  | rightParen {rest : List Char} : Munch .rightParen [')'] rest

/-- The tokens of a text that begins at offset `pos`, read from left to right. -/
inductive Scan : (pos : Nat) → List Char → List Occurrence → Prop
  | done {pos : Nat} : Scan pos [] []
  | skip {pos : Nat} {c : Char} {cs : List Char} {os : List Occurrence} :
      lexicalClass c = none → Scan (pos + 1) cs os → Scan pos (c :: cs) os
  | token {pos : Nat} {kind : TokenKind} {text rest : List Char} {os : List Occurrence} :
      Munch kind text rest → Scan (pos + text.length) rest os →
      Scan pos (text ++ rest) (⟨kind, pos, text⟩ :: os)

namespace Munch
variable {kind : TokenKind} {text rest : List Char}

theorem digit {c : Char} (hc : c.isDigit = true) (hrest : rest.head?.any Char.isDigit = false) :
    Munch .number [c] rest := by
  refine .number (List.cons_ne_nil _ _) (List.forall_mem_singleton.2 hc) fun d hd => ?_
  rwa [Option.mem_def.1 hd] at hrest

theorem isDigit (h : Munch .number text rest) : ∀ c ∈ text, c.isDigit = true := by
  cases h with
  | number _ hd => exact hd

theorem exists_operator (h : Munch .operator text rest) :
    ∃ op : Operator, text = op.lexeme.toList := by
  cases h with
  | operator op => exact ⟨op, rfl⟩

theorem eq_leftParen (h : Munch .leftParen text rest) : text = ['('] := by
  cases h
  rfl

theorem eq_rightParen (h : Munch .rightParen text rest) : text = [')'] := by
  cases h
  rfl

theorem ne_nil (h : Munch kind text rest) : text ≠ [] := by
  cases h with
  | number hne => exact hne
  | operator op => cases op <;> decide
  | leftParen | rightParen => exact List.cons_ne_nil _ _

theorem lexicalClass_eq (h : Munch kind text rest) : ∀ c ∈ text, lexicalClass c = some kind := by
  intro c hc
  cases h with
  | number _ hd => rw [lexicalClass, if_pos (hd c hc)]
  | operator op =>
    cases op <;> simp [Operator.lexeme] at hc
    all_goals
      rw [hc]
      rfl
  | leftParen | rightParen =>
    rw [List.mem_singleton.1 hc]
    rfl

end Munch

/-! ### The patterns of arithmetic -/

theorem contains_digits (c : Char) :
    ['0', '1', '2', '3', '4', '5', '6', '7', '8', '9'].contains c = c.isDigit := by
  rw [Bool.eq_iff_iff]
  simp [Char.isDigit, Char.ext_iff, UInt32.le_iff_toNat_le, ← UInt32.toNat_inj]
  omega

section
variable {entry : TokenKind × Pattern}

theorem found_nil (he : entry ∈ Lexicon.arithmetic) : entry.2.found [] = [] := by
  simp only [Lexicon.arithmetic, List.mem_cons, List.not_mem_nil, or_false] at he
  rcases he with rfl | rfl | rfl | rfl <;> rfl

/-- No pattern matches in front of a character of another class. -/
theorem found_eq_nil (he : entry ∈ Lexicon.arithmetic) {c : Char}
    (hc : lexicalClass c ≠ some entry.1) (cs : List Char) : entry.2.found (c :: cs) = [] := by
  have hnil : entry.2.lengths (c :: cs) = [] := by
    simp only [Lexicon.arithmetic, List.mem_cons, List.not_mem_nil, or_false] at he
    rcases he with rfl | rfl | rfl | rfl
    · have hd : c.isDigit = false := by
        by_contra hd
        exact hc (if_pos (by simpa using hd))
      simp only [Pattern.lengths, List.takeWhile_cons, contains_digits, hd]
      rfl
    · have ho : c ∉ ['*', '/', '+', '-'] := by
        intro ho
        have hd : ¬ c.isDigit := by
          simp only [List.mem_cons, List.not_mem_nil, or_false] at ho
          rcases ho with rfl | rfl | rfl | rfl <;> decide
        exact hc (by rw [lexicalClass, if_neg hd, if_pos ho])
      simp only [List.mem_cons, List.not_mem_nil, or_false, not_or] at ho
      obtain ⟨h1, h2, h3, h4⟩ := ho
      simp [Pattern.lengths, Ne.symm h1, Ne.symm h2, Ne.symm h3, Ne.symm h4]
    · have hp : c ≠ '(' := by
        rintro rfl
        exact hc rfl
      simp [Pattern.lengths, hp.symm]
    · have hp : c ≠ ')' := by
        rintro rfl
        exact hc rfl
      simp [Pattern.lengths, hp.symm]
  rw [Pattern.found, hnil]

/-- The pattern of a kind finds the first token of that kind, whole. -/
theorem found_of_munch (he : entry ∈ Lexicon.arithmetic) {text rest : List Char}
    (h : Munch entry.1 text rest) : entry.2.found (text ++ rest) = [text.length] := by
  simp only [Lexicon.arithmetic, List.mem_cons, List.not_mem_nil, or_false] at he
  rcases he with rfl | rfl | rfl | rfl
  · cases h with
    | number hne hd hrest =>
      have htake : (text ++ rest).takeWhile Char.isDigit = text := by
        rw [List.takeWhile_append_of_pos hd]
        cases rest with
        | nil => simp
        | cons c rest => simp [hrest c rfl]
      obtain ⟨n, hn⟩ := Nat.exists_eq_succ_of_ne_zero (Nat.ne_of_gt (List.length_pos_iff.2 hne))
      have hlen : Pattern.lengths (.runOf ['0', '1', '2', '3', '4', '5', '6', '7', '8', '9'] 1)
          (text ++ rest) = [n + 1] := by
        rw [Pattern.lengths, funext contains_digits, htake, hn,
          if_pos (Nat.succ_le_succ (Nat.zero_le n))]
      simp only [Pattern.found, hlen, hn]
  · cases h with
    | operator op hop =>
      cases op with
      | mul =>
        cases rest with
        | nil => rfl
        | cons c rest =>
          have hc : c ≠ '*' := fun h => hop rfl (by rw [h]; rfl)
          simp [Operator.lexeme, Pattern.found, Pattern.lengths, hc.symm]
      | pow | div | add | sub =>
        simp [Operator.lexeme, Pattern.found, Pattern.lengths]
  · cases h
    simp [Pattern.found, Pattern.lengths]
  · cases h
    simp [Pattern.found, Pattern.lengths]

end

/-! ### One search -/

namespace Pattern
variable {p : Pattern}

theorem searchFrom_skip (text rest : List Char) (pos : Nat) :
    p.searchFrom pos text.length (text ++ rest) = p.searchFrom (pos + text.length) 0 rest := by
  induction text generalizing pos with
  | nil => rfl
  | cons c text ih =>
    rw [List.length_cons, List.cons_append, searchFrom, ih, Nat.add_right_comm, Nat.add_assoc]

/-- A search passes over characters that no match begins with. -/
theorem searchFrom_of_found_eq_nil {text : List Char} (h : ∀ c ∈ text, ∀ cs, p.found (c :: cs) = [])
    (rest : List Char) (pos : Nat) :
    p.searchFrom pos 0 (text ++ rest) = p.searchFrom (pos + text.length) 0 rest := by
  induction text generalizing pos with
  | nil => rfl
  | cons c text ih =>
    rw [List.cons_append, searchFrom, h c List.mem_cons_self]
    show [] ++ p.searchFrom (pos + 1) 0 (text ++ rest) = _
    rw [List.nil_append, ih fun c hc => h c (List.mem_cons_of_mem _ hc), List.length_cons,
      Nat.add_right_comm, Nat.add_assoc]

theorem searchFrom_of_found {text : List Char} (hne : text ≠ []) (rest : List Char) (pos : Nat)
    (h : p.found (text ++ rest) = [text.length]) :
    p.searchFrom pos 0 (text ++ rest) = (pos, text) :: p.searchFrom (pos + text.length) 0 rest := by
  obtain ⟨c, text, rfl⟩ := List.exists_cons_of_ne_nil hne
  rw [List.cons_append] at h ⊢
  rw [searchFrom, h]
  show (pos, (c :: (text ++ rest)).take (text.length + 1)) ::
    p.searchFrom (pos + 1) text.length (text ++ rest) = _
  rw [searchFrom_skip, List.take_succ_cons, List.take_left, List.length_cons, Nat.add_right_comm,
    Nat.add_assoc]

end Pattern

/-- The non-empty matches of an entry in a text that begins at offset `pos`. -/
def occurrencesFrom (entry : TokenKind × Pattern) (pos : Nat) (cs : List Char) : List Occurrence :=
  ((entry.2.searchFrom pos 0 cs).filter (!·.2.isEmpty)).map
    fun (start, text) => ⟨entry.1, start, text⟩

namespace Scan
variable {pos : Nat} {cs : List Char} {os : List Occurrence}

/-- The search for one kind finds the tokens of that kind. -/
theorem occurrencesFrom_eq (h : Scan pos cs os) {entry : TokenKind × Pattern}
    (he : entry ∈ Lexicon.arithmetic) :
    occurrencesFrom entry pos cs = os.filter (·.kind = entry.1) := by
  induction h with
  | done => simp [occurrencesFrom, Pattern.searchFrom, found_nil he]
  | @skip pos c cs os hc _ ih =>
    have hnil : ∀ d ∈ [c], ∀ cs, entry.2.found (d :: cs) = [] := by
      intro d hd cs
      cases List.mem_singleton.1 hd
      exact found_eq_nil he (by rw [hc]; nofun) cs
    rw [← ih, occurrencesFrom, ← List.singleton_append,
      Pattern.searchFrom_of_found_eq_nil hnil]
    rfl
  | @token pos kind text rest os hm _ ih =>
    by_cases hk : kind = entry.1
    · subst hk
      rw [occurrencesFrom, Pattern.searchFrom_of_found hm.ne_nil _ _ (found_of_munch he hm)]
      simp [← ih, occurrencesFrom, hm.ne_nil]
    · have hnil : ∀ c ∈ text, ∀ cs, entry.2.found (c :: cs) = [] := by
        intro c hc cs
        exact found_eq_nil he (by rw [hm.lexicalClass_eq c hc]; simpa using hk) cs
      rw [occurrencesFrom, Pattern.searchFrom_of_found_eq_nil hnil]
      simpa [hk, occurrencesFrom] using ih

theorem start_ge (h : Scan pos cs os) : ∀ o ∈ os, pos ≤ o.start ∧ o.text ≠ [] := by
  induction h with
  | done => nofun
  | skip _ _ ih => exact fun o ho => ⟨Nat.le_of_succ_le (ih o ho).1, (ih o ho).2⟩
  | token hm _ ih =>
    intro o ho
    rcases List.mem_cons.1 ho with rfl | ho
    · exact ⟨Nat.le_refl _, hm.ne_nil⟩
    · exact ⟨Nat.le_of_add_right_le (ih o ho).1, (ih o ho).2⟩

theorem pairwise_stop_le (h : Scan pos cs os) : os.Pairwise fun a b => a.stop ≤ b.start := by
  induction h with
  | done => exact .nil
  | skip _ _ ih => exact ih
  | token _ hs ih => exact .cons (fun o ho => (hs.start_ge o ho).1) ih

theorem pairwise_start_lt (h : Scan pos cs os) : os.Pairwise fun a b => a.start < b.start := by
  refine h.pairwise_stop_le.imp_of_mem fun {a b} ha _ hab => ?_
  have := List.length_pos_iff.2 (h.start_ge a ha).2
  simp only [Occurrence.stop] at hab
  omega

end Scan

/-! ### All searches together -/

theorem Occurrence.precedes_trans (a b c : Occurrence) (hab : precedes a b = true)
    (hbc : precedes b c = true) : precedes a c = true := by
  simp only [precedes, Bool.or_eq_true, Bool.and_eq_true, decide_eq_true_eq, beq_iff_eq] at *
  omega

theorem Occurrence.precedes_total (a b : Occurrence) : (precedes a b || precedes b a) = true := by
  simp only [precedes, Bool.or_eq_true, Bool.and_eq_true, decide_eq_true_eq, beq_iff_eq]
  omega

/-- Matches that do not overlap are all taken. -/
theorem Occurrence.disjoint_eq_self {cursor : Nat} {os : List Occurrence}
    (h : os.Pairwise fun a b => a.stop ≤ b.start) (hc : ∀ o ∈ os, cursor ≤ o.start) :
    disjoint cursor os = os := by
  induction h generalizing cursor with
  | nil => rfl
  | @cons o os ho _ ih =>
    have hle := hc o List.mem_cons_self
    rw [disjoint, if_neg (by omega), ih ho]

theorem perm_flatMap_filter_kind (os : List Occurrence) :
    (Lexicon.arithmetic.flatMap fun entry => os.filter (·.kind = entry.1)).Perm os := by
  rw [List.perm_iff_count]
  intro o
  simp only [Lexicon.arithmetic, List.flatMap_cons, List.flatMap_nil, List.count_append,
    List.append_nil]
  obtain ⟨kind, start, text⟩ := o
  have hcount : ∀ k : TokenKind, (os.filter (·.kind = k)).count ⟨kind, start, text⟩ =
      if kind = k then os.count ⟨kind, start, text⟩ else 0 := by
    intro k
    split
    · next hk => exact List.count_filter (by simpa using hk)
    · next hk =>
      refine List.count_eq_zero_of_not_mem fun hmem => hk ?_
      simpa using (List.mem_filter.1 hmem).2
  simp only [hcount]
  cases kind <;> simp

namespace Scan
variable {cs : List Char} {os : List Occurrence}

theorem candidates_eq (h : Scan 0 cs os) : Lexicon.arithmetic.candidates cs = os := by
  have hmap : Lexicon.arithmetic.flatMap (Lexicon.occurrences · cs) =
      Lexicon.arithmetic.flatMap fun entry => os.filter (·.kind = entry.1) :=
    List.flatMap_congr fun entry he => h.occurrencesFrom_eq he
  have hperm : (Lexicon.arithmetic.candidates cs).Perm os := by
    unfold Lexicon.candidates
    rw [hmap]
    exact (List.mergeSort_perm _ _).trans (perm_flatMap_filter_kind os)
  have hle : os.Pairwise fun a b => Occurrence.precedes a b = true :=
    h.pairwise_start_lt.imp fun hab => by simp [Occurrence.precedes, hab]
  refine List.Perm.eq_of_pairwise ?_
    (List.pairwise_mergeSort Occurrence.precedes_trans Occurrence.precedes_total _) hle hperm
  intro a b ha hb hab hba
  have hstart : a.start = b.start := by
    simp only [Occurrence.precedes, Bool.or_eq_true, Bool.and_eq_true, decide_eq_true_eq,
      beq_iff_eq] at hab hba
    omega
  have hnodup : (os.map Occurrence.start).Nodup :=
    List.pairwise_map.2 (h.pairwise_start_lt.imp Nat.ne_of_lt)
  exact List.inj_on_of_nodup_map hnodup (hperm.subset ha) hb hstart

theorem selection_eq (h : Scan 0 cs os) : Lexicon.arithmetic.selection cs = os := by
  rw [Lexicon.selection, h.candidates_eq]
  exact Occurrence.disjoint_eq_self h.pairwise_stop_le fun o ho => (h.start_ge o ho).1

end Scan

/-! ### Tokens -/

theorem filterMap_token?_cut (pos : Nat) (cs : List Char) (os : List Occurrence) :
    (Segment.cut pos cs os).filterMap Segment.token? = os.map Occurrence.token := by
  induction os generalizing pos cs with
  | nil => rfl
  | cons o os ih =>
    show o.token :: (Segment.cut o.stop _ os).filterMap Segment.token? = _
    rw [ih, List.map_cons]

theorem exists_munch {kind : TokenKind} {c : Char} (hc : lexicalClass c = some kind)
    (cs : List Char) : ∃ text rest, c :: cs = text ++ rest ∧ Munch kind text rest := by
  unfold lexicalClass at hc
  split_ifs at hc with hd ho hl hr
  · cases hc
    refine ⟨(c :: cs).takeWhile Char.isDigit, (c :: cs).dropWhile Char.isDigit,
      List.takeWhile_append_dropWhile.symm, .number ?_ (fun d hd => ?_) (fun d hd => ?_)⟩
    · simp [hd]
    · exact List.mem_takeWhile_imp hd
    · have := List.head?_dropWhile_not Char.isDigit (c :: cs)
      rw [Option.mem_def.1 hd] at this
      simpa using this
  · cases hc
    simp only [List.mem_cons, List.not_mem_nil, or_false] at ho
    rcases ho with rfl | rfl | rfl | rfl
    · by_cases hs : cs.head? = some '*'
      · obtain ⟨cs, rfl⟩ := List.head?_eq_some_iff.1 hs
        exact ⟨_, cs, rfl, .operator .pow nofun⟩
      · exact ⟨_, cs, rfl, .operator .mul fun _ => hs⟩
    · exact ⟨_, cs, rfl, .operator .div nofun⟩
    · exact ⟨_, cs, rfl, .operator .add nofun⟩
    · exact ⟨_, cs, rfl, .operator .sub nofun⟩
  · cases hc
    exact ⟨_, cs, hl ▸ rfl, .leftParen⟩
  · cases hc
    exact ⟨_, cs, hr ▸ rfl, .rightParen⟩

theorem exists_scan (pos : Nat) (cs : List Char) : ∃ os, Scan pos cs os := by
  induction hn : cs.length using Nat.strongRecOn generalizing pos cs with
  | _ n ih =>
    subst hn
    cases cs with
    | nil => exact ⟨[], .done⟩
    | cons c cs =>
      cases hc : lexicalClass c with
      | none =>
        obtain ⟨os, h⟩ := ih cs.length (Nat.lt_succ_self _) (pos + 1) cs rfl
        exact ⟨os, .skip hc h⟩
      | some kind =>
        obtain ⟨text, rest, heq, hm⟩ := exists_munch hc cs
        have hlt : rest.length < (c :: cs).length := by
          have := List.length_pos_iff.2 hm.ne_nil
          rw [heq, List.length_append]
          omega
        obtain ⟨os, h⟩ := ih rest.length hlt (pos + text.length) rest rfl
        exact ⟨⟨kind, pos, text⟩ :: os, by rw [heq]; exact .token hm h⟩

theorem Scan.munch {pos : Nat} {cs : List Char} {os : List Occurrence} (h : Scan pos cs os) :
    ∀ o ∈ os, ∃ rest, Munch o.kind o.text rest := by
  induction h with
  | done => nofun
  | skip _ _ ih => exact ih
  | token hm _ ih =>
    intro o ho
    rcases List.mem_cons.1 ho with rfl | ho
    · exact ⟨_, hm⟩
    · exact ih o ho

section
variable {limits : Limits} {s : String}

theorem Scan.tokenize_eq {os : List Occurrence} (h : Scan 0 s.toList os)
    (hl : (s.length : Int) ≤ limits.maxLength) :
    Lexicon.arithmetic.tokenize limits s = .ok (os.map Occurrence.token) := by
  simp only [Lexicon.tokenize, Lexicon.scan, if_neg (Int.not_lt.2 hl), Lexicon.segments,
    h.selection_eq]
  exact congrArg Except.ok (filterMap_token?_cut 0 s.toList os)

theorem tokenize_eq_tooLong (hl : limits.maxLength < s.length) :
    Lexicon.arithmetic.tokenize limits s = .error (.tooLong limits.maxLength) := by
  simp only [Lexicon.tokenize, Lexicon.scan, if_pos hl]
  rfl

/-- A text is only refused for its length. -/
theorem tokenize_eq_error {f : Fault} (h : Lexicon.arithmetic.tokenize limits s = .error f) :
    f = .tooLong limits.maxLength := by
  by_cases hl : limits.maxLength < s.length
  · exact (Except.error.inj ((tokenize_eq_tooLong hl).symm.trans h)).symm
  · obtain ⟨os, hos⟩ := exists_scan 0 s.toList
    cases (hos.tokenize_eq (Int.not_lt.1 hl)).symm.trans h

theorem tokenize_eq_ok {ts : List Token} (h : Lexicon.arithmetic.tokenize limits s = .ok ts) :
    (s.length : Int) ≤ limits.maxLength ∧
      ∃ os, Scan 0 s.toList os ∧ ts = os.map Occurrence.token := by
  have hl : (s.length : Int) ≤ limits.maxLength := by
    by_contra hl
    simp only [Lexicon.tokenize, Lexicon.scan, if_pos (Int.not_le.1 hl)] at h
    cases h
  obtain ⟨os, hos⟩ := exists_scan 0 s.toList
  rw [hos.tokenize_eq hl] at h
  exact ⟨hl, os, hos, (Except.ok.inj h).symm⟩

theorem munch_of_mem_tokens {ts : List Token} (h : Lexicon.arithmetic.tokenize limits s = .ok ts) :
    ∀ t ∈ ts, ∃ rest, Munch t.kind t.lexeme.toList rest := by
  obtain ⟨-, os, hos, rfl⟩ := tokenize_eq_ok h
  intro t ht
  obtain ⟨o, ho, rfl⟩ := List.mem_map.1 ht
  obtain ⟨rest, hm⟩ := hos.munch o ho
  exact ⟨rest, by rw [Occurrence.token, String.toList_ofList]; exact hm⟩

section
variable {ts : List Token} {t : Token}

theorem exists_operator_of_mem_tokens (h : Lexicon.arithmetic.tokenize limits s = .ok ts)
    (ht : t ∈ ts) (hk : t.kind = .operator) : ∃ op, Operator.ofLexeme? t.lexeme = some op := by
  obtain ⟨_, hm⟩ := munch_of_mem_tokens h t ht
  rw [hk] at hm
  obtain ⟨op, hop⟩ := hm.exists_operator
  exact ⟨op, by rw [String.toList_inj.1 hop, Operator.ofLexeme?_lexeme]⟩

theorem isDigit_of_mem_tokens (h : Lexicon.arithmetic.tokenize limits s = .ok ts) (ht : t ∈ ts)
    (hk : t.kind = .number) :
    t.lexeme.toList ≠ [] ∧ ∀ c ∈ t.lexeme.toList, c.isDigit = true := by
  obtain ⟨_, hm⟩ := munch_of_mem_tokens h t ht
  rw [hk] at hm
  exact ⟨hm.ne_nil, hm.isDigit⟩

end

end

end ExprCalc
