import ExprCalc.Proofs.TextFault

/-!
# Validation, character by character

To validate a text is to convert its tokens. Of the text this sees no more than the parentheses: the
`(` that wait in the yard are the characters that are `Open` in what has been read, each at its own
offset (`Yard.Mirrors`). So a text passes if its parentheses are balanced, and otherwise the first `)`
that is stray is named, or else the last `(` that is never closed (`Mismatch`).
-/

namespace ExprCalc

def charSide (c : Char) : Side :=
  if c = '(' then .opening else if c = ')' then .closing else .inner

/-- What is said about a text whose parentheses do not match. Positions are offsets in the text. -/
inductive Mismatch (cs : List Char) : String → Prop
  | right {before : List Char} : FirstAt (Stray charSide) cs before ')' →
      Mismatch cs ("Unmatched ')' at position " ++ decimal before.length)
  | left {before after : List Char} : Never (Stray charSide) cs → cs = before ++ '(' :: after →
      Dangling charSide '(' after →
      Mismatch cs ("Unmatched '(' at position " ++ decimal before.length)

/-- In a yard that has read this text the `(` that wait are those open in the text. -/
structure Yard.Mirrors (read : List Char) (y : Yard) : Prop where
  ranked : Ranked .arithmetic y.waiting
  opened : ∃ opened, Open charSide read opened ∧
    y.opened.map Token.position = opened.map fun p => some (p.2 : Int)

theorem charSide_eq_inner {c : Char} (hl : lexicalClass c ≠ some .leftParen)
    (hr : lexicalClass c ≠ some .rightParen) : charSide c = .inner := by
  have hlp : c ≠ '(' := by
    rintro rfl
    exact hl rfl
  have hrp : c ≠ ')' := by
    rintro rfl
    exact hr rfl
  rw [charSide, if_neg hlp, if_neg hrp]

section
variable {cs : List Char} {m m' : String}

theorem Mismatch.not_balanced (h : Mismatch cs m) : ¬ Balanced charSide cs := by
  intro hb
  cases h with
  | right hat =>
    obtain ⟨⟨after, hcs⟩, hstray, -⟩ := hat
    exact (Open.balanced hb).never_stray _ _ after hcs hstray
  | left _ hcs hdangling => exact hdangling.2.1 (hb.allClosed _ _ _ hcs hdangling.1)

theorem Mismatch.unique (h : Mismatch cs m) (h' : Mismatch cs m') : m = m' := by
  cases h with
  | right hat =>
    cases h' with
    | right hat' => rw [(hat.unique hat').1]
    | left hnever =>
      obtain ⟨⟨after, hcs⟩, hstray, -⟩ := hat
      exact absurd hstray (hnever _ _ after hcs)
  | left hnever hcs hdangling =>
    cases h' with
    | right hat' =>
      obtain ⟨⟨after, hcs⟩, hstray, -⟩ := hat'
      exact absurd hstray (hnever _ _ after hcs)
    | left _ hcs' hdangling' => rw [(hdangling.unique hdangling' (hcs.symm.trans hcs')).1]

end

theorem Munch.charSide_eq_inner {kind : TokenKind} {text rest : List Char}
    (hm : Munch kind text rest) (hk : kind = .number ∨ kind = .operator) :
    ∀ c ∈ text, charSide c = .inner := by
  intro c hc
  have hclass := hm.lexicalClass_eq c hc
  rcases hk with rfl | rfl <;> exact ExprCalc.charSide_eq_inner (by simp [hclass]) (by simp [hclass])

/-! ### Reading -/

namespace Yard.Mirrors
variable {read text rest : List Char} {y : Yard} {kind : TokenKind} {os : List Occurrence}

theorem skip {c : Char} (h : Mirrors read y) (hc : charSide c = .inner) :
    Mirrors (read ++ [c]) y := by
  obtain ⟨opened, hopen, hpos⟩ := h.opened
  exact ⟨h.ranked, opened, hopen.append (.inner hc .nil), hpos⟩

/-- One token, whose offset is the length of what has been read. -/
theorem token (h : Mirrors read y) (hm : Munch kind text rest) :
    (∃ y', step .arithmetic y (Occurrence.token ⟨kind, read.length, text⟩) = .ok y' ∧
      Mirrors (read ++ text) y') ∨
    text = [')'] ∧ Open charSide read [] ∧
      step .arithmetic y (Occurrence.token ⟨kind, read.length, text⟩) =
        .error (.unmatchedRight (some (read.length : Int))) := by
  obtain ⟨opened, hopen, hpos⟩ := h.opened
  have hmove := step_move h.ranked (Occurrence.token ⟨kind, read.length, text⟩)
  cases hs : step .arithmetic y (Occurrence.token ⟨kind, read.length, text⟩) with
  | error f =>
    rw [hs] at hmove
    cases hmove with
    | unknown ho hnone =>
      obtain rfl : kind = .operator := ho
      obtain ⟨op, rfl⟩ := hm.exists_operator
      have hlexeme : (Occurrence.token ⟨.operator, read.length, op.lexeme.toList⟩).lexeme = op.lexeme :=
        String.ofList_toList
      rw [hlexeme, op.lookup_lexeme] at hnone
      cases hnone
    | unmatched hr hall =>
      obtain rfl : kind = .rightParen := hr
      cases hm
      have hnone : y.opened = [] := filter_leftParen_eq_nil hall
      rw [hnone] at hpos
      obtain rfl := List.map_eq_nil_iff.1 hpos.symm
      exact .inr ⟨rfl, hopen, rfl⟩
  | ok y' =>
    rw [hs] at hmove
    refine .inl ⟨y', rfl, hmove.ranked h.ranked, ?_⟩
    cases kind with
    | number | operator =>
      have hsame : some y.opened = some y'.opened := hmove.nest_opened
      rw [← Option.some.inj hsame]
      exact ⟨opened, hopen.append (.of_inner (hm.charSide_eq_inner (by simp))), hpos⟩
    | leftParen =>
      cases hm
      have hpush : some (Occurrence.token ⟨.leftParen, read.length, ['(']⟩ :: y.opened) =
          some y'.opened := hmove.nest_opened
      refine ⟨('(', read.length) :: opened, hopen.opening rfl, ?_⟩
      rw [← Option.some.inj hpush, List.map_cons, hpos]
      rfl
    | rightParen =>
      cases hm
      have hpop : y.opened.tail? = some y'.opened := hmove.nest_opened
      -- a `(` waits, so one is open in the text, at the same offset
      cases opened with
      | nil =>
        rw [List.map_eq_nil_iff.1 hpos] at hpop
        cases hpop
      | cons p opened =>
        obtain ⟨w, ws, hw, -, hws⟩ := List.map_eq_cons_iff.1 hpos
        rw [hw] at hpop
        cases hpop
        exact ⟨opened, hopen.closing rfl, hws⟩

/-- The rest of the text: it is read to its end, or up to a `)` in front of which all is closed. -/
theorem run (h : Mirrors read y) (hs : Scan read.length rest os) :
    (∃ y', (os.map Occurrence.token).foldlM (step .arithmetic) y = .ok y' ∧
      Mirrors (read ++ rest) y') ∨
    ∃ mid after, rest = mid ++ ')' :: after ∧ Open charSide (read ++ mid) [] ∧
      (os.map Occurrence.token).foldlM (step .arithmetic) y =
        .error (.unmatchedRight (some ((read ++ mid).length : Int))) := by
  -- induction on the scan; what has been read grows by the characters that it takes
  generalize hpos : read.length = pos at hs
  induction hs generalizing read y with
  | done => exact .inl ⟨y, rfl, by rwa [List.append_nil]⟩
  | @skip pos c cs os hc _ ih =>
    have hinner : charSide c = .inner := charSide_eq_inner (by simp [hc]) (by simp [hc])
    rcases ih (h.skip hinner) (by simp [hpos]) with ⟨y', hrun, hy'⟩ | ⟨mid, after, rfl, hopen, hrun⟩
    · rw [List.append_assoc, List.singleton_append] at hy'
      exact .inl ⟨y', hrun, hy'⟩
    · rw [List.append_assoc, List.singleton_append] at hopen hrun
      exact .inr ⟨c :: mid, after, rfl, hopen, hrun⟩
  | @token pos kind text rest os hm _ ih =>
    subst hpos
    rcases h.token hm with ⟨y', hstep, hy'⟩ | ⟨rfl, hopen, hstep⟩
    · rcases ih hy' (by simp) with ⟨z, hrun, hz⟩ | ⟨mid, after, rfl, hopen, hrun⟩
      · rw [List.append_assoc] at hz
        exact .inl ⟨z, foldlM_cons_eq_ok.2 ⟨y', hstep, hrun⟩, hz⟩
      · rw [List.append_assoc] at hopen hrun
        refine .inr ⟨text ++ mid, after, by rw [List.append_assoc], hopen, ?_⟩
        rw [List.map_cons, List.foldlM_cons, hstep]
        exact hrun
    · refine .inr ⟨[], rest, rfl, by rwa [List.append_nil], ?_⟩
      rw [List.map_cons, List.foldlM_cons, hstep, List.append_nil]
      rfl

end Yard.Mirrors

/-! ### The whole text -/

namespace Fault

theorem message_unmatchedRight (offset : Nat) : (unmatchedRight (some (offset : Int))).message =
    "Unmatched ')' at position " ++ decimal offset := by
  have hjoin := join_place "Unmatched ')'" (some (offset : Int))
  rw [atPosition, ← String.append_assoc] at hjoin
  exact hjoin

theorem message_unmatchedLeft (offset : Nat) : (unmatchedLeft (some (offset : Int))).message =
    "Unmatched '(' at position " ++ decimal offset := by
  have hjoin := join_place "Unmatched '('" (some (offset : Int))
  rw [atPosition, ← String.append_assoc] at hjoin
  exact hjoin

theorem message_tooLong (n : Int) : (tooLong n).message =
    "Input too long (max " ++ decimal n ++ " characters)" := by
  simp [message, parts, String.join]

end Fault

theorem eq_leftParen_of_charSide {c : Char} (h : charSide c = .opening) : c = '(' := by
  unfold charSide at h
  split_ifs at h with hc
  exact hc

/-- The conversion of a text succeeds if its parentheses are balanced, and names what is wrong with
them otherwise. -/
theorem Scan.toPostfix_cases {cs : List Char} {os : List Occurrence} (h : Scan 0 cs os) :
    (Balanced charSide cs ∧ ∃ ps, toPostfix .arithmetic (os.map Occurrence.token) = .ok ps) ∨
    ∃ f, toPostfix .arithmetic (os.map Occurrence.token) = .error f ∧ Mismatch cs f.message := by
  have hstart : Yard.Mirrors [] Yard.empty := ⟨nofun, [], .balanced .nil, rfl⟩
  unfold toPostfix
  rcases hstart.run h with ⟨y, hrun, hy⟩ | ⟨mid, after, hcs, hopen, hrun⟩
  · rw [hrun]
    obtain ⟨opened, hopen, hpos⟩ := hy.opened
    cases opened with
    | nil =>
      have hnone : y.opened = [] := List.map_eq_nil_iff.1 hpos
      exact .inl ⟨hopen.balanced_of_nil, Yard.exists_finish_iff.2 hnone⟩
    | cons p opened =>
      obtain ⟨c, offset⟩ := p
      obtain ⟨w, ws, hw, hwpos, -⟩ := List.map_eq_cons_iff.1 hpos
      obtain ⟨before, after, hcs, rfl, hdangling⟩ := hopen.dangling
      obtain rfl := eq_leftParen_of_charSide hdangling.1
      refine .inr ⟨_, Yard.finish_eq_error_iff.2 ⟨w, ws, hw, rfl⟩, ?_⟩
      rw [hwpos, Fault.message_unmatchedLeft]
      exact .left hopen.never_stray hcs hdangling
  · rw [hrun]
    refine .inr ⟨_, rfl, ?_⟩
    rw [Fault.message_unmatchedRight]
    have hstray : Stray charSide mid ')' := ⟨rfl, hopen.allClosed_iff.2 rfl⟩
    exact .right ⟨⟨after, hcs⟩, hstray, hopen.never_stray⟩

theorem Scan.exists_kind_iff {pos : Nat} {cs : List Char} {os : List Occurrence}
    (h : Scan pos cs os) (k : TokenKind) :
    (∃ o ∈ os, o.kind = k) ↔ ∃ c ∈ cs, lexicalClass c = some k := by
  induction h with
  | done => simp
  | skip hc _ ih => simp [ih, hc]
  | @token pos kind text rest os hm _ ih =>
    have htext : (∃ c ∈ text, lexicalClass c = some k) ↔ kind = k := by
      constructor
      · rintro ⟨c, hc, hk⟩
        rw [hm.lexicalClass_eq c hc] at hk
        exact Option.some.inj hk
      · rintro rfl
        obtain ⟨c, hc⟩ := List.exists_mem_of_ne_nil text hm.ne_nil
        exact ⟨c, hc, hm.lexicalClass_eq c hc⟩
    have hcons : (∃ o ∈ Occurrence.mk kind pos text :: os, o.kind = k) ↔
        kind = k ∨ ∃ o ∈ os, o.kind = k := by simp
    rw [hcons, ih, ← htext]
    simp [or_and_right, exists_or]

/-- The characters of numbers and operators. -/
theorem mem_arithmetic_iff {c : Char} : c ∈ "0123456789+-*/".toList ↔
    lexicalClass c = some .number ∨ lexicalClass c = some .operator := by
  have hchars : "0123456789+-*/".toList =
      ['0', '1', '2', '3', '4', '5', '6', '7', '8', '9'] ++ ['+', '-', '*', '/'] := rfl
  have hoperator : c ∈ ['+', '-', '*', '/'] ↔ c ∈ ['*', '/', '+', '-'] := by
    simp only [List.mem_cons, List.not_mem_nil, or_false]
    tauto
  rw [hchars, List.mem_append, ← List.contains_iff_mem, contains_digits, hoperator]
  unfold lexicalClass
  split_ifs with hd ho hl hr
  · simp [hd]
  · simp [ho]
  all_goals simp [hd, ho]

theorem Scan.filter_kept_eq_nil_iff {pos : Nat} {cs : List Char} {os : List Occurrence}
    (h : Scan pos cs os) : (os.map Occurrence.token).filter Yard.kept = [] ↔
      ∀ c ∈ cs, c ∉ "0123456789+-*/".toList := by
  rw [List.filter_eq_nil_iff]
  constructor
  · intro hnone c hc hmem
    rcases mem_arithmetic_iff.1 hmem with hclass | hclass
    all_goals
      obtain ⟨o, ho, hk⟩ := (h.exists_kind_iff _).2 ⟨c, hc, hclass⟩
      exact hnone o.token (List.mem_map_of_mem ho) (by simp [Yard.kept, Occurrence.token, hk])
  · intro hnone t ht hkept
    obtain ⟨o, ho, rfl⟩ := List.mem_map.1 ht
    rcases of_decide_eq_true hkept with hk | hk
    · obtain ⟨c, hc, hclass⟩ := (h.exists_kind_iff _).1 ⟨o, ho, hk⟩
      exact hnone c hc (mem_arithmetic_iff.2 (.inl hclass))
    · obtain ⟨c, hc, hclass⟩ := (h.exists_kind_iff _).1 ⟨o, ho, hk⟩
      exact hnone c hc (mem_arithmetic_iff.2 (.inr hclass))

/-! ### Nothing to evaluate -/

theorem Fault.code_eq_emptyExpression {f : Fault} :
    f.code = "EMPTY_EXPRESSION" ↔ f = .emptyExpression := by
  constructor
  · intro h
    cases f with
    | emptyExpression => rfl
    | _ => exact absurd h (by simp [code, diagnosis, FaultKind.diagnose, ownCode, kind,
        FaultKind.defaultCode])
  · rintro rfl
    rfl

section
variable {limits : Limits} {ts ps : List Token}

theorem ne_nil_of_foldlM_evalStep {stack : List Int} (hne : ps ≠ [])
    (h : ps.foldlM (evalStep limits (.arithmetic limits)) [] = .ok stack) : stack ≠ [] := by
  have hread : ps = [] ∨ stack ≠ [] := by
    refine foldlM_invariant (fun read stack => read = [] ∨ stack ≠ []) (.inl rfl) ?_ h
    intro read stack t stack' _ hstep
    rcases evalStep_eq_ok hstep with ⟨v, -, -, rfl⟩ | ⟨l, r, rest, v, -, -, -, rfl⟩
    · exact .inr (List.cons_ne_nil v stack)
    · exact .inr (List.cons_ne_nil v rest)
  exact hread.resolve_left hne

theorem evaluate_eq_emptyExpression_iff (ha : WellSpelled ps)
    (hk : ∀ t ∈ ps, t.kind = .number ∨ t.kind = .operator) :
    evaluate limits (.arithmetic limits) ps = .error .emptyExpression ↔ ps = [] := by
  constructor
  · intro h
    by_contra hne
    rcases evaluate_eq_error.1 h with ⟨before, t, after, stack, rfl, -, hstep⟩ |
      ⟨stack, hrun, hsole⟩
    · exact (ofText_of_evalStep (ha.subset (by simp)) (hk t (by simp)) hstep).2 rfl
    · rcases soleValue_eq_error hsole with ⟨hnil, -⟩ | ⟨-, hf⟩
      · exact ne_nil_of_foldlM_evalStep hne hrun hnil
      · cases hf
  · rintro rfl
    rfl

end

/-! ### Validation -/

namespace Calculator
variable {limits : Limits} {s : String}

theorem validate_of_tokenize {ts : List Token}
    (h : Lexicon.arithmetic.tokenize limits s = .ok ts) :
    validate limits s = toPostfix .arithmetic ts >>= fun _ => .ok () := by
  unfold validate
  rw [h]
  rfl

theorem validate_eq_tooLong (hl : limits.maxLength < s.length) :
    validate limits s = .error (.tooLong limits.maxLength) := by
  unfold validate
  rw [tokenize_eq_tooLong hl]
  rfl

theorem validate_cases (hl : (s.length : Int) ≤ limits.maxLength) :
    (Balanced charSide s.toList ∧ validate limits s = .ok ()) ∨
      ∃ f, validate limits s = .error f ∧ Mismatch s.toList f.message := by
  obtain ⟨os, hos⟩ := exists_scan 0 s.toList
  rw [validate_of_tokenize (hos.tokenize_eq hl)]
  rcases hos.toPostfix_cases with ⟨hb, ps, hp⟩ | ⟨f, hf, hm⟩
  · exact .inl ⟨hb, bind_eq_ok.2 ⟨ps, hp, rfl⟩⟩
  · exact .inr ⟨f, bind_eq_error.2 (.inl hf), hm⟩

theorem run_eq_emptyExpression_iff : run limits s = .error .emptyExpression ↔
    validate limits s = .ok () ∧ ∀ c ∈ s.toList, c ∉ "0123456789+-*/".toList := by
  by_cases hl : (s.length : Int) ≤ limits.maxLength
  · obtain ⟨os, hos⟩ := exists_scan 0 s.toList
    have htokens := hos.tokenize_eq hl
    rw [run_of_tokenize htokens, validate_of_tokenize htokens, ← hos.filter_kept_eq_nil_iff]
    cases hp : toPostfix .arithmetic (os.map Occurrence.token) with
    | error f =>
      have hf : f ≠ .emptyExpression := by
        rintro rfl
        rcases toPostfix_eq_error hp with ⟨⟨⟩⟩ | ⟨_, _, _, _, ⟨⟩⟩
      constructor
      · intro h
        exact absurd (Except.error.inj h) hf
      · rintro ⟨⟨⟩, -⟩
    | ok ps =>
      have ha := (WellSpelled.of_tokenize htokens).postfixForm hp
      have hempty : evaluate limits (.arithmetic limits) ps = .error .emptyExpression ↔ ps = [] :=
        evaluate_eq_emptyExpression_iff ha fun t => kept_of_mem_postfixForm hp
      have hnil : (os.map Occurrence.token).filter Yard.kept = [] ↔ ps = [] := by
        rw [← List.length_eq_zero_iff, ← (toPostfix_perm hp).length_eq, List.length_eq_zero_iff]
      rw [hnil, ← hempty]
      constructor
      · intro h
        obtain ⟨_, ⟨⟩, h⟩ := (bind_eq_error.1 h).resolve_left nofun
        exact ⟨rfl, (bind_eq_error.1 h).resolve_right (by rintro ⟨_, _, ⟨⟩⟩)⟩
      · rintro ⟨-, h⟩
        exact bind_eq_error.2 (.inr ⟨ps, rfl, bind_eq_error.2 (.inl h)⟩)
  · have hlt := Int.not_le.1 hl
    rw [validate_eq_tooLong hlt, run, tokenize_eq_tooLong hlt]
    constructor
    · rintro ⟨⟩
    · rintro ⟨⟨⟩, -⟩

theorem validate_eq_ok_iff : validate limits s = .ok () ↔
    (s.length : Int) ≤ limits.maxLength ∧ Balanced charSide s.toList := by
  by_cases hl : (s.length : Int) ≤ limits.maxLength
  · rcases validate_cases hl with ⟨hb, hok⟩ | ⟨f, hf, hm⟩
    · simp [hok, hl, hb]
    · simp [hf, hm.not_balanced]
  · simp [validate_eq_tooLong (Int.not_le.1 hl), hl]

theorem validate_message_iff {m : String} : (∃ f, validate limits s = .error f ∧ f.message = m) ↔
    (limits.maxLength < s.length ∧
      m = "Input too long (max " ++ decimal limits.maxLength ++ " characters)") ∨
    ((s.length : Int) ≤ limits.maxLength ∧ Mismatch s.toList m) := by
  constructor
  · rintro ⟨f, hf, rfl⟩
    by_cases hl : (s.length : Int) ≤ limits.maxLength
    · rcases validate_cases hl with ⟨-, hok⟩ | ⟨g, hg, hm⟩
      · cases hok.symm.trans hf
      · cases hg.symm.trans hf
        exact .inr ⟨hl, hm⟩
    · have hlt := Int.not_le.1 hl
      cases (validate_eq_tooLong hlt).symm.trans hf
      exact .inl ⟨hlt, Fault.message_tooLong _⟩
  · rintro (⟨hlt, rfl⟩ | ⟨hl, hm⟩)
    · exact ⟨_, validate_eq_tooLong hlt, Fault.message_tooLong _⟩
    · rcases validate_cases hl with ⟨hb, -⟩ | ⟨f, hf, hm'⟩
      · exact absurd hb hm.not_balanced
      · exact ⟨f, hf, hm'.unique hm⟩

/-- A text passes if it is not too long and its parentheses are balanced. Otherwise its length is
named, or what is wrong with the parentheses. A text that passes is found empty if it has no digit
and no operator in it, and no other text is. -/
theorem validate_characters (limits : Limits) (s : String) :
    (validate limits s = .ok () ↔ (s.length : Int) ≤ limits.maxLength ∧
      Balanced charSide (s.toList.filter fun c => c = '(' ∨ c = ')')) ∧
    (∀ m, (∃ f, validate limits s = .error f ∧ f.message = m) ↔
      (limits.maxLength < s.length ∧
        m = "Input too long (max " ++ decimal limits.maxLength ++ " characters)") ∨
      ((s.length : Int) ≤ limits.maxLength ∧ Mismatch s.toList m)) ∧
    ((∃ report, calculate limits s = .ok report ∧ report.errorCode = some "EMPTY_EXPRESSION") ↔
      validate limits s = .ok () ∧ ∀ c ∈ s.toList, c ∉ "0123456789+-*/".toList) := by
  have hfilter : Balanced charSide (s.toList.filter fun c => c = '(' ∨ c = ')') ↔
      Balanced charSide s.toList := by
    refine balanced_filter_iff fun c _ hc => ?_
    have hno : ¬ (c = '(' ∨ c = ')') := of_decide_eq_false hc
    rw [charSide, if_neg fun h => hno (.inl h), if_neg fun h => hno (.inr h)]
  rw [hfilter, ← run_eq_emptyExpression_iff]
  refine ⟨validate_eq_ok_iff, fun m => validate_message_iff, ?_⟩
  constructor
  · rintro ⟨report, hreport, hcode⟩
    obtain ⟨f, hf, hcode⟩ := (errorCode_eq_some hreport).1 hcode
    rw [hf, Fault.code_eq_emptyExpression.1 hcode]
  · intro h
    exact ⟨_, calculate_of_reported h rfl, rfl⟩

end Calculator

end ExprCalc
