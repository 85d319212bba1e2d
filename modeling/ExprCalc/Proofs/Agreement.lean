import ExprCalc.Proofs.Convention

/-!
# Agreement with convention

The calculator evaluates the regrouped parse, so what it returns is the exact value of the
conventional one (`evaluateExpression_conventional`). Sums, differences and products are always
regrouped that way, and only the limits can refuse their value (`Tree.exactValue_eq_ok`).
-/

namespace ExprCalc

namespace Parse

theorem mem_tokens_of_mem_postorder {p : Parse} {t : Token} (h : t ∈ p.tree.postorder) :
    t ∈ p.tokens := by
  induction p with
  | number => exact h
  | group lp rp hl hr e ih => simp [tokens, ih h]
  | apply op ho l r ihl ihr =>
    simp only [tree, Tree.postorder, List.mem_append, List.mem_singleton] at h
    simp only [tokens, List.mem_append, List.mem_cons]
    rcases h with (h | h) | h
    · exact .inl (ihl h)
    · exact .inr (.inr (ihr h))
    · exact .inr (.inl h)

theorem exists_token_of_mem_factorOperators {p : Parse} {o : Operator}
    (h : o ∈ p.factorOperators) :
    ∃ t ∈ p.tokens, t.kind = .operator ∧ Operator.ofLexeme? t.lexeme = some o := by
  induction p with
  | number | group => cases h
  | apply op hop l r ihl ihr =>
    have hsplit : o ∈ l.factorOperators ∨ Operator.ofLexeme? op.lexeme = some o ∨
        o ∈ r.factorOperators := by
      unfold factorOperators at h
      split at h
      · next hmul => simpa [hmul, eq_comm] using h
      · next hdiv => simpa [hdiv, eq_comm] using h
      · cases h
    rcases hsplit with h | h | h
    · obtain ⟨t, ht, hto⟩ := ihl h
      exact ⟨t, by simp [tokens, ht], hto⟩
    · exact ⟨op, by simp [tokens], hop, h⟩
    · obtain ⟨t, ht, hto⟩ := ihr h
      exact ⟨t, by simp [tokens, ht], hto⟩

theorem plain_of_lexeme_mem {p : Parse}
    (h : ∀ t ∈ p.tokens, t.kind = .operator → t.lexeme ∈ ["+", "-", "*"]) : Plain p := by
  have hne : ∀ t ∈ p.tokens, t.kind = .operator → ∀ o, Operator.ofLexeme? t.lexeme = some o →
      o ≠ .pow ∧ o ≠ .div := by
    rintro t ht hk o ho
    have := h t ht hk
    rw [Operator.lexeme_of_ofLexeme? ho] at this
    revert this
    cases o <;> decide
  clear h
  induction p with
  | number t h => exact .number t h
  | group lp rp hl hr e ih =>
    exact .group lp rp hl hr (ih fun t ht => hne t (by simp [tokens, ht]))
  | apply op h l r ihl ihr =>
    refine .apply (ihl fun t ht => hne t (by simp [tokens, ht]))
      (ihr fun t ht => hne t (by simp [tokens, ht])) (fun hpow => ?_) ?_
    · exact absurd rfl (hne op (by simp [tokens]) h _ hpow).1
    · refine List.pairwise_of_forall_mem_list ?_
      rintro a - b hb ⟨-, rfl⟩
      obtain ⟨t, ht, hk, ho⟩ := exists_token_of_mem_factorOperators hb
      exact (hne t ht hk _ ho).2 rfl

end Parse

theorem exactNumber_eq_ok {lexeme : String} (hne : lexeme.toList ≠ [])
    (hd : ∀ c ∈ lexeme.toList, c.isDigit = true) : ∃ x, exactNumber lexeme = .ok x := by
  have hdigits : (lexeme.toList.isEmpty || !lexeme.toList.all Char.isDigit) = false := by
    simpa [hne] using hd
  exact ⟨_, if_neg (by simp [hdigits])⟩

theorem exactLexeme_eq_ok {lexeme : String} (h : lexeme ∈ ["+", "-", "*"]) (x y : Int) :
    ∃ z, exactLexeme lexeme x y = .ok z := by
  simp only [List.mem_cons, List.not_mem_nil, or_false] at h
  rcases h with rfl | rfl | rfl
  · exact ⟨x + y, rfl⟩
  · exact ⟨x - y, rfl⟩
  · exact ⟨x * y, rfl⟩

/-- The value of sums, differences and products is only refused for the size of a number. -/
theorem Tree.exactValue_eq_ok (limits : Limits) {e : Tree}
    (hnum : ∀ t ∈ e.postorder, t.kind = .number →
      t.lexeme.toList ≠ [] ∧ ∀ c ∈ t.lexeme.toList, c.isDigit = true)
    (hop : ∀ t ∈ e.postorder, t.kind = .operator → t.lexeme ∈ ["+", "-", "*"]) :
    ∃ x, e.exactValue = .ok x ∧ (e.value limits (.arithmetic limits) = .ok x ∨
      ∃ f, limits.Refuses f ∧ e.value limits (.arithmetic limits) = .error f) := by
  have hexact : ∃ x, e.exactValue = .ok x := by
    induction e with
    | leaf t h =>
      obtain ⟨hne, hd⟩ := hnum t (by simp [postorder]) h
      exact exactNumber_eq_ok hne hd
    | node op h l r ihl ihr =>
      obtain ⟨x, hx⟩ := ihl (fun t ht => hnum t (by simp [postorder, ht]))
        (fun t ht => hop t (by simp [postorder, ht]))
      obtain ⟨y, hy⟩ := ihr (fun t ht => hnum t (by simp [postorder, ht]))
        (fun t ht => hop t (by simp [postorder, ht]))
      obtain ⟨z, hz⟩ := exactLexeme_eq_ok (hop op (by simp [postorder]) h) x y
      exact ⟨z, bind_eq_ok.2 ⟨x, hx, bind_eq_ok.2 ⟨y, hy, hz⟩⟩⟩
  obtain ⟨x, hx⟩ := hexact
  exact ⟨x, hx, hx ▸ e.value_unlessRefused limits⟩

/-- A well-formed expression has a conventional reading. Where no power is an operand of a power
without parentheses, and in no product a `/` comes after a `*`, the value of the expression is the
exact one of that reading. Sums, differences and products are such, and always have an exact value,
which is only refused for the size of a number. -/
theorem evaluateExpression_conventional (limits : Limits) (s : String) (ts : List Token)
    (hs : Lexicon.arithmetic.tokenize limits s = .ok ts) (hd : Derives .expression ts) :
    (∃ p : Parse, p.tokens = ts ∧ p.Conventional) ∧
      ∀ p : Parse, p.tokens = ts → p.Conventional →
        (p.Plain → ∀ v, Calculator.evaluateExpression limits s = .ok v →
          p.tree.exactValue = .ok v) ∧
        ((∀ t ∈ ts, t.kind = .operator → t.lexeme ∈ ["+", "-", "*"]) →
          p.Plain ∧ ∃ x, p.tree.exactValue = .ok x ∧
            (Calculator.evaluateExpression limits s = .ok x ∨
              ∃ f, limits.Refuses f ∧ Calculator.evaluateExpression limits s = .error f)) := by
  have hops : ∀ t ∈ ts, t.kind = .operator → ∃ o, Operator.ofLexeme? t.lexeme = some o :=
    fun t ht => exists_operator_of_mem_tokens hs ht
  have hnum : ∀ t ∈ ts, t.kind = .number →
      t.lexeme.toList ≠ [] ∧ ∀ c ∈ t.lexeme.toList, c.isDigit = true :=
    fun t ht => isDigit_of_mem_tokens hs ht
  have hcovers : Precedence.conventional.Covers ts := by
    intro t ht hk
    obtain ⟨o, ho⟩ := hops t ht hk
    rw [Operator.lexeme_of_ofLexeme? ho, o.lookup_conventional]
    rfl
  obtain ⟨p, rfl, hp, -⟩ := Parse.exists_ordered_of_derives hd hcovers
  refine ⟨⟨p, rfl, hp.conventional hops⟩, fun q hq hc => ?_⟩
  have heval : q.Plain → Calculator.evaluateExpression limits s =
      q.regroup.tree.value limits (.arithmetic limits) := by
    intro hplain
    refine Calculator.evaluateExpression_of_ordered (hc.ordered_regroup hplain) ?_
    rw [Parse.tokens_regroup, hq, hs]
  refine ⟨fun hplain v hv => ?_, fun hring => ?_⟩
  · rw [← Parse.exactValue_regroup]
    exact Tree.exactValue_of_value (heval hplain ▸ hv)
  · rw [← hq] at hring hnum
    have hplain := Parse.plain_of_lexeme_mem hring
    refine ⟨hplain, ?_⟩
    rw [heval hplain, ← Parse.exactValue_regroup]
    rw [← Parse.tokens_regroup] at hring hnum
    exact Tree.exactValue_eq_ok limits
      (fun t ht => hnum t (Parse.mem_tokens_of_mem_postorder ht))
      (fun t ht => hring t (Parse.mem_tokens_of_mem_postorder ht))

/-- Here the calculator adds what it has subtracted, and the convention subtracts from the sum. -/
theorem evaluateExpression_conventional_mixed :
    ∃ p : Parse,
      Lexicon.arithmetic.tokenize ⟨1000, 100, 333, some 4300⟩ "8/2+9-4*3" = .ok p.tokens ∧
      Derives .expression p.tokens ∧ p.Conventional ∧ p.Plain ∧
      Calculator.evaluateExpression ⟨1000, 100, 333, some 4300⟩ "8/2+9-4*3" = .ok 1 ∧
      p.tree.exactValue = .ok 1 := by
  let num (s : String) (n : Nat) : Parse := .number ⟨.number, s, some n⟩ rfl
  let op (s : String) (n : Nat) (l r : Parse) : Parse := .apply ⟨.operator, s, some n⟩ rfl l r
  let p : Parse := op "-" 5 (op "+" 3 (op "/" 1 (num "8" 0) (num "2" 2)) (num "9" 4))
    (op "*" 7 (num "4" 6) (num "3" 8))
  have hs : Lexicon.arithmetic.tokenize ⟨1000, 100, 333, some 4300⟩ "8/2+9-4*3" = .ok p.tokens := by
    have hdigit (c : Char) (h : c.isDigit = true) (o : Operator) (rest : List Char) :
        Munch .number [c] (o.lexeme.toList ++ rest) :=
      .number (List.cons_ne_nil c []) (by simpa using h) (o.head?_lexeme_isDigit rest)
    have hlast : Munch .number ['3'] [] := .number (List.cons_ne_nil '3' []) (by simp) nofun
    have hscan : Scan 0 "8/2+9-4*3".toList _ :=
      .token (hdigit '8' rfl .div _) (.token (.operator .div nofun)
        (.token (hdigit '2' rfl .add _) (.token (.operator .add nofun)
          (.token (hdigit '9' rfl .sub _) (.token (.operator .sub nofun)
            (.token (hdigit '4' rfl .mul _) (.token (.operator .mul fun _ => by decide)
              (.token hlast .done))))))))
    exact hscan.tokenize_eq (by decide)
  have hc : p.Conventional := by
    refine .apply rfl
      (.apply rfl (.apply rfl (.number _ _) (.number _ _) ?_ ?_) (.number _ _) ?_ ?_)
      (.apply rfl (.number _ _) (.number _ _) ?_ ?_) ?_ ?_
    all_goals
      rintro _ ⟨⟩
      try decide
  have hp : p.Plain := by
    refine .apply (.apply (.apply (.number _ _) (.number _ _) nofun ?_) (.number _ _) nofun ?_)
      (.apply (.number _ _) (.number _ _) nofun ?_) nofun ?_
    all_goals decide
  have hv : Calculator.evaluateExpression ⟨1000, 100, 333, some 4300⟩ "8/2+9-4*3" = .ok 1 := by
    rw [Calculator.evaluateExpression_of_ordered (hc.ordered_regroup hp)
      (hs.trans (by rw [Parse.tokens_regroup]))]
    rfl
  exact ⟨p, hs, p.derives, hc, hp, hv,
    ((evaluateExpression_conventional _ _ _ hs p.derives).2 p rfl hc).1 hp 1 hv⟩

end ExprCalc
