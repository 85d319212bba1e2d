import ExprCalc.Proofs.Exact

/-!
# How an evaluation fails

An evaluation fails at a first token, or at the end if not one value is left. The faults are of three
kinds: the tokens are not arranged as the postorder of a tree (`Fault.Structural`), a number gets too
large or a division is one by zero (`Fault.Computational`), or a token is none of arithmetic, which is
an operator that is not known or a number that is no run of digits. Beside them stands the literal whose
digits are not converted.
-/

namespace ExprCalc

namespace Fault

/-- A fault in how operands, operators and parentheses are arranged. -/
def Structural (f : Fault) : Prop :=
  f.kind = .parentheses ∨ f.kind = .malformed ∧ ∀ lexeme, f ≠ .unknownOperator lexeme

/-- A fault in computing a value. -/
def Computational (f : Fault) : Prop := f.kind = .division ∨ ∃ maxDigits, f = .resultTooLarge maxDigits

def structuralCodes : List String :=
  ["UNBALANCED_PARENTHESES", "EMPTY_EXPRESSION", "MALFORMED_EXPRESSION"]

def computationCodes : List String := ["DIVISION_BY_ZERO", "RESULT_TOO_LARGE"]

theorem Structural.reported {f : Fault} (h : f.Structural) : f.reported = true := by
  rcases h with h | ⟨h, -⟩ <;> simp [reported_iff, h]

theorem Computational.reported {f : Fault} (h : f.Computational) : f.reported = true := by
  rcases h with h | ⟨_, rfl⟩
  · simp [reported_iff, h]
  · rfl

theorem Structural.code_mem {f : Fault} (h : f.Structural) : f.code ∈ structuralCodes := by
  cases f with
  | unmatchedRight | unmatchedLeft => exact List.mem_cons_self
  | emptyExpression => exact List.mem_cons_of_mem _ List.mem_cons_self
  | missingOperand | unexpectedToken | leftoverValues =>
    exact List.mem_cons_of_mem _ (List.mem_cons_of_mem _ List.mem_cons_self)
  | unknownOperator lexeme => exact absurd rfl ((h.resolve_left nofun).2 lexeme)
  | tooLong | resultTooLarge | divisionByZero | zeroToNegativePower | invalidNumber
  | unconvertible | unwritable =>
    exact absurd (h.resolve_left nofun).1 nofun

theorem Computational.code_mem {f : Fault} (h : f.Computational) : f.code ∈ computationCodes := by
  rcases h with h | ⟨maxDigits, rfl⟩
  · cases f with
    | divisionByZero | zeroToNegativePower => exact List.mem_cons_self
    | _ => cases h
  · exact List.mem_cons_of_mem _ List.mem_cons_self

theorem code_eq_resultTooLarge {f : Fault} :
    f.code = "RESULT_TOO_LARGE" ↔ ∃ maxDigits, f = .resultTooLarge maxDigits := by
  constructor
  · intro h
    cases f with
    | resultTooLarge maxDigits => exact ⟨maxDigits, rfl⟩
    | _ => exact absurd h (by simp [code, diagnosis, FaultKind.diagnose, ownCode, kind,
        FaultKind.defaultCode])
  · rintro ⟨maxDigits, rfl⟩
    rfl

end Fault

/-! ### One step -/

section
variable {limits : Limits} {operations : Operations} {t : Token} {stack : List Int} {f : Fault}

theorem evalStep_eq_error (h : evalStep limits operations stack t = .error f) :
    (t.kind = .number ∧ parseNumber limits t.lexeme = .error f) ∨
    (∃ l r rest, t.kind = .operator ∧ stack = r :: l :: rest ∧
      applyLexeme limits operations t.lexeme l r = .error f) ∨
    (t.kind = .operator ∧ stack.length < 2 ∧
      (operations t.lexeme = none ∧ f = .unknownOperator t.lexeme ∨
        (operations t.lexeme).isSome ∧ f = .missingOperand t.lexeme)) ∨
    ((t.kind = .leftParen ∨ t.kind = .rightParen) ∧ f = .unexpectedToken t) := by
  cases hk : t.kind with
  | number =>
    rw [evalStep_number hk, map_eq_error] at h
    exact .inl ⟨rfl, h⟩
  | operator =>
    match stack with
    | r :: l :: rest =>
      rw [evalStep_operator hk, map_eq_error] at h
      exact .inr (.inl ⟨l, r, rest, rfl, rfl, h⟩)
    | [] | [_] =>
      simp only [evalStep, hk] at h
      refine .inr (.inr (.inl ⟨rfl, by simp, ?_⟩))
      cases ho : operations t.lexeme with
      | none =>
        rw [ho] at h
        exact .inl ⟨rfl, (Except.error.inj h).symm⟩
      | some _ =>
        rw [ho] at h
        exact .inr ⟨rfl, (Except.error.inj h).symm⟩
  | leftParen | rightParen =>
    simp only [evalStep, hk] at h
    exact .inr (.inr (.inr ⟨by decide, (Except.error.inj h).symm⟩))

theorem parseNumber_eq_error {lexeme : String} (hne : lexeme.toList ≠ [])
    (hd : ∀ c ∈ lexeme.toList, c.isDigit = true) (h : parseNumber limits lexeme = .error f) :
    limits.Refuses f := by
  have hdigits : ¬ (lexeme.toList.isEmpty || !lexeme.toList.all Char.isDigit) = true := by
    simpa [hne] using hd
  rcases parseNumber_unlessRefused limits lexeme with heq | ⟨g, hg, herror⟩
  · rw [heq, exactNumber, if_neg hdigits] at h
    cases h
  · cases h.symm.trans herror
    exact hg

theorem computational_of_parseNumber {lexeme : String} (hconv : limits.Convertible)
    (hne : lexeme.toList ≠ []) (hd : ∀ c ∈ lexeme.toList, c.isDigit = true)
    (h : parseNumber limits lexeme = .error f) : f.Computational :=
  .inr ⟨_, (parseNumber_eq_error hne hd h).eq_resultTooLarge hconv⟩

theorem Operator.apply_eq_error {op : Operator} {l r : Int} (h : op.apply limits l r = .error f) :
    f = .divisionByZero ∨ f = .zeroToNegativePower ∨ f = .resultTooLarge limits.maxDigits := by
  cases op with
  | pow =>
    simp only [apply, power] at h
    split_ifs at h <;> cases h
    · exact .inr (.inl rfl)
    · exact .inr (.inr rfl)
  | div =>
    simp only [apply, quotient] at h
    split_ifs at h
    cases h
    exact .inl rfl
  | mul | add | sub => cases h

theorem applyLexeme_eq_error {lexeme : String} {l r : Int}
    (ho : (Operator.ofLexeme? lexeme).isSome)
    (h : applyLexeme limits (.arithmetic limits) lexeme l r = .error f) :
    f = .divisionByZero ∨ f = .zeroToNegativePower ∨ f = .resultTooLarge limits.maxDigits := by
  obtain ⟨op, hop⟩ := Option.isSome_iff_exists.1 ho
  simp only [applyLexeme, Operations.arithmetic, hop, Option.map_some] at h
  rcases bind_eq_error.1 h with h | ⟨x, -, h⟩
  · exact Operator.apply_eq_error h
  · split_ifs at h
    cases h
    exact .inr (.inr rfl)

theorem computational_of_applyLexeme {lexeme : String} {l r : Int}
    (ho : (Operator.ofLexeme? lexeme).isSome)
    (h : applyLexeme limits (.arithmetic limits) lexeme l r = .error f) : f.Computational := by
  rcases applyLexeme_eq_error ho h with rfl | rfl | rfl
  · exact .inl rfl
  · exact .inl rfl
  · exact .inr ⟨_, rfl⟩

theorem exactNumber_eq_error {lexeme : String} (h : exactNumber lexeme = .error f) :
    f = .invalidNumber lexeme := by
  unfold exactNumber at h
  dsimp only at h
  split_ifs at h
  exact (Except.error.inj h).symm

theorem exactLexeme_eq_error {lexeme : String} {l r : Int} (h : exactLexeme lexeme l r = .error f) :
    f = .unknownOperator lexeme ∨ f.kind = .division := by
  unfold exactLexeme at h
  split at h
  · exact .inl (Except.error.inj h).symm
  · next op _ =>
    refine .inr ?_
    cases op with
    | pow =>
      simp only [Operator.exact, exactPower] at h
      split_ifs at h
      cases h
      rfl
    | div =>
      simp only [Operator.exact, quotient] at h
      split_ifs at h
      cases h
      rfl
    | mul | add | sub => cases h

/-! ### The whole evaluation -/

theorem soleValue_eq_error (h : soleValue stack = .error f) :
    stack = [] ∧ f = .emptyExpression ∨ 2 ≤ stack.length ∧ f = .leftoverValues stack.length := by
  match stack, h with
  | [], h => exact .inl ⟨rfl, (Except.error.inj h).symm⟩
  | _ :: _ :: _, h => exact .inr ⟨by simp, (Except.error.inj h).symm⟩

theorem evaluate_eq_error {ts : List Token} : evaluate limits operations ts = .error f ↔
    (∃ before t after stack, ts = before ++ t :: after ∧
      before.foldlM (evalStep limits operations) [] = .ok stack ∧
      evalStep limits operations stack t = .error f) ∨
    ∃ stack, ts.foldlM (evalStep limits operations) [] = .ok stack ∧ soleValue stack = .error f := by
  unfold evaluate
  rw [bind_eq_error, foldlM_eq_error]

/-- Limits apart, only the faults of exact values are left, and these are reported. -/
theorem reported_or_refuses_of_evalStep
    (h : evalStep limits (.arithmetic limits) stack t = .error f) :
    f.reported = true ∨ limits.Refuses f := by
  rcases evalStep_eq_error h with ⟨-, hnum⟩ | ⟨l, r, rest, -, -, hop⟩ |
    ⟨-, -, ⟨-, rfl⟩ | ⟨-, rfl⟩⟩ | ⟨-, rfl⟩
  · rcases parseNumber_unlessRefused limits t.lexeme with heq | ⟨g, hg, herror⟩
    · rw [heq] at hnum
      rw [exactNumber_eq_error hnum]
      exact .inl rfl
    · cases hnum.symm.trans herror
      exact .inr hg
  · rcases applyLexeme_unlessRefused limits t.lexeme l r with heq | ⟨g, hg, herror⟩
    · rw [heq] at hop
      rcases exactLexeme_eq_error hop with rfl | hkind
      · exact .inl rfl
      · exact .inl (Fault.reported_iff.2 (by simp [hkind]))
    · cases hop.symm.trans herror
      exact .inr hg
  all_goals exact .inl rfl

theorem reported_or_refuses_of_evaluate {ts : List Token}
    (h : evaluate limits (.arithmetic limits) ts = .error f) :
    f.reported = true ∨ limits.Refuses f := by
  rcases evaluate_eq_error.1 h with ⟨before, t, after, stack, -, -, hstep⟩ | ⟨stack, -, hsole⟩
  · exact reported_or_refuses_of_evalStep hstep
  · rcases soleValue_eq_error hsole with ⟨-, rfl⟩ | ⟨-, rfl⟩ <;> exact .inl rfl

end

end ExprCalc
