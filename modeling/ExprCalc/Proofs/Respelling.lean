import ExprCalc.Proofs.EntryPoints
import ExprCalc.Proofs.Places
import ExprCalc.Proofs.TextFault

/-!
# Cutting printed tokens

Tokens are printed as their lexemes with single spaces between them. Whatever tokens of arithmetic
these are, and in whatever order, the text is cut into them again: a space belongs to no token, so no
lexeme is continued by the next one (`Token.Arithmetic.munch`).
-/

namespace ExprCalc

namespace Token

/-- The tokens that can be cut out of a text. -/
inductive Arithmetic : Token → Prop
  | number {lexeme : String} {position : Option Int} : lexeme.toList ≠ [] →
      (∀ c ∈ lexeme.toList, c.isDigit = true) → Arithmetic ⟨.number, lexeme, position⟩
  | operator (op : Operator) {position : Option Int} : Arithmetic ⟨.operator, op.lexeme, position⟩
  | leftParen {position : Option Int} : Arithmetic ⟨.leftParen, "(", position⟩
  | rightParen {position : Option Int} : Arithmetic ⟨.rightParen, ")", position⟩

/-- What stands in front of the token that is printed behind `ts`. -/
def lead (ts : List Token) : List Char := ts.flatMap fun t => t.lexeme.toList ++ [' ']

/-- The tokens as they stand in their printed form, which begins at offset `pos`. -/
def placed : (pos : Nat) → List Token → List Occurrence
  | _, [] => []
  | pos, t :: ts => ⟨t.kind, pos, t.lexeme.toList⟩ :: placed (pos + t.lexeme.toList.length + 1) ts

section
variable {t u : Token} {ts us : List Token} {pos : Nat}

theorem Arithmetic.munch (h : t.Arithmetic) {rest : List Char} (hrest : ∀ c ∈ rest.head?, c = ' ') :
    Munch t.kind t.lexeme.toList rest := by
  cases h with
  | number hne hd =>
    refine .number hne hd fun c hc => ?_
    rw [hrest c hc]
    rfl
  | operator op =>
    refine .operator op fun _ hstar => ?_
    cases hrest '*' hstar
  | leftParen =>
    have htext : "(".toList = ['('] := rfl
    exact htext ▸ .leftParen
  | rightParen =>
    have htext : ")".toList = [')'] := rfl
    exact htext ▸ .rightParen

theorem Arithmetic.of_munch {rest : List Char} (h : Munch t.kind t.lexeme.toList rest) :
    t.Arithmetic := by
  obtain ⟨kind, lexeme, position⟩ := t
  cases kind with
  | number => exact .number h.ne_nil h.isDigit
  | operator =>
    obtain ⟨op, hop⟩ := h.exists_operator
    obtain rfl : lexeme = op.lexeme := String.toList_inj.1 hop
    exact .operator op
  | leftParen =>
    obtain rfl : lexeme = "(" := String.toList_inj.1 h.eq_leftParen
    exact .leftParen
  | rightParen =>
    obtain rfl : lexeme = ")" := String.toList_inj.1 h.eq_rightParen
    exact .rightParen

/-! ### The printed form -/

theorem toList_spell_cons (t : Token) (ts : List Token) : (spell (t :: ts)).toList =
    t.lexeme.toList ++ if ts = [] then [] else ' ' :: (spell ts).toList := by
  unfold spell
  cases ts with
  | nil => simp
  | cons u ts => simp [String.intercalate_cons_cons]

theorem scan_spell (h : ∀ t ∈ ts, t.Arithmetic) (pos : Nat) :
    Scan pos (spell ts).toList (placed pos ts) := by
  induction ts generalizing pos with
  | nil => exact .done
  | cons t ts ih =>
    obtain ⟨ht, hts⟩ := List.forall_mem_cons.1 h
    rw [toList_spell_cons]
    split
    · next hnil =>
      subst hnil
      exact .token (ht.munch nofun) .done
    · exact .token (ht.munch (by rintro c ⟨⟩; rfl)) (.skip rfl (ih hts _))

theorem exists_spell_append (ts : List Token) (t : Token) (us : List Token) :
    ∃ tail, (spell (ts ++ t :: us)).toList = lead ts ++ (t.lexeme.toList ++ tail) := by
  induction ts with
  | nil => exact ⟨_, toList_spell_cons t us⟩
  | cons u ts ih =>
    obtain ⟨tail, h⟩ := ih
    refine ⟨tail, ?_⟩
    rw [List.cons_append, toList_spell_cons, if_neg (by simp), h]
    simp [lead]

theorem placed_append (ts us : List Token) (pos : Nat) :
    placed pos (ts ++ us) = placed pos ts ++ placed (pos + (lead ts).length) us := by
  induction ts generalizing pos with
  | nil => rfl
  | cons t ts ih =>
    have hpos : pos + t.lexeme.toList.length + 1 + (lead ts).length = pos + (lead (t :: ts)).length := by
      simp [lead]
      omega
    rw [List.cons_append, placed, placed, ih, List.cons_append, hpos]

theorem length_placed (ts : List Token) (pos : Nat) : (placed pos ts).length = ts.length := by
  induction ts generalizing pos with
  | nil => rfl
  | cons t ts ih => rw [placed, List.length_cons, List.length_cons, ih]

theorem forall₂_agrees_placed (ts : List Token) (pos : Nat) :
    List.Forall₂ (fun u t => agrees u t = true) ((placed pos ts).map Occurrence.token) ts := by
  induction ts generalizing pos with
  | nil => exact .nil
  | cons t ts ih => exact .cons (agrees_iff.2 ⟨rfl, String.ofList_toList⟩) (ih _)

theorem getElem?_placed (ts : List Token) (t : Token) (us : List Token) :
    ((placed 0 (ts ++ t :: us)).map Occurrence.token)[ts.length]? =
      some ⟨t.kind, t.lexeme, some ((lead ts).length : Int)⟩ := by
  rw [placed_append, List.map_append, List.getElem?_append_right (by simp [length_placed])]
  simp [length_placed, placed, Occurrence.token]

end

end Token

/-! ### Evaluation without positions -/

section
variable {limits : Limits} {operations : Operations} {ts us : List Token} {v : Int}

theorem map_unplaced_of_agrees (hus : List.Forall₂ (fun u t => Token.agrees u t = true) us ts) :
    us.map Token.unplaced = ts.map Token.unplaced := by
  induction hus with
  | nil => rfl
  | cons hu _ ih =>
    obtain ⟨hkind, hlexeme⟩ := Token.agrees_iff.1 hu
    rw [List.map_cons, List.map_cons, ih, Token.unplaced, Token.unplaced, hkind, hlexeme]

theorem evaluate_of_agrees (hus : List.Forall₂ (fun u t => Token.agrees u t = true) us ts)
    (h : evaluate limits operations ts = .ok v) : evaluate limits operations us = .ok v :=
  (evaluate_alike limits operations (map_unplaced_of_agrees hus)).eq_ok_iff.2 h

theorem arithmetic_of_mem_postfixForm {s : String}
    (hts : Lexicon.arithmetic.tokenize limits s = .ok ts)
    (hus : toPostfix .arithmetic ts = .ok us) : ∀ t ∈ us, t.Arithmetic := by
  intro t ht
  have hmem : t ∈ ts := List.mem_of_mem_filter ((toPostfix_perm hus).subset ht)
  obtain ⟨rest, hm⟩ := munch_of_mem_tokens hts t hmem
  exact .of_munch hm

end

/-- The text of any tokens of arithmetic that is not too long is cut into these tokens again, each
placed where it is printed: behind the lexemes before it with a space behind each. So the postfix form
that a value is reported with has that value, as a text. -/
theorem tokenize_spell (limits : Limits) :
    (∀ ts : List Token, (∀ t ∈ ts, t.Arithmetic) →
      ((Token.spell ts).length : Int) ≤ limits.maxLength →
      ∃ us, Lexicon.arithmetic.tokenize limits (Token.spell ts) = .ok us ∧
        List.Forall₂ (fun u t => Token.agrees u t = true) us ts ∧
        ∀ before t after, ts = before ++ t :: after →
          us[before.length]? =
            some ⟨t.kind, t.lexeme, some ((Token.lead before).length : Int)⟩ ∧
          ∃ tail, (Token.spell ts).toList = Token.lead before ++ (t.lexeme.toList ++ tail)) ∧
    ∀ s report, Calculator.calculate limits s = .ok report → report.ok = true → ∃ v lexemes,
      report.result = some v ∧ report.postfixForm = some lexemes ∧
      (((" ".intercalate lexemes).length : Int) ≤ limits.maxLength →
        ∃ us, Lexicon.arithmetic.tokenize limits (" ".intercalate lexemes) = .ok us ∧
          evaluate limits (.arithmetic limits) us = .ok v) := by
  refine ⟨fun ts ha hl => ?_, fun s report hreport hok => ?_⟩
  · refine ⟨_, (Token.scan_spell ha 0).tokenize_eq hl, Token.forall₂_agrees_placed ts 0, ?_⟩
    rintro before t after rfl
    exact ⟨Token.getElem?_placed before t after, Token.exists_spell_append before t after⟩
  · cases hrun : Calculator.run limits s with
    | error f =>
      rw [Calculator.ok_eq_false hreport hrun] at hok
      cases hok
    | ok e =>
      obtain ⟨hts, hps, hv⟩ := Calculator.run_eq_ok.1 hrun
      cases hreport.symm.trans (Calculator.calculate_of_ok hrun)
      refine ⟨_, _, rfl, rfl, fun hl => ?_⟩
      have ha := arithmetic_of_mem_postfixForm hts hps
      exact ⟨_, (Token.scan_spell ha 0).tokenize_eq hl,
        evaluate_of_agrees (Token.forall₂_agrees_placed _ 0) hv⟩

/-- Neither two numbers nor `*` and `**` are joined. -/
theorem tokenize_spell_adjacent :
    let limits : Limits := ⟨20, 5, 16, some 4300⟩
    let ts : List Token := [⟨.number, "12", none⟩, ⟨.number, "3", none⟩, ⟨.operator, "*", none⟩,
      ⟨.operator, "**", none⟩, ⟨.operator, "*", none⟩, ⟨.rightParen, ")", none⟩]
    (∀ t ∈ ts, t.Arithmetic) ∧ Token.spell ts = "12 3 * ** * )" ∧
      (∃ us, Lexicon.arithmetic.tokenize limits "12 3 * ** * )" = .ok us ∧
        us[3]? = some ⟨.operator, "**", some 7⟩) ∧
      (∃ report, Calculator.calculate limits "(7-2)*3" = .ok report ∧ report.ok = true) ∧
      ∃ us, Lexicon.arithmetic.tokenize limits "7 2 - 3 *" = .ok us ∧
        evaluate limits (.arithmetic limits) us = .ok 15 := by
  intro limits ts
  obtain ⟨hprinted, hreported⟩ := tokenize_spell limits
  have ha : ∀ t ∈ ts, t.Arithmetic := by
    simp only [ts, List.forall_mem_cons]
    exact ⟨.number (by decide) (List.all_eq_true.1 rfl), .number (by decide) (List.all_eq_true.1 rfl),
      .operator .mul, .operator .pow, .operator .mul, .rightParen, nofun⟩
  have hspell : Token.spell ts = "12 3 * ** * )" := by decide
  have hscan : Scan 0 "(7-2)*3".toList
      [⟨.leftParen, 0, ['(']⟩, ⟨.number, 1, ['7']⟩, ⟨.operator, 2, ['-']⟩, ⟨.number, 3, ['2']⟩,
        ⟨.rightParen, 4, [')']⟩, ⟨.operator, 5, ['*']⟩, ⟨.number, 6, ['3']⟩] :=
    .token .leftParen (.token (.digit rfl rfl) (.token (.operator .sub nofun)
      (.token (.digit rfl rfl) (.token .rightParen (.token (.operator .mul fun _ => by decide)
        (.token (.digit rfl rfl) .done))))))
  have hreport : Calculator.calculate limits "(7-2)*3" =
      .ok ⟨true, "(7-2)*3", some 15, some ["LeftParenthesis: (", "Number: 7", "Operator: -",
        "Number: 2", "RightParenthesis: )", "Operator: *", "Number: 3"], some ["7", "2", "-", "3", "*"],
        none, none⟩ := by
    rw [Calculator.calculate, Calculator.run_of_tokenize (hscan.tokenize_eq (by decide))]
    decide +kernel
  obtain ⟨us, hus, -, hplace⟩ := hprinted ts ha (by rw [hspell]; decide)
  rw [hspell] at hus
  have hpow := hplace (ts.take 3) ⟨.operator, "**", none⟩ (ts.drop 4) rfl
  obtain ⟨v, lexemes, hv, hlexemes, hagain⟩ := hreported "(7-2)*3" _ hreport rfl
  cases hv
  cases hlexemes
  exact ⟨ha, hspell, ⟨us, hus, hpow.1⟩, ⟨_, hreport, rfl⟩, hagain (by decide)⟩

end ExprCalc
