import ExprCalc.Calculator
import ExprCalc.Proofs.Operands

/-!
# The conversion follows the parse

When the yard has read the text of an ordered parse, the operators on the right edge of the parse
wait (`Parse.pending`) and everything else has been put out in postorder (`Parse.emitted`):
`foldlM_step_tokens`. It holds from any yard whose last waiting operator ranks below the parse, which
is what the yard looks like in front of an operand.
-/

namespace ExprCalc

namespace Yard
variable {table : Precedence} {y : Yard} {t : Token}

/-- The last waiting token leaves operators of rank `k` to what comes after it. -/
def Fits (table : Precedence) (k : Int) (waiting : List Token) : Prop :=
  ∀ w ∈ waiting.head?, w.kind ≠ .leftParen → ∃ i, table.lookup w.lexeme = some i ∧ i < k

theorem Fits.mono {k k' : Int} {ws : List Token} (h : Fits table k ws) (hk : k ≤ k') :
    Fits table k' ws := by
  intro w hw hne
  obtain ⟨i, hi, hlt⟩ := h w hw hne
  exact ⟨i, hi, Int.lt_of_lt_of_le hlt hk⟩

theorem append_list_append (output : Array Token) (l m : List Token) :
    output ++ (l ++ m) = output ++ l ++ m := Array.ext' (by simp)

theorem takesPrecedence_eq {a b : Token} {i j : Int} (ha : table.lookup a.lexeme = some i)
    (hb : table.lookup b.lexeme = some j) :
    table.takesPrecedence a b = .ok (decide (j ≤ i)) := by
  simp only [Precedence.takesPrecedence, Precedence.rank, ha, hb]
  rfl

/-- An operator of rank `k` sends away what ranks at least `k` down to a token that it fits on. -/
theorem release_append {k : Int} {gone stay : List Token} (hk : table.lookup t.lexeme = some k)
    (hgone : ∀ w ∈ gone, w.kind = .operator ∧ ∃ i, table.lookup w.lexeme = some i ∧ k ≤ i)
    (hstay : Fits table k stay) : release table t (gone ++ stay) = .ok (gone, stay) := by
  induction gone with
  | nil =>
    cases stay with
    | nil => rfl
    | cons w ws =>
      rw [List.nil_append, release]
      split
      · rfl
      · next hw =>
        obtain ⟨i, hi, hlt⟩ := hstay w rfl hw
        rw [takesPrecedence_eq hi hk, decide_eq_false (by omega)]
        rfl
  | cons w ws ih =>
    obtain ⟨hkind, i, hi, hle⟩ := hgone w List.mem_cons_self
    rw [List.cons_append, release, if_neg (by rw [hkind]; nofun), takesPrecedence_eq hi hk,
      decide_eq_true hle, ih fun w hw => hgone w (List.mem_cons_of_mem _ hw)]
    rfl

theorem step_number (h : t.kind = .number) :
    step table y t = .ok { y with output := y.output.push t } := by
  simp only [step, h]
  rfl

theorem step_leftParen (h : t.kind = .leftParen) :
    step table y t = .ok { y with waiting := t :: y.waiting } := by
  simp only [step, h]
  rfl

theorem step_operator {k : Int} {gone stay : List Token} (h : t.kind = .operator)
    (hk : table.lookup t.lexeme = some k) (hr : release table t y.waiting = .ok (gone, stay)) :
    step table y t = .ok ⟨y.output ++ gone, t :: stay⟩ := by
  simp only [step, h, Precedence.rank, hk, hr]
  rfl

/-- A `)` sends away the operators that wait on the last `(`. -/
theorem step_rightParen {gone stay : List Token} {lp : Token} (h : t.kind = .rightParen)
    (hy : y.waiting = gone ++ lp :: stay) (hgone : ∀ w ∈ gone, w.kind ≠ .leftParen)
    (hlp : lp.kind = .leftParen) : step table y t = .ok ⟨y.output ++ gone, stay⟩ := by
  have htake : (gone ++ lp :: stay).takeWhile (·.kind ≠ .leftParen) = gone := by
    rw [List.takeWhile_append_of_pos fun w hw => decide_eq_true (hgone w hw)]
    simp [hlp]
  have hdrop : (gone ++ lp :: stay).dropWhile (·.kind ≠ .leftParen) = lp :: stay := by
    rw [List.dropWhile_append_of_pos fun w hw => decide_eq_true (hgone w hw)]
    simp [hlp]
  simp only [step, h, hy, htake, hdrop]
  rfl

end Yard

namespace Parse
variable {table : Precedence} {p : Parse}

/-- The operators on the right edge, the last one first. -/
def pending : Parse → List Token
  | apply op _ _ r => r.pending ++ [op]
  | _ => []

/-- All numbers and operators but those on the right edge, in postorder. -/
def emitted : Parse → List Token
  | number t _ => [t]
  | group _ _ _ _ e => e.tree.postorder
  | apply _ _ l r => l.tree.postorder ++ r.emitted

theorem emitted_append_pending (p : Parse) : p.emitted ++ p.pending = p.tree.postorder := by
  induction p with
  | number => rfl
  | group => exact List.append_nil _
  | apply op h l r _ ihr => simp [emitted, pending, tree, Tree.postorder, ← ihr]

theorem Ordered.pending_rank (hp : Ordered table p) : ∀ w ∈ p.pending, w.kind = .operator ∧
    ∃ i, table.lookup w.lexeme = some i ∧ ∃ k ∈ p.rank? table, k ≤ i := by
  induction hp with
  | number | group => exact nofun
  | @apply op h l r k hk _ _ _ hkr _ ihr =>
    intro w hw
    rcases List.mem_append.1 hw with hw | hw
    · obtain ⟨hkind, i, hi, j, hj, hle⟩ := ihr w hw
      exact ⟨hkind, i, hi, k, hk, Int.le_trans (Int.le_of_lt (hkr j hj)) hle⟩
    · cases List.mem_singleton.1 hw
      exact ⟨h, k, hk, k, hk, Int.le_refl k⟩

theorem foldlM_step_tokens (hp : Ordered table p) (y : Yard)
    (hy : ∀ k ∈ p.rank? table, Yard.Fits table k y.waiting) :
    p.tokens.foldlM (Yard.step table) y =
      .ok ⟨y.output ++ p.emitted, p.pending ++ y.waiting⟩ := by
  induction hp generalizing y with
  | number t h =>
    rw [tokens, List.foldlM_cons, Yard.step_number h]
    simp [emitted, pending, pure, Except.pure, bind, Except.bind]
  | @group e lp rp hl hr he ih =>
    -- behind the parenthesis nothing waits that could be applied before `e`
    have hfits : ∀ k ∈ e.rank? table, Yard.Fits table k (lp :: y.waiting) := by
      rintro k _ w ⟨⟩ hne
      exact absurd hl hne
    rw [tokens, List.foldlM_cons, Yard.step_leftParen hl]
    show ((e.tokens ++ [rp]).foldlM _ _ : Except Fault Yard) = _
    rw [List.foldlM_append, ih _ hfits]
    show Yard.step table _ rp >>= pure = _
    rw [bind_pure, Yard.step_rightParen hr rfl (fun w hw => ?_) hl]
    · simp [emitted, pending, ← emitted_append_pending e, Yard.append_list_append]
    · rw [(he.pending_rank w hw).1]
      decide
  | @apply op h l r k hk hl hr hkl hkr ihl ihr =>
    have hyl : ∀ j ∈ l.rank? table, Yard.Fits table j y.waiting :=
      fun j hj => (hy k hk).mono (hkl j hj)
    have hgone : ∀ w ∈ l.pending, w.kind = .operator ∧
        ∃ i, table.lookup w.lexeme = some i ∧ k ≤ i := by
      intro w hw
      obtain ⟨hkind, i, hi, j, hj, hle⟩ := hl.pending_rank w hw
      exact ⟨hkind, i, hi, Int.le_trans (hkl j hj) hle⟩
    have hfits : ∀ j ∈ r.rank? table, Yard.Fits table j (op :: y.waiting) := by
      rintro j hj w ⟨⟩ _
      exact ⟨k, hk, hkr j hj⟩
    rw [tokens, List.foldlM_append, ihl y hyl]
    show ((op :: r.tokens).foldlM _ _ : Except Fault Yard) = _
    rw [List.foldlM_cons,
      Yard.step_operator h hk (Yard.release_append hk hgone (hy k hk))]
    show (r.tokens.foldlM _ _ : Except Fault Yard) = _
    rw [ihr _ hfits]
    simp [emitted, pending, ← emitted_append_pending l, Yard.append_list_append]

theorem Ordered.toPostfix_tokens (hp : Ordered table p) :
    toPostfix table p.tokens = .ok p.tree.postorder := by
  have hnone : p.pending.find? (·.kind = .leftParen) = none := by
    refine List.find?_eq_none.2 fun w hw => ?_
    rw [(hp.pending_rank w hw).1]
    nofun
  unfold toPostfix
  rw [foldlM_step_tokens hp Yard.empty (by rintro k _ w ⟨⟩)]
  show Yard.finish _ = _
  simp [Yard.finish, Yard.empty, hnone, ← emitted_append_pending p, pure, Except.pure]

end Parse

/-- An expression whose tokens have an ordered parse has the value of that parse. -/
theorem Calculator.evaluateExpression_of_ordered {limits : Limits} {s : String} {p : Parse}
    (hp : p.Ordered .arithmetic) (hs : Lexicon.arithmetic.tokenize limits s = .ok p.tokens) :
    evaluateExpression limits s = p.tree.value limits (.arithmetic limits) := by
  unfold evaluateExpression
  rw [hs]
  show toPostfix .arithmetic p.tokens >>= evaluate limits (.arithmetic limits) = _
  rw [hp.toPostfix_tokens]
  exact evaluate_postorder limits _ p.tree

/-- Infix text is converted to the postorder of its parse by the ranks of the table, and it has
exactly one such parse. -/
theorem toPostfix_of_derives (table : Precedence) (ts : List Token) (hd : Derives .expression ts)
    (hc : table.Covers ts) :
    (∃! p : Parse, p.tokens = ts ∧ p.Ordered table) ∧
      ∀ p : Parse, p.tokens = ts → p.Ordered table → toPostfix table ts = .ok p.tree.postorder := by
  obtain ⟨p, hts, hp, -⟩ := Parse.exists_ordered_of_derives hd hc
  refine ⟨⟨p, ⟨hts, hp⟩, fun q ⟨hq, ho⟩ => ho.unique hp (hq.trans hts.symm)⟩, ?_⟩
  rintro q rfl hq
  exact hq.toPostfix_tokens

/-- Operators of equal rank are applied from left to right, those in parentheses first. -/
theorem toPostfix_of_derives_equal_rank :
    let num (s : String) : Token := ⟨.number, s, none⟩
    let op (s : String) : Token := ⟨.operator, s, none⟩
    let ts := [num "9", op "-", ⟨.leftParen, "(", none⟩, num "4", op "+", num "3",
      ⟨.rightParen, ")", none⟩, op "-", num "2"]
    Derives .expression ts ∧ Precedence.Covers [("-", 1), ("+", 1)] ts ∧
      toPostfix [("-", 1), ("+", 1)] ts =
        .ok [num "9", num "4", num "3", op "+", op "-", num "2", op "-"] := by
  intro num op ts
  let sum : Parse := .apply (op "+") rfl (.number (num "4") rfl) (.number (num "3") rfl)
  let p : Parse := .apply (op "-") rfl
    (.apply (op "-") rfl (.number (num "9") rfl)
      (.group ⟨.leftParen, "(", none⟩ ⟨.rightParen, ")", none⟩ rfl rfl sum))
    (.number (num "2") rfl)
  have hsum : sum.Ordered [("-", 1), ("+", 1)] := .apply rfl (.number _ _) (.number _ _) nofun nofun
  have hp : p.Ordered [("-", 1), ("+", 1)] := by
    refine .apply rfl (.apply rfl (.number _ _) (.group _ _ _ _ hsum) nofun nofun) (.number _ _)
      ?_ nofun
    rintro j ⟨⟩
    decide
  have hc : Precedence.Covers [("-", 1), ("+", 1)] ts := by
    unfold Precedence.Covers
    decide
  exact ⟨p.derives, hc, (toPostfix_of_derives _ ts p.derives hc).2 p rfl hp⟩

end ExprCalc
