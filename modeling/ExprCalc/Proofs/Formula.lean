import ExprCalc.Proofs.Conversion
import ExprCalc.Proofs.Scan

/-!
# Formulas and their texts

A `Formula` is an arithmetic expression by itself, and `Formula.Written` relates it to its texts. An
operand stands in parentheses where the ranks require it and may do so anywhere, any number of times;
characters of no lexical class may stand between the tokens.

Each text is cut into the tokens of an ordered parse that has the value of the formula
(`Formula.Written.exists_reads`), whence the calculator evaluates a text as its formula.
-/

namespace ExprCalc

/-- Runs of digits at the leaves, operators at the inner nodes. -/
inductive Formula
  | number (digits : List Char) (ne_nil : digits ≠ []) (isDigit : ∀ c ∈ digits, c.isDigit = true)
  | apply (op : Operator) (l r : Formula)

/-- Characters that belong to no token. -/
def Gap (w : List Char) : Prop := ∀ c ∈ w, lexicalClass c = none

namespace Operator

def rank (op : Operator) : Int := (Precedence.arithmetic.lookup op.lexeme).getD 0

theorem lookup_lexeme (op : Operator) :
    Precedence.arithmetic.lookup op.lexeme = some op.rank := by
  cases op <;> decide

theorem head?_lexeme_isDigit (op : Operator) (cs : List Char) :
    ∀ c ∈ (op.lexeme.toList ++ cs).head?, c.isDigit = false := by
  cases op <;> rintro c ⟨⟩ <;> rfl

theorem arithmetic_lexeme (limits : Limits) (op : Operator) :
    Operations.arithmetic limits op.lexeme = some (op.apply limits) := by
  rw [Operations.arithmetic, ofLexeme?_lexeme]
  rfl

end Operator

namespace Formula

/-- The value from the bottom up, the left operand before the right one. -/
def value (limits : Limits) : Formula → Except Fault Int
  | number digits _ _ => parseNumber limits (String.ofList digits)
  | apply op l r => do
    let x ← l.value limits
    let y ← r.value limits
    applyChecked limits (op.apply limits) x y

theorem value_apply (limits : Limits) (op : Operator) (l r : Formula) :
    (apply op l r).value limits = (do
      let x ← l.value limits
      let y ← r.value limits
      applyChecked limits (op.apply limits) x y) := rfl

/-- The formulas at the nodes, every one behind those of its operands. -/
def nodes : Formula → List Formula
  | number digits ne_nil isDigit => [number digits ne_nil isDigit]
  | apply op l r => l.nodes ++ r.nodes ++ [apply op l r]

theorem exists_value_of_mem_nodes {limits : Limits} {e n : Formula} {v : Int}
    (h : e.value limits = .ok v) (hn : n ∈ e.nodes) : ∃ x, n.value limits = .ok x := by
  induction e generalizing v with
  | number digits ne_nil isDigit =>
    cases List.mem_singleton.1 hn
    exact ⟨v, h⟩
  | apply op l r ihl ihr =>
    obtain ⟨x, hx, h'⟩ := bind_eq_ok.1 h
    obtain ⟨y, hy, -⟩ := bind_eq_ok.1 h'
    simp only [nodes, List.mem_append, List.mem_singleton] at hn
    rcases hn with (hn | hn) | rfl
    · exact ihl hx hn
    · exact ihr hy hn
    · exact ⟨v, h⟩

/-- A formula without a value fails as the first of its nodes does that has none. -/
theorem exists_first_fault {limits : Limits} {e : Formula} {f : Fault}
    (h : e.value limits = .error f) :
    ∃ pre n post, e.nodes = pre ++ n :: post ∧ (∀ m ∈ pre, ∃ x, m.value limits = .ok x) ∧
      n.value limits = .error f := by
  induction e with
  | number digits ne_nil isDigit => exact ⟨[], _, [], rfl, nofun, h⟩
  | apply op l r ihl ihr =>
    have hop := h
    rw [value_apply] at h
    cases hl : l.value limits with
    | error g =>
      rw [hl] at h
      obtain ⟨pre, n, post, hnodes, hpre, hn⟩ := ihl (hl.trans h)
      exact ⟨pre, n, post ++ r.nodes ++ [apply op l r], by simp [nodes, hnodes], hpre, hn⟩
    | ok x =>
      have hbefore : ∀ m ∈ l.nodes, ∃ x, m.value limits = .ok x :=
        fun m hm => exists_value_of_mem_nodes hl hm
      cases hr : r.value limits with
      | error g =>
        rw [hl, hr] at h
        obtain ⟨pre, n, post, hnodes, hpre, hn⟩ := ihr (hr.trans h)
        refine ⟨l.nodes ++ pre, n, post ++ [apply op l r], by simp [nodes, hnodes], ?_, hn⟩
        exact fun m hm => (List.mem_append.1 hm).elim (hbefore m) (hpre m)
      | ok y =>
        refine ⟨l.nodes ++ r.nodes, apply op l r, [], rfl, ?_, hop⟩
        exact fun m hm => (List.mem_append.1 hm).elim (hbefore m)
          fun hm => exists_value_of_mem_nodes hr hm

/-- `cs` is a text of the formula from its first token to its last one, and `top` the operator that
is applied last, unless that is in parentheses. -/
inductive Written : Formula → (top : Option Operator) → (cs : List Char) → Prop
  | number (digits : List Char) (ne_nil isDigit) :
      Written (number digits ne_nil isDigit) none digits
  | group {e : Formula} {top : Option Operator} {v cs w : List Char} :
      Gap v → Written e top cs → Gap w → Written e none ('(' :: (v ++ (cs ++ (w ++ [')']))))
  | apply {op : Operator} {l r : Formula} {topl topr : Option Operator} {cs v w ds : List Char} :
      (∀ o ∈ topl, op.rank ≤ o.rank) → (∀ o ∈ topr, op.rank < o.rank) →
      Written l topl cs → Gap v → Gap w → Written r topr ds →
      Written (apply op l r) (some op) (cs ++ (v ++ (op.lexeme.toList ++ (w ++ ds))))

def IsText (e : Formula) (s : String) : Prop :=
  ∃ top v cs w, Gap v ∧ e.Written top cs ∧ Gap w ∧ s.toList = v ++ (cs ++ w)

end Formula

/-! ### Gaps -/

namespace Gap
variable {w : List Char}

theorem scan (hw : Gap w) {pos : Nat} {cs : List Char} {os : List Occurrence}
    (h : Scan (pos + w.length) cs os) : Scan pos (w ++ cs) os := by
  induction w generalizing pos with
  | nil => exact h
  | cons c w ih =>
    refine .skip (hw c List.mem_cons_self) (ih (fun c hc => hw c (List.mem_cons_of_mem _ hc)) ?_)
    rwa [Nat.add_assoc, Nat.add_comm 1]

/-- What cannot be the first character behind a gap cannot be the first of the gap, if it belongs to
a token. -/
theorem head? (hw : Gap w) {P : Char → Prop} (hP : ∀ c, lexicalClass c = none → P c)
    {cs : List Char} (hcs : ∀ c ∈ cs.head?, P c) : ∀ c ∈ (w ++ cs).head?, P c := by
  cases w with
  | nil => exact hcs
  | cons d w =>
    rintro c ⟨⟩
    exact hP _ (hw _ List.mem_cons_self)

theorem head?_isDigit (hw : Gap w) {cs : List Char} (hcs : ∀ c ∈ cs.head?, c.isDigit = false) :
    ∀ c ∈ (w ++ cs).head?, c.isDigit = false := by
  refine hw.head? (fun c hc => ?_) hcs
  by_contra hd
  rw [lexicalClass, if_pos (by simpa using hd)] at hc
  cases hc

end Gap

namespace Formula

/-- The parse `p`, with the tokens `os`, is how the text `cs` of a formula is read at offset
`pos`. -/
structure Reads (e : Formula) (top : Option Operator) (pos : Nat) (cs : List Char) (p : Parse)
    (os : List Occurrence) : Prop where
  tokens : os.map Occurrence.token = p.tokens
  ordered : p.Ordered .arithmetic
  rank : p.rank? .arithmetic = top.map Operator.rank
  value : ∀ limits, p.tree.value limits (.arithmetic limits) = e.value limits
  scan : ∀ rest os', (∀ c ∈ rest.head?, c.isDigit = false) →
    Scan (pos + cs.length) rest os' → Scan pos (cs ++ rest) (os ++ os')

variable {pos : Nat} {v w cs ds : List Char} {p q : Parse} {os os' : List Occurrence}

theorem Reads.number (digits : List Char) (ne_nil isDigit) (pos : Nat) :
    Reads (number digits ne_nil isDigit) none pos digits
      (.number ⟨.number, String.ofList digits, some pos⟩ rfl) [⟨.number, pos, digits⟩] where
  tokens := rfl
  ordered := .number _ rfl
  rank := rfl
  value _ := rfl
  scan _ _ hrest h := .token (.number ne_nil isDigit hrest) h

theorem Reads.group {e : Formula} {top : Option Operator} (hv : Gap v)
    (h : Reads e top (pos + 1 + v.length) cs p os) (hw : Gap w) :
    ∃ q os', Reads e none pos ('(' :: (v ++ (cs ++ (w ++ [')'])))) q os' := by
  let lp : Occurrence := ⟨.leftParen, pos, ['(']⟩
  let rp : Occurrence := ⟨.rightParen, pos + 1 + v.length + cs.length + w.length, [')']⟩
  refine ⟨.group lp.token rp.token rfl rfl p, lp :: (os ++ [rp]), ?_, .group _ _ _ _ h.ordered, rfl,
    h.value, fun rest os' _ hs => ?_⟩
  · rw [List.map_cons, List.map_append, h.tokens]
    rfl
  · have hrp : Scan rp.start (')' :: rest) (rp :: os') := by
      show Scan rp.start ([')'] ++ rest) _
      refine .token .rightParen ?_
      convert hs using 1
      simp [rp]
      omega
    have hdigit : ∀ c ∈ (w ++ ')' :: rest).head?, c.isDigit = false :=
      hw.head?_isDigit (by rintro c ⟨⟩; rfl)
    have hbody : Scan (pos + 1) (v ++ (cs ++ (w ++ ')' :: rest))) (os ++ rp :: os') :=
      hv.scan (h.scan _ _ hdigit (hw.scan hrp))
    have hall : Scan pos (['('] ++ (v ++ (cs ++ (w ++ ')' :: rest)))) _ := .token .leftParen hbody
    simpa using hall

theorem Reads.apply {op : Operator} {l r : Formula} {topl topr : Option Operator}
    (hl : ∀ o ∈ topl, op.rank ≤ o.rank) (hr : ∀ o ∈ topr, op.rank < o.rank)
    (hp : Reads l topl pos cs p os) (hv : Gap v) (hw : Gap w)
    (hq : Reads r topr (pos + cs.length + v.length + op.lexeme.toList.length + w.length) ds q os')
    (hne : ∀ rest, ∀ c ∈ (ds ++ rest).head?, c ≠ '*') :
    ∃ p' os'', Reads (.apply op l r) (some op) pos
      (cs ++ (v ++ (op.lexeme.toList ++ (w ++ ds)))) p' os'' := by
  let o : Occurrence := ⟨.operator, pos + cs.length + v.length, op.lexeme.toList⟩
  have hkind : o.token.kind = .operator := rfl
  have ho : o.token.lexeme = op.lexeme := String.ofList_toList
  have hk : Precedence.arithmetic.lookup o.token.lexeme = some op.rank := by
    rw [ho, op.lookup_lexeme]
  refine ⟨.apply o.token hkind p q, os ++ o :: os', ?_, ?_, hk, fun limits => ?_,
    fun rest os'' hrest hs => ?_⟩
  · rw [List.map_append, List.map_cons, hp.tokens, hq.tokens]
    rfl
  · refine .apply hk hp.ordered hq.ordered ?_ ?_
    · rw [hp.rank]
      simpa using hl
    · rw [hq.rank]
      simpa using hr
  · rw [Parse.tree, Tree.value_node, hp.value, hq.value, ho]
    simp only [applyLexeme, op.arithmetic_lexeme]
    rfl
  · have hstar : (w ++ (ds ++ rest)).head? ≠ some '*' := fun h =>
      hw.head? (P := (· ≠ '*')) (by rintro c hc rfl; cases hc) (hne rest) '*' h rfl
    have hop : Scan o.start (op.lexeme.toList ++ (w ++ (ds ++ rest))) (o :: (os' ++ os'')) := by
      refine .token (.operator op fun _ => hstar) (hw.scan (hq.scan _ _ hrest ?_))
      convert hs using 1
      simp
      omega
    have hdigit : ∀ c ∈ (v ++ (op.lexeme.toList ++ (w ++ (ds ++ rest)))).head?,
        c.isDigit = false := hv.head?_isDigit (op.head?_lexeme_isDigit _)
    have hall := hp.scan _ _ hdigit (hv.scan hop)
    simpa using hall

namespace Written
variable {e : Formula} {top : Option Operator}

/-- A text begins with a digit or a parenthesis. -/
theorem head?_ne_star (h : Written e top cs) (rest : List Char) :
    ∀ c ∈ (cs ++ rest).head?, c ≠ '*' := by
  induction h generalizing rest with
  | number digits ne_nil isDigit =>
    obtain ⟨d, ds, rfl⟩ := List.exists_cons_of_ne_nil ne_nil
    rintro c ⟨⟩ rfl
    exact absurd (isDigit '*' List.mem_cons_self) (by decide)
  | group => rintro c ⟨⟩; decide
  | apply _ _ _ _ _ _ ihl _ =>
    rw [List.append_assoc]
    exact ihl _

theorem exists_reads (h : Written e top cs) (pos : Nat) : ∃ p os, Reads e top pos cs p os := by
  induction h generalizing pos with
  | number digits ne_nil isDigit => exact ⟨_, _, .number digits ne_nil isDigit pos⟩
  | group hv _ hw ih =>
    obtain ⟨p, os, h⟩ := ih _
    exact h.group hv hw
  | apply hl hr _ hv hw hr' ihl ihr =>
    obtain ⟨p, os, hp⟩ := ihl pos
    obtain ⟨q, os', hq⟩ := ihr _
    exact hp.apply hl hr hv hw hq hr'.head?_ne_star

end Written

end Formula

theorem Formula.IsText.evaluateExpression_eq {limits : Limits} {e : Formula} {s : String}
    (hs : e.IsText s) (hl : (s.length : Int) ≤ limits.maxLength) :
    Calculator.evaluateExpression limits s = e.value limits := by
  obtain ⟨top, v, cs, w, hv, h, hw, hcs⟩ := hs
  obtain ⟨p, os, hp⟩ := h.exists_reads (0 + v.length)
  have hdigit : ∀ c ∈ (w ++ []).head?, c.isDigit = false := hw.head?_isDigit nofun
  have hscan : Scan 0 s.toList os := by
    have hend := hp.scan (w ++ []) [] hdigit (hw.scan .done)
    rw [List.append_nil, List.append_nil] at hend
    rw [hcs]
    exact hv.scan hend
  have htokens : Lexicon.arithmetic.tokenize limits s = .ok p.tokens := by
    rw [hscan.tokenize_eq hl, hp.tokens]
  rw [Calculator.evaluateExpression_of_ordered hp.ordered htokens, hp.value]

/-- A run of digits is worth what it is as a literal. -/
theorem Calculator.evaluateExpression_of_digits {limits : Limits} {s : String} (hne : s.toList ≠ [])
    (hd : ∀ c ∈ s.toList, c.isDigit = true) (hl : (s.length : Int) ≤ limits.maxLength) :
    evaluateExpression limits s = parseNumber limits s := by
  have htext : (Formula.number s.toList hne hd).IsText s :=
    ⟨none, [], _, [], nofun, .number _ _ _, nofun, by simp⟩
  rw [htext.evaluateExpression_eq hl, Formula.value, String.ofList_toList]

/-- An expression is worth what the formula is that it is a text of. If it has no value, it fails as
the first node of the formula does that has none, every operand before its operator. -/
theorem evaluateExpression_of_isText (limits : Limits) (e : Formula) (s : String)
    (hs : e.IsText s) (hl : (s.length : Int) ≤ limits.maxLength) :
    Calculator.evaluateExpression limits s = e.value limits ∧
      ∀ f, Calculator.evaluateExpression limits s = .error f →
        ∃ pre n post, e.nodes = pre ++ n :: post ∧ (∀ m ∈ pre, ∃ x, m.value limits = .ok x) ∧
          n.value limits = .error f := by
  have heval := hs.evaluateExpression_eq hl
  exact ⟨heval, fun f hf => Formula.exists_first_fault (heval.symm.trans hf)⟩

theorem evaluateExpression_of_isText_zero_power :
    ∃ e : Formula, e.IsText " (4 - 4)**((1-2))" ∧ (" (4 - 4)**((1-2))".length : Int) ≤ 1000 ∧
      Calculator.evaluateExpression ⟨1000, 100, 333, some 4300⟩ " (4 - 4)**((1-2))" =
        .error .zeroToNegativePower := by
  have hnone : Gap [] := nofun
  have hspace : Gap [' '] := by
    rintro c hc
    rw [List.mem_singleton.1 hc]
    rfl
  let digit (c : Char) (h : c.isDigit = true) : Formula :=
    .number [c] (List.cons_ne_nil _ _) (by simpa using h)
  have hdigit (c : Char) (h : c.isDigit = true) : (digit c h).Written none [c] := .number _ _ _
  have hzero : (Formula.apply .sub (digit '4' rfl) (digit '4' rfl)).Written (some .sub)
      (['4'] ++ ([' '] ++ (['-'] ++ ([' '] ++ ['4'])))) :=
    .apply (by nofun) (by nofun) (hdigit _ rfl) hspace hspace (hdigit _ rfl)
  have hminus : (Formula.apply .sub (digit '1' rfl) (digit '2' rfl)).Written (some .sub)
      (['1'] ++ ([] ++ (['-'] ++ ([] ++ ['2'])))) :=
    .apply (by nofun) (by nofun) (hdigit _ rfl) hnone hnone (hdigit _ rfl)
  have hpow : Formula.Written _ (some .pow) _ :=
    .apply (by nofun) (by nofun) (.group hnone hzero hnone) hnone hnone
      (.group hnone (.group hnone hminus hnone) hnone)
  have he : Formula.IsText _ " (4 - 4)**((1-2))" :=
    ⟨_, [' '], _, [], hspace, hpow, hnone, rfl⟩
  exact ⟨_, he, by decide, (evaluateExpression_of_isText _ _ _ he (by decide)).1⟩

end ExprCalc
