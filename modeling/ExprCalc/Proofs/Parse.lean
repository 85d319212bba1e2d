import ExprCalc.Precedence
import ExprCalc.Proofs.Tree

/-!
# Infix text and its parses

`Derives` is the grammar of infix text: operands with an operator between each two, where an operand
is a number or an expression in parentheses. A `Parse` says besides which operands each operator is
applied to, and `Parse.Ordered` that it does so by the ranks of a table: an operand may only go
without parentheses if its own operator ranks higher, on the left side also if it ranks equal.

Every text of the grammar has an ordered parse: `Parse.extend` reads one more operator and operand
behind an ordered parse and leaves it ordered.
-/

namespace ExprCalc

inductive Phrase
  | operand
  | expression

/-- An operand is a number or an expression in parentheses, an expression is operands with operators
between them. -/
inductive Derives : Phrase → List Token → Prop
  | number {t : Token} : t.kind = .number → Derives .operand [t]
  | group {lp rp : Token} {ts : List Token} : lp.kind = .leftParen → rp.kind = .rightParen →
      Derives .expression ts → Derives .operand (lp :: (ts ++ [rp]))
  | single {ts : List Token} : Derives .operand ts → Derives .expression ts
  | chain {op : Token} {ts us : List Token} : Derives .expression ts → op.kind = .operator →
      Derives .operand us → Derives .expression (ts ++ op :: us)

theorem Derives.append {phrase : Phrase} {op : Token} {ts us : List Token}
    (hl : Derives .expression ts) (ho : op.kind = .operator) (hr : Derives phrase us) :
    Derives .expression (ts ++ op :: us) := by
  induction hr with
  | number ht => exact .chain hl ho (.number ht)
  | group hlp hrp he _ => exact .chain hl ho (.group hlp hrp he)
  | single _ ih => exact ih
  | chain _ ho' hu ih _ =>
    rw [← List.cons_append, ← List.append_assoc]
    exact .chain ih ho' hu

def Precedence.Covers (table : Precedence) (ts : List Token) : Prop :=
  ∀ t ∈ ts, t.kind = .operator → (table.lookup t.lexeme).isSome

def Precedence.below (table : Precedence) (a b : Token) : Bool :=
  match table.lookup a.lexeme, table.lookup b.lexeme with
  | some i, some j => i < j
  | _, _ => false

theorem Precedence.below_iff {table : Precedence} {a b : Token} {i j : Int}
    (ha : table.lookup a.lexeme = some i) (hb : table.lookup b.lexeme = some j) :
    table.below a b = true ↔ i < j := by
  simp [below, ha, hb]

namespace Precedence.Covers
variable {table : Precedence} {ts us : List Token} {t : Token}

theorem left (h : table.Covers (ts ++ us)) : table.Covers ts :=
  fun t ht => h t (List.mem_append_left _ ht)

theorem right (h : table.Covers (ts ++ us)) : table.Covers us :=
  fun t ht => h t (List.mem_append_right _ ht)

theorem tail (h : table.Covers (t :: ts)) : table.Covers ts :=
  fun t ht => h t (List.mem_cons_of_mem _ ht)

theorem head (h : table.Covers (t :: ts)) (ht : t.kind = .operator) :
    ∃ k, table.lookup t.lexeme = some k :=
  Option.isSome_iff_exists.1 (h t List.mem_cons_self ht)

end Precedence.Covers

inductive Parse
  | number (t : Token) (isNumber : t.kind = .number)
  | group (lp rp : Token) (isLeft : lp.kind = .leftParen) (isRight : rp.kind = .rightParen)
      (e : Parse)
  | apply (op : Token) (isOperator : op.kind = .operator) (l r : Parse)

namespace Parse

def tokens : Parse → List Token
  | number t _ => [t]
  | group lp rp _ _ e => lp :: (e.tokens ++ [rp])
  | apply op _ l r => l.tokens ++ op :: r.tokens

theorem derives (p : Parse) : Derives .expression p.tokens := by
  induction p with
  | number t ht => exact .single (.number ht)
  | group lp rp hl hr e ih => exact .single (.group hl hr ih)
  | apply op h l r ihl ihr => exact ihl.append h ihr

/-- The parse without its parentheses. -/
def tree : Parse → Tree
  | number t h => .leaf t h
  | group _ _ _ _ e => e.tree
  | apply op h l r => .node op h l.tree r.tree

/-- The operator that is applied last, unless that happens in parentheses. -/
def top? : Parse → Option Token
  | apply op .. => some op
  | _ => none

def rank? (table : Precedence) (p : Parse) : Option Int :=
  p.top?.bind fun op => table.lookup op.lexeme

@[simp] theorem rank?_apply (table : Precedence) (op : Token) (h) (l r : Parse) :
    (apply op h l r).rank? table = table.lookup op.lexeme := rfl

theorem rank?_of_top?_eq_none {table : Precedence} {p : Parse} (h : p.top? = none) :
    p.rank? table = none := by
  rw [rank?, h, Option.bind_none]

/-- Operands without parentheses bind at least as tight as the operator to their right, and tighter
than the one to their left. -/
inductive Ordered (table : Precedence) : Parse → Prop
  | number (t : Token) (h : t.kind = .number) : Ordered table (number t h)
  | group {e : Parse} (lp rp : Token) (hl : lp.kind = .leftParen) (hr : rp.kind = .rightParen) :
      Ordered table e → Ordered table (group lp rp hl hr e)
  | apply {op : Token} {h : op.kind = .operator} {l r : Parse} {k : Int} :
      table.lookup op.lexeme = some k → Ordered table l → Ordered table r →
      (∀ j ∈ l.rank? table, k ≤ j) → (∀ j ∈ r.rank? table, k < j) →
      Ordered table (apply op h l r)

/-! ### Reading one more operand -/

/-- Reads the operator `op` and its right operand `q` behind a parse: `op` goes below the operators
at the right edge that rank lower and above all others. -/
def extend (table : Precedence) (op : Token) (h : op.kind = .operator) (q : Parse) : Parse → Parse
  | apply op' h' l r =>
    if table.below op' op then apply op' h' l (extend table op h q r)
    else apply op h (apply op' h' l r) q
  | p => apply op h p q

section
variable {table : Precedence} {op : Token} {h : op.kind = .operator} {q : Parse} {k : Int}

theorem extend_of_below {op' : Token} {h' : op'.kind = .operator} {l r : Parse}
    (hb : table.below op' op = true) :
    extend table op h q (apply op' h' l r) = apply op' h' l (extend table op h q r) := by
  rw [extend, if_pos hb]

theorem extend_of_not_below {p : Parse} (hp : ∀ o ∈ p.top?, table.below o op = false) :
    extend table op h q p = apply op h p q := by
  cases p with
  | number | group => rfl
  | apply op' h' l r => rw [extend, if_neg (by simp [hp op' rfl])]

theorem tokens_extend (p : Parse) :
    (extend table op h q p).tokens = p.tokens ++ op :: q.tokens := by
  induction p with
  | number | group => rfl
  | apply op' h' l r _ ihr =>
    unfold extend
    split
    · simp [tokens, ihr]
    · rfl

theorem rank?_extend (hk : table.lookup op.lexeme = some k) (p : Parse) {j : Int}
    (hj : j ∈ (extend table op h q p).rank? table) : j = k ∨ j ∈ p.rank? table := by
  cases p with
  | number | group => exact .inl (Option.some.inj ((Option.mem_def.1 hj).symm.trans hk))
  | apply op' h' l r =>
    unfold extend at hj
    split at hj
    · exact .inr hj
    · exact .inl (Option.some.inj ((Option.mem_def.1 hj).symm.trans hk))

theorem Ordered.extend {p : Parse} (hp : Ordered table p) (hq : Ordered table q)
    (hk : table.lookup op.lexeme = some k) (hkq : ∀ j ∈ q.rank? table, k < j) :
    Ordered table (extend table op h q p) := by
  induction hp with
  | number t ht => exact .apply hk (.number t ht) hq nofun hkq
  | group lp rp hl hr he => exact .apply hk (.group lp rp hl hr he) hq nofun hkq
  | @apply op' h' l r k' hk' hl hr hkl hkr _ ihr =>
    unfold Parse.extend
    split
    · next hlt =>
      rw [Precedence.below_iff hk' hk] at hlt
      refine .apply hk' hl ihr hkl fun j hj => ?_
      rcases rank?_extend hk r hj with rfl | hj
      · exact hlt
      · exact hkr j hj
    · next hlt =>
      rw [Precedence.below_iff hk' hk] at hlt
      refine .apply hk (.apply hk' hl hr hkl hkr) hq (fun j hj => ?_) hkq
      rw [rank?_apply, hk', Option.mem_some_iff] at hj
      omega

end

theorem exists_ordered_of_derives {table : Precedence} {phrase : Phrase} {ts : List Token}
    (hd : Derives phrase ts) (hc : table.Covers ts) :
    ∃ p : Parse, p.tokens = ts ∧ Ordered table p ∧ (phrase = .operand → p.top? = none) := by
  induction hd with
  | @number t ht => exact ⟨.number t ht, rfl, .number t ht, fun _ => rfl⟩
  | @group lp rp ts hl hr _ ih =>
    obtain ⟨e, rfl, he, -⟩ := ih hc.tail.left
    exact ⟨.group lp rp hl hr e, rfl, .group lp rp hl hr he, fun _ => rfl⟩
  | single _ ih =>
    obtain ⟨p, hp, ho, -⟩ := ih hc
    exact ⟨p, hp, ho, nofun⟩
  | @chain op ts us _ hop _ ihl ihr =>
    obtain ⟨p, rfl, hp, -⟩ := ihl hc.left
    obtain ⟨q, rfl, hq, htop⟩ := ihr hc.right.tail
    obtain ⟨k, hk⟩ := hc.right.head hop
    have hkq : ∀ j ∈ q.rank? table, k < j := by
      rw [rank?_of_top?_eq_none (htop rfl)]
      nofun
    exact ⟨extend table op hop q p, tokens_extend p, hp.extend hq hk hkq, nofun⟩

end Parse

end ExprCalc
