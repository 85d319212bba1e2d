import ExprCalc.Proofs.Exact
import ExprCalc.Proofs.Formula

/-!
# Conventional reading

By convention `*` and `/` have one rank, as have `+` and `-`, and are applied from left to right.
The calculator's ranks differ, but where no `/` comes after a `*` in one product, its parse differs
from the conventional one only in sums: it reads `a + b - c` as `a + (b - c)`. `Parse.regroup` turns
the conventional parse of a text into that of the calculator, and keeps its exact value
(`Parse.exactValue_regroup`).
-/

namespace ExprCalc

namespace Operator

def level : Operator → Int
  | pow => 2
  | mul | div => 1
  | add | sub => 0

theorem rank_lt_of_level_lt {op op' : Operator} (h : op.level < op'.level) :
    op.rank < op'.rank := by
  revert h
  cases op <;> cases op' <;> decide

/-- The convention and the ranks agree but on `-` behind `+` and `/` behind `*`. -/
theorem rank_le_of_level_le {op op' : Operator} (hsub : op ≠ .sub)
    (hdiv : op = .div → op' ≠ .mul) (h : op.level ≤ op'.level) : op.rank ≤ op'.rank := by
  revert hsub hdiv h
  cases op <;> cases op' <;> decide

theorem rank_sub_le {op : Operator} (h : op ≠ .add) : sub.rank ≤ op.rank := by
  revert h
  cases op <;> decide

theorem exists_of_lookup {s : String} {k : Int} (h : Precedence.arithmetic.lookup s = some k) :
    ∃ op, ofLexeme? s = some op ∧ k = op.rank := by
  obtain ⟨_, _, htable, _⟩ := List.lookup_eq_some_iff.1 h
  have hmem : (s, k) ∈ Precedence.arithmetic := htable ▸ by simp
  simp only [Precedence.arithmetic, List.mem_cons, Prod.mk.injEq, List.not_mem_nil,
    or_false] at hmem
  rcases hmem with ⟨rfl, rfl⟩ | ⟨rfl, rfl⟩ | ⟨rfl, rfl⟩ | ⟨rfl, rfl⟩ | ⟨rfl, rfl⟩
  exacts [⟨pow, rfl, rfl⟩, ⟨div, rfl, rfl⟩, ⟨mul, rfl, rfl⟩, ⟨sub, rfl, rfl⟩, ⟨add, rfl, rfl⟩]

end Operator

def Precedence.conventional : Precedence := Operator.all.map fun op => (op.lexeme, op.level)

theorem Operator.lookup_conventional (op : Operator) :
    Precedence.conventional.lookup op.lexeme = some op.level := by
  cases op <;> decide

namespace Parse

/-- The operator that is applied last, unless that happens in parentheses. -/
def operator? (p : Parse) : Option Operator := p.top?.bind fun op => Operator.ofLexeme? op.lexeme

/-- A reading by convention. Which of two powers in a row comes first is left open. -/
inductive Conventional : Parse → Prop
  | number (t : Token) (h : t.kind = .number) : Conventional (number t h)
  | group {e : Parse} (lp rp : Token) (hl : lp.kind = .leftParen) (hr : rp.kind = .rightParen) :
      Conventional e → Conventional (group lp rp hl hr e)
  | apply {op : Token} {h : op.kind = .operator} {l r : Parse} {o : Operator} :
      Operator.ofLexeme? op.lexeme = some o → Conventional l → Conventional r →
      (∀ a ∈ l.operator?, o.level ≤ a.level) →
      (∀ b ∈ r.operator?, o.level < b.level ∨ o = .pow ∧ b = .pow) →
      Conventional (apply op h l r)

/-- The operators of the product that a parse is without its parentheses, from left to right. -/
def factorOperators : Parse → List Operator
  | apply op _ l r =>
    match Operator.ofLexeme? op.lexeme with
    | some .mul => l.factorOperators ++ .mul :: r.factorOperators
    | some .div => l.factorOperators ++ .div :: r.factorOperators
    | _ => []
  | _ => []

/-- No power is an operand of a power without parentheses, and in no product without parentheses
does a `/` come after a `*`. -/
inductive Plain : Parse → Prop
  | number (t : Token) (h : t.kind = .number) : Plain (number t h)
  | group {e : Parse} (lp rp : Token) (hl : lp.kind = .leftParen) (hr : rp.kind = .rightParen) :
      Plain e → Plain (group lp rp hl hr e)
  | apply {op : Token} {h : op.kind = .operator} {l r : Parse} : Plain l → Plain r →
      (Operator.ofLexeme? op.lexeme = some .pow →
        l.operator? ≠ some .pow ∧ r.operator? ≠ some .pow) →
      (apply op h l r).factorOperators.Pairwise (fun a b => ¬ (a = .mul ∧ b = .div)) →
      Plain (apply op h l r)

theorem rank?_of_operator? {p : Parse} {o : Operator} (h : o ∈ p.operator?) (table : Precedence) :
    p.rank? table = table.lookup o.lexeme := by
  obtain ⟨t, ht, ho⟩ := Option.bind_eq_some_iff.1 h
  rw [rank?, ht, Option.bind_some, Operator.lexeme_of_ofLexeme? ho]

theorem exists_operator?_of_rank? {p : Parse} {k : Int} (h : k ∈ p.rank? .arithmetic) :
    ∃ o ∈ p.operator?, k = o.rank := by
  obtain ⟨t, ht, hk⟩ := Option.bind_eq_some_iff.1 h
  obtain ⟨o, ho, hk⟩ := Operator.exists_of_lookup hk
  exact ⟨o, by rw [operator?, ht]; exact ho, hk⟩

theorem Ordered.conventional {p : Parse} (hp : Ordered .conventional p)
    (hops : ∀ t ∈ p.tokens, t.kind = .operator → ∃ o, Operator.ofLexeme? t.lexeme = some o) :
    Conventional p := by
  induction hp with
  | number t h => exact .number t h
  | group lp rp hl hr _ ih =>
    exact .group lp rp hl hr (ih fun t ht => hops t (by simp [tokens, ht]))
  | @apply op h l r k hk _ _ hkl hkr ihl ihr =>
    obtain ⟨o, ho⟩ := hops op (by simp [tokens]) h
    have hko : k = o.level := by
      rw [Operator.lexeme_of_ofLexeme? ho, o.lookup_conventional] at hk
      exact (Option.some.inj hk).symm
    subst hko
    refine .apply ho (ihl fun t ht => hops t (by simp [tokens, ht]))
      (ihr fun t ht => hops t (by simp [tokens, ht])) (fun a ha => ?_) (fun b hb => ?_)
    · exact hkl _ (by rw [rank?_of_operator? ha]; exact a.lookup_conventional)
    · exact .inl (hkr _ (by rw [rank?_of_operator? hb]; exact b.lookup_conventional))

/-! ### From the conventional parse to that of the calculator -/

/-- Subtracts `q` from a parse: from the right operand, if the parse is a sum. -/
def subtract (op : Token) (h : op.kind = .operator) (q : Parse) : Parse → Parse
  | apply op' h' l r =>
    if Operator.ofLexeme? op'.lexeme = some .add then apply op' h' l (apply op h r q)
    else apply op h (apply op' h' l r) q
  | p => apply op h p q

/-- Reads every `a + b - c` as `a + (b - c)`. -/
def regroup : Parse → Parse
  | number t h => number t h
  | group lp rp hl hr e => group lp rp hl hr e.regroup
  | apply op h l r =>
    if Operator.ofLexeme? op.lexeme = some .sub then subtract op h r.regroup l.regroup
    else apply op h l.regroup r.regroup

section
variable {op : Token} {h : op.kind = .operator} {p q : Parse}

/-- A parse is a sum, or subtracting from it makes it the left operand of a difference. -/
theorem subtract_cases (op : Token) (h : op.kind = .operator) (q p : Parse) :
    (∃ op' h' l r, Operator.ofLexeme? op'.lexeme = some .add ∧ p = apply op' h' l r ∧
      subtract op h q p = apply op' h' l (apply op h r q)) ∨
    p.operator? ≠ some .add ∧ subtract op h q p = apply op h p q := by
  by_cases hadd : p.operator? = some .add
  · cases p with
    | number | group => cases hadd
    | apply op' h' l r => exact .inl ⟨op', h', l, r, hadd, rfl, if_pos hadd⟩
  · refine .inr ⟨hadd, ?_⟩
    cases p with
    | number | group => rfl
    | apply op' h' l r => exact if_neg hadd

theorem tokens_subtract : (subtract op h q p).tokens = p.tokens ++ op :: q.tokens := by
  obtain ⟨op', h', l, r, -, rfl, heq⟩ | ⟨-, heq⟩ := subtract_cases op h q p
  · rw [heq]
    simp [tokens]
  · rw [heq, tokens]

theorem tokens_regroup (p : Parse) : p.regroup.tokens = p.tokens := by
  induction p with
  | number => rfl
  | group lp rp hl hr e ih => rw [regroup, tokens, ih, tokens]
  | apply op h l r ihl ihr =>
    unfold regroup
    split
    · rw [tokens_subtract, ihl, ihr, tokens]
    · rw [tokens, ihl, ihr, tokens]

theorem operator?_subtract {o : Operator} (hsub : Operator.ofLexeme? op.lexeme = some .sub)
    (ho : o ∈ (subtract op h q p).operator?) : o = .sub ∨ o = .add := by
  rw [Option.mem_def] at ho
  obtain ⟨op', h', l, r, hadd, -, heq⟩ | ⟨-, heq⟩ := subtract_cases op h q p <;> rw [heq] at ho
  · exact .inr (Option.some.inj (ho.symm.trans hadd))
  · exact .inl (Option.some.inj (ho.symm.trans hsub))

/-- Only a difference may end up with another operator at the top, and then it is a sum. -/
theorem operator?_regroup {o : Operator} (ho : o ∈ p.regroup.operator?) :
    o ∈ p.operator? ∨ o = .add ∧ .sub ∈ p.operator? := by
  cases p with
  | number | group => exact .inl ho
  | apply op h l r =>
    unfold regroup at ho
    split at ho
    · next hsub =>
      rcases operator?_subtract hsub ho with rfl | rfl
      · exact .inl hsub
      · exact .inr ⟨rfl, hsub⟩
    · exact .inl ho

theorem level_regroup {o : Operator} (ho : o ∈ p.regroup.operator?) :
    ∃ o' ∈ p.operator?, o'.level = o.level ∧ (o = .mul → o' = .mul) := by
  rcases operator?_regroup ho with ho | ⟨rfl, hsub⟩
  · exact ⟨o, ho, rfl, id⟩
  · exact ⟨.sub, hsub, rfl, nofun⟩

theorem Ordered.subtract (hsub : Operator.ofLexeme? op.lexeme = some .sub)
    (hp : Ordered .arithmetic p) (hq : Ordered .arithmetic q)
    (hkq : ∀ j ∈ q.rank? .arithmetic, Operator.rank .sub < j) :
    Ordered .arithmetic (subtract op h q p) := by
  have hk : Precedence.arithmetic.lookup op.lexeme = some (Operator.rank .sub) := by
    rw [Operator.lexeme_of_ofLexeme? hsub, Operator.lookup_lexeme]
  obtain ⟨op', h', l, r, hadd, rfl, heq⟩ | ⟨hadd, heq⟩ := subtract_cases op h q p <;> rw [heq]
  · obtain _ | _ | @⟨_, _, _, _, _, hk', hl, hr, hkl, hkr⟩ := hp
    refine .apply hk' hl (.apply hk hr hq (fun j hj => ?_) hkq) hkl fun j hj => ?_
    all_goals rw [Operator.lexeme_of_ofLexeme? hadd, Operator.lookup_lexeme] at hk'
    all_goals cases hk'
    · exact Int.add_one_le_of_lt (hkr j hj)
    · cases hk.symm.trans hj
      decide
  · refine .apply hk hp hq (fun j hj => ?_) hkq
    obtain ⟨o, ho, rfl⟩ := exists_operator?_of_rank? hj
    refine Operator.rank_sub_le ?_
    rintro rfl
    exact hadd ho

end

theorem Plain.div_of_mul {op : Token} {h : op.kind = .operator} {l r : Parse}
    (hp : Plain (Parse.apply op h l r)) (hdiv : Operator.ofLexeme? op.lexeme = some .div) :
    l.operator? ≠ some .mul := by
  obtain _ | _ | @⟨_, _, _, _, _, _, _, hpair⟩ := hp
  intro hmul
  cases l with
  | number | group => cases hmul
  | apply op' h' l' r' =>
    have hl : factorOperators (Parse.apply op' h' l' r') =
        l'.factorOperators ++ .mul :: r'.factorOperators := by
      rw [factorOperators, show Operator.ofLexeme? op'.lexeme = _ from hmul]
    rw [factorOperators, hdiv] at hpair
    have := (List.pairwise_append.1 hpair).2.2 .mul (by rw [hl]; simp) .div (by simp)
    exact this ⟨rfl, rfl⟩

/-- Regrouping a conventional reading gives the reading of the calculator. -/
theorem Conventional.ordered_regroup {p : Parse} (hc : Conventional p) (hp : Plain p) :
    Ordered .arithmetic p.regroup := by
  induction hc with
  | number t h => exact .number t h
  | group lp rp hl hr _ ih =>
    cases hp with
    | group _ _ _ _ he => exact .group lp rp hl hr (ih he)
  | @apply op h l r o ho _ _ hol hor ihl ihr =>
    have hdiv := fun hd => hp.div_of_mul (ho.trans (congrArg some hd))
    obtain _ | _ | @⟨_, _, _, _, hpl, hpr, hpow, -⟩ := hp
    have hk : Precedence.arithmetic.lookup op.lexeme = some o.rank := by
      rw [Operator.lexeme_of_ofLexeme? ho, o.lookup_lexeme]
    have hkr : ∀ j ∈ r.regroup.rank? .arithmetic, o.rank < j := by
      intro j hj
      obtain ⟨b, hb, rfl⟩ := exists_operator?_of_rank? hj
      obtain ⟨b', hb', hlevel, -⟩ := level_regroup hb
      rcases hor b' hb' with hlt | ⟨rfl, rfl⟩
      · exact Operator.rank_lt_of_level_lt (hlevel ▸ hlt)
      · exact absurd hb' (hpow ho).2
    unfold regroup
    split
    · next hsub =>
      cases ho.symm.trans hsub
      -- the one operator that may stand too high on the left is `+`, and `subtract` goes below it
      exact (ihl hpl).subtract hsub (ihr hpr) hkr
    · next hsub =>
      refine .apply hk (ihl hpl) (ihr hpr) (fun j hj => ?_) hkr
      obtain ⟨a, ha, rfl⟩ := exists_operator?_of_rank? hj
      obtain ⟨a', ha', hlevel, hmul⟩ := level_regroup ha
      refine Operator.rank_le_of_level_le (fun hs => hsub (ho.trans (congrArg some hs))) ?_
        (hlevel ▸ hol a' ha')
      rintro hd rfl
      exact hdiv hd (hmul rfl ▸ ha')

/-! ### Regrouping keeps the value -/

theorem exactValue_apply (op : Token) (h : op.kind = .operator) (l r : Parse) :
    (apply op h l r).tree.exactValue = (do
      let x ← l.tree.exactValue
      let y ← r.tree.exactValue
      exactLexeme op.lexeme x y) := rfl

theorem exactValue_subtract {op : Token} {h : op.kind = .operator} {q : Parse}
    (hsub : Operator.ofLexeme? op.lexeme = some .sub) (p : Parse) :
    (subtract op h q p).tree.exactValue = (apply op h p q).tree.exactValue := by
  obtain ⟨op', h', l, r, hadd, rfl, heq⟩ | ⟨-, heq⟩ := subtract_cases op h q p <;> rw [heq]
  simp only [exactValue_apply, exactLexeme_eq hsub, exactLexeme_eq hadd, Operator.exact]
  cases l.tree.exactValue with
  | error f => rfl
  | ok x =>
    cases r.tree.exactValue with
    | error f => rfl
    | ok y =>
      cases q.tree.exactValue with
      | error f => rfl
      | ok z => exact congrArg Except.ok (Int.add_sub_assoc x y z).symm

theorem exactValue_regroup (p : Parse) : p.regroup.tree.exactValue = p.tree.exactValue := by
  induction p with
  | number => rfl
  | group lp rp hl hr e ih => exact ih
  | apply op h l r ihl ihr =>
    unfold regroup
    split
    · next hsub => rw [exactValue_subtract hsub, exactValue_apply, ihl, ihr, exactValue_apply]
    · rw [exactValue_apply, ihl, ihr, exactValue_apply]

end Parse
end ExprCalc
