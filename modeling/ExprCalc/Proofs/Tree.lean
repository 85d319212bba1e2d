import ExprCalc.Evaluation
import ExprCalc.Proofs.Outcome
import Mathlib.Data.List.Forall2

/-!
# Expression trees

A tree has a number at each leaf and an operator at each inner node. `Tree.postorder` lists its
tokens with every operator behind its operands. `Tree.gather` reads such a list back onto a stack of
trees, so no list is the postorder of two trees (`Tree.postorder_injective`).

The stack evaluator does on values what `gather` does on trees: after any run its stack holds the
values of the trees that `gather` has built from the same tokens (`foldlM_evalStep_gather`).
-/

namespace ExprCalc

inductive Tree
  | leaf (t : Token) (isNumber : t.kind = .number)
  | node (op : Token) (isOperator : op.kind = .operator) (l r : Tree)

namespace Tree

/-- The tokens of a tree, every operator behind its operands. -/
def postorder : Tree → List Token
  | leaf t _ => [t]
  | node op _ l r => l.postorder ++ r.postorder ++ [op]

/-- The postorders of the trees on a stack, the lowest first. -/
def listing : List Tree → List Token
  | [] => []
  | t :: stack => listing stack ++ t.postorder

/-- Puts a token on a stack of trees: a number as a leaf, an operator as a node over the two
uppermost trees. -/
def gather (stack : List Tree) (t : Token) : Option (List Tree) :=
  if hn : t.kind = .number then some (leaf t hn :: stack)
  else if ho : t.kind = .operator then
    match stack with
    | r :: l :: rest => some (node t ho l r :: rest)
    | _ => none
  else none

variable {t : Token} {stack stack' : List Tree}

theorem gather_number (h : t.kind = .number) : gather stack t = some (leaf t h :: stack) := by
  simp [gather, h]

theorem gather_operator (h : t.kind = .operator) (l r : Tree) :
    gather (r :: l :: stack) t = some (node t h l r :: stack) := by
  simp [gather, h]

theorem gather_eq_some (h : gather stack t = some stack') :
    (∃ hn, stack' = leaf t hn :: stack) ∨
      ∃ ho l r rest, stack = r :: l :: rest ∧ stack' = node t ho l r :: rest := by
  unfold gather at h
  split at h
  · next hn =>
    cases h
    exact .inl ⟨hn, rfl⟩
  · split at h
    · next ho =>
      split at h
      · next r l rest =>
        cases h
        exact .inr ⟨ho, l, r, rest, rfl, rfl⟩
      · cases h
    · cases h

theorem listing_gather (h : gather stack t = some stack') :
    listing stack' = listing stack ++ [t] := by
  rcases gather_eq_some h with ⟨_, rfl⟩ | ⟨_, l, r, rest, rfl, rfl⟩
  · rfl
  · simp [listing, postorder]

theorem listing_foldlM_gather {ts : List Token} (h : ts.foldlM gather stack = some stack') :
    listing stack' = listing stack ++ ts := by
  induction ts generalizing stack with
  | nil =>
    cases h
    simp
  | cons t ts ih =>
    rw [List.foldlM_cons] at h
    obtain ⟨mid, hmid, hrest⟩ := Option.bind_eq_some_iff.1 h
    rw [ih hrest, listing_gather hmid, List.append_assoc, List.singleton_append]

/-- The tokens of a tree, read back, put that tree on the stack. -/
theorem foldlM_gather_postorder (e : Tree) (stack : List Tree) :
    e.postorder.foldlM gather stack = some (e :: stack) := by
  induction e generalizing stack with
  | leaf t h => simp [postorder, gather_number h]
  | node op h l r ihl ihr => simp [postorder, ihl, ihr, gather_operator h]

theorem postorder_injective : Function.Injective postorder := by
  intro e e' h
  have he := foldlM_gather_postorder e []
  rw [h, foldlM_gather_postorder e' []] at he
  exact ((List.cons.inj (Option.some.inj he)).1).symm

/-! ### Values -/

/-- The value of a tree from the bottom up, the left operand of a node before the right one. -/
def evalWith (number : String → Except Fault Int) (apply : String → Int → Int → Except Fault Int) :
    Tree → Except Fault Int
  | leaf t _ => number t.lexeme
  | node op _ l r => do
    let x ← l.evalWith number apply
    let y ← r.evalWith number apply
    apply op.lexeme x y

end Tree

/-- What the operator of a lexeme makes of two values, within the limits. -/
def applyLexeme (limits : Limits) (operations : Operations) (lexeme : String) (left right : Int) :
    Except Fault Int :=
  match operations lexeme with
  | none => .error (.unknownOperator lexeme)
  | some f => applyChecked limits f left right

def Tree.value (limits : Limits) (operations : Operations) : Tree → Except Fault Int :=
  evalWith (parseNumber limits) (applyLexeme limits operations)

theorem Tree.value_node (limits : Limits) (operations : Operations) (op : Token)
    (h : op.kind = .operator) (l r : Tree) :
    (node op h l r).value limits operations = (do
      let x ← l.value limits operations
      let y ← r.value limits operations
      applyLexeme limits operations op.lexeme x y) := rfl

section
variable {limits : Limits} {operations : Operations} {t : Token} {stack stack' : List Int}

theorem evalStep_number (h : t.kind = .number) :
    evalStep limits operations stack t = (· :: stack) <$> parseNumber limits t.lexeme := by
  simp only [evalStep, h]
  cases parseNumber limits t.lexeme <;> rfl

theorem evalStep_operator (h : t.kind = .operator) (l r : Int) :
    evalStep limits operations (r :: l :: stack) t =
      (· :: stack) <$> applyLexeme limits operations t.lexeme l r := by
  simp only [evalStep, h, applyLexeme]
  cases operations t.lexeme with
  | none => rfl
  | some f => cases applyChecked limits f l r <;> rfl

theorem evalStep_eq_ok (h : evalStep limits operations stack t = .ok stack') :
    (∃ v, t.kind = .number ∧ parseNumber limits t.lexeme = .ok v ∧ stack' = v :: stack) ∨
      ∃ l r rest v, t.kind = .operator ∧ stack = r :: l :: rest ∧
        applyLexeme limits operations t.lexeme l r = .ok v ∧ stack' = v :: rest := by
  cases hk : t.kind with
  | number =>
    rw [evalStep_number hk] at h
    obtain ⟨v, hv, rfl⟩ := map_eq_ok.1 h
    exact .inl ⟨v, rfl, hv, rfl⟩
  | operator =>
    match stack with
    | r :: l :: rest =>
      rw [evalStep_operator hk] at h
      obtain ⟨v, hv, rfl⟩ := map_eq_ok.1 h
      exact .inr ⟨l, r, rest, v, rfl, rfl, hv, rfl⟩
    | [] | [_] =>
      simp only [evalStep, hk] at h
      split at h <;> cases h
  | leftParen | rightParen =>
    simp only [evalStep, hk] at h
    cases h

/-- Evaluating the tokens of a tree puts its value on the stack, or fails as the tree does. -/
theorem foldlM_evalStep_postorder (e : Tree) (stack : List Int) :
    e.postorder.foldlM (evalStep limits operations) stack =
      (· :: stack) <$> e.value limits operations := by
  induction e generalizing stack with
  | leaf t h => simp [Tree.postorder, Tree.value, Tree.evalWith, evalStep_number h]
  | node op h l r ihl ihr =>
    simp only [Tree.postorder, List.foldlM_append, ihl, List.foldlM_cons, List.foldlM_nil,
      bind_pure, Tree.value_node]
    cases l.value limits operations with
    | error f => rfl
    | ok x =>
      show (r.postorder.foldlM _ (x :: stack)) >>= _ = _
      rw [ihr]
      cases r.value limits operations with
      | error f => rfl
      | ok y => exact evalStep_operator h x y

/-- The values on `stack` are those of the trees in `trees`. -/
abbrev Valued (limits : Limits) (operations : Operations) : List Tree → List Int → Prop :=
  List.Forall₂ fun e v => e.value limits operations = .ok v

theorem evalStep_gather {trees : List Tree} (hv : Valued limits operations trees stack)
    (h : evalStep limits operations stack t = .ok stack') :
    ∃ trees', Tree.gather trees t = some trees' ∧ Valued limits operations trees' stack' := by
  rcases evalStep_eq_ok h with ⟨v, hk, hp, rfl⟩ | ⟨x, y, rest, v, hk, rfl, hp, rfl⟩
  · exact ⟨_, Tree.gather_number hk, .cons hp hv⟩
  · obtain _ | @⟨r, _, _, _, hr, hv⟩ := hv
    obtain _ | @⟨l, _, below, _, hl, hv⟩ := hv
    refine ⟨_, Tree.gather_operator hk l r, .cons ?_ hv⟩
    rw [Tree.value_node, hl, hr]
    exact hp

theorem foldlM_evalStep_gather {ts : List Token}
    (h : ts.foldlM (evalStep limits operations) [] = .ok stack) :
    ∃ trees, ts.foldlM Tree.gather [] = some trees ∧ Valued limits operations trees stack := by
  refine foldlM_invariant (fun read stack => ∃ trees, read.foldlM Tree.gather [] = some trees ∧
    Valued limits operations trees stack) ⟨[], rfl, .nil⟩ ?_ h
  rintro read stack t stack' ⟨trees, hg, hv⟩ hs
  obtain ⟨trees', hg', hv'⟩ := evalStep_gather hv hs
  exact ⟨trees', by simp [hg, hg'], hv'⟩

theorem evaluate_postorder (limits : Limits) (operations : Operations) (e : Tree) :
    evaluate limits operations e.postorder = e.value limits operations := by
  unfold evaluate
  rw [foldlM_evalStep_postorder]
  cases e.value limits operations <;> rfl

end

/-- The evaluator gives a value to the postorders of trees and to no other tokens: the value of the
tree, which is the only one with that postorder. -/
theorem evaluate_eq_ok_iff_exists_tree (limits : Limits) (operations : Operations)
    (ts : List Token) :
    (∀ v, evaluate limits operations ts = .ok v ↔
      ∃ e : Tree, e.postorder = ts ∧ e.value limits operations = .ok v) ∧
    ∀ e e' : Tree, e.postorder = ts → e'.postorder = ts → e = e' := by
  refine ⟨fun v => ⟨fun h => ?_, ?_⟩,
    fun e e' he he' => Tree.postorder_injective (he.trans he'.symm)⟩
  · obtain ⟨stack, hrun, hsole⟩ := bind_eq_ok.1 h
    obtain ⟨trees, hg, hv⟩ := foldlM_evalStep_gather hrun
    match stack, hsole with
    | [_], hsole =>
      cases hsole
      obtain _ | @⟨e, _, _, _, he, hv⟩ := hv
      cases hv
      exact ⟨e, (Tree.listing_foldlM_gather hg : [] ++ e.postorder = [] ++ ts), he⟩
  · rintro ⟨e, rfl, hv⟩
    rw [evaluate_postorder, hv]

end ExprCalc
