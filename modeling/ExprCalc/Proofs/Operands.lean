import ExprCalc.Proofs.Parse

/-!
# The operands of a parse

Outside its parentheses a parse is a first operand and links, each an operator with the operand
behind it. The links do not say what the operators are applied to, but in an ordered parse the ranks
do: `Parse.chain` reads the links one by one and arrives at the parse (`Parse.chain_links`).

The operands and links of a text are found by matching parentheses alone, so a text has one ordered
parse at most (`Parse.Ordered.unique`).
-/

namespace ExprCalc

structure Link where
  op : Token
  isOperator : op.kind = .operator
  operand : Parse

def Link.text (links : List Link) : List Token :=
  links.flatMap fun k => k.op :: k.operand.tokens

namespace Parse

/-- The leftmost operand. -/
def first : Parse → Parse
  | apply _ _ l _ => l.first
  | p => p

/-- The operators outside parentheses from left to right, each with the operand behind it. -/
def links : Parse → List Link
  | apply op h l r => l.links ++ ⟨op, h, r.first⟩ :: r.links
  | _ => []

def chain (table : Precedence) (p : Parse) (links : List Link) : Parse :=
  links.foldl (fun p k => extend table k.op k.isOperator k.operand p) p

theorem tokens_eq_first_append (p : Parse) : p.tokens = p.first.tokens ++ Link.text p.links := by
  induction p with
  | number | group => simp [first, links, Link.text]
  | apply op h l r ihl ihr =>
    rw [tokens, ihl, ihr]
    simp [first, links, Link.text]

variable {table : Precedence} {p : Parse}

/-! ### The ranks bring the parse back -/

theorem Ordered.lt_rank_links {k : Int} (hp : Ordered table p) (hk : ∀ j ∈ p.rank? table, k < j) :
    ∀ link ∈ p.links, ∃ i, table.lookup link.op.lexeme = some i ∧ k < i := by
  induction hp with
  | number | group => exact nofun
  | @apply op h l r k' hk' _ _ hkl hkr ihl ihr =>
    have hkk : k < k' := hk k' hk'
    intro link hlink
    rcases List.mem_append.1 hlink with hlink | hlink
    · exact ihl (fun j hj => Int.lt_of_lt_of_le hkk (hkl j hj)) link hlink
    · rcases List.mem_cons.1 hlink with rfl | hlink
      · exact ⟨k', hk', hkk⟩
      · exact ihr (fun j hj => Int.lt_trans hkk (hkr j hj)) link hlink

/-- Links that all rank higher than `op` are read into its right operand. -/
theorem chain_apply {op : Token} {h : op.kind = .operator} {k : Int} {ks : List Link}
    (hk : table.lookup op.lexeme = some k)
    (hks : ∀ link ∈ ks, ∃ i, table.lookup link.op.lexeme = some i ∧ k < i) (l r : Parse) :
    chain table (apply op h l r) ks = apply op h l (chain table r ks) := by
  induction ks generalizing r with
  | nil => rfl
  | cons link ks ih =>
    obtain ⟨i, hi, hki⟩ := hks link List.mem_cons_self
    have hb : table.below op link.op = true := (Precedence.below_iff hk hi).2 hki
    show chain table (extend table _ _ _ (apply op h l r)) ks = _
    rw [extend_of_below hb]
    exact ih (fun link hlink => hks link (List.mem_cons_of_mem _ hlink)) _

theorem chain_links (hp : Ordered table p) : chain table p.first p.links = p := by
  induction hp with
  | number | group => rfl
  | @apply op h l r k hk _ hr hkl hkr ihl ihr =>
    have hb : ∀ o ∈ l.top?, table.below o op = false := by
      intro o ho
      rw [Option.mem_def] at ho
      unfold Precedence.below
      split
      · next i j hi hj =>
        have := hkl i (by rw [rank?, ho]; exact hi)
        rw [hk, Option.some.injEq] at hj
        exact decide_eq_false (by omega)
      · rfl
    -- `l` is read first, `op` goes above it, and all that is behind `op` goes below `op`
    calc chain table l.first (l.links ++ ⟨op, h, r.first⟩ :: r.links)
        = chain table (extend table op h r.first l) r.links := by
          conv_rhs => rw [← ihl]
          simp [chain]
      _ = chain table (.apply op h l r.first) r.links := by rw [extend_of_not_below hb]
      _ = .apply op h l r := by rw [chain_apply hk (hr.lt_rank_links hkr), ihr]

/-! ### Parentheses bring the operands back -/

/-- Is `x` an operand outside the parentheses of `p`? -/
def IsOperand (p x : Parse) : Prop := x = p.first ∨ ∃ k ∈ p.links, k.operand = x

theorem isOperand_apply {op : Token} {h : op.kind = .operator} {l r x : Parse} :
    IsOperand (apply op h l r) x ↔ IsOperand l x ∨ IsOperand r x := by
  simp only [IsOperand, first, links, List.mem_append, List.mem_cons]
  constructor
  · rintro (hx | ⟨k, hk | rfl | hk, hx⟩)
    exacts [.inl (.inl hx), .inl (.inr ⟨k, hk, hx⟩), .inr (.inl hx.symm), .inr (.inr ⟨k, hk, hx⟩)]
  · rintro ((hx | ⟨k, hk, hx⟩) | (hx | ⟨k, hk, hx⟩))
    exacts [.inl hx, .inr ⟨k, .inl hk, hx⟩, .inr ⟨_, .inr (.inl rfl), hx.symm⟩,
      .inr ⟨k, .inr (.inr hk), hx⟩]

theorem Ordered.isOperand {x : Parse} (hp : Ordered table p) (hx : IsOperand p x) :
    x.top? = none ∧ Ordered table x := by
  induction hp with
  | number t h =>
    obtain rfl | ⟨_, hk, _⟩ := hx
    · exact ⟨rfl, .number t h⟩
    · cases hk
  | group lp rp hl hr he =>
    obtain rfl | ⟨_, hk, _⟩ := hx
    · exact ⟨rfl, .group lp rp hl hr he⟩
    · cases hk
  | apply _ _ _ _ _ ihl ihr => exact (isOperand_apply.1 hx).elim ihl ihr

/-- No ordered operand but `x` begins a text that `x` begins. -/
def Distinct (table : Precedence) (x : Parse) : Prop :=
  ∀ y s s', y.top? = none → Ordered table y → x.tokens ++ s = y.tokens ++ s' → x = y ∧ s = s'

/-- The text goes on with no operator. -/
def Ends (s : List Token) : Prop := ∀ t ∈ s.head?, t.kind ≠ .operator

theorem Distinct.links {s s' : List Token} (hs : Ends s) (hs' : Ends s') {ks ks' : List Link}
    (hd : ∀ k ∈ ks, Distinct table k.operand)
    (ho : ∀ k ∈ ks', k.operand.top? = none ∧ Ordered table k.operand)
    (h : Link.text ks ++ s = Link.text ks' ++ s') : ks = ks' ∧ s = s' := by
  induction ks generalizing ks' with
  | nil =>
    cases ks' with
    | nil => exact ⟨rfl, h⟩
    | cons k' ks' => exact absurd k'.isOperator (hs _ (by rw [show s = _ from h]; rfl))
  | cons k ks ih =>
    cases ks' with
    | nil => exact absurd k.isOperator (hs' _ (by rw [show s' = _ from h.symm]; rfl))
    | cons k' ks' =>
      simp only [Link.text, List.flatMap_cons, List.cons_append, List.append_assoc,
        List.cons.injEq] at h
      obtain ⟨hop, h⟩ := h
      obtain ⟨htop, hord⟩ := ho k' List.mem_cons_self
      obtain ⟨hx, h⟩ := hd k List.mem_cons_self _ _ _ htop hord h
      obtain ⟨rfl, hrest⟩ := ih (fun k hk => hd k (List.mem_cons_of_mem _ hk))
        (fun k hk => ho k (List.mem_cons_of_mem _ hk)) h
      obtain ⟨op, _, operand⟩ := k
      obtain ⟨op', _, operand'⟩ := k'
      subst hop hx
      exact ⟨rfl, hrest⟩

theorem Distinct.expression {q : Parse} {s s' : List Token} (hs : Ends s) (hs' : Ends s')
    (hd : ∀ x, IsOperand p x → Distinct table x) (hp : Ordered table p) (hq : Ordered table q)
    (h : p.tokens ++ s = q.tokens ++ s') : p = q ∧ s = s' := by
  rw [tokens_eq_first_append p, tokens_eq_first_append q, List.append_assoc, List.append_assoc] at h
  obtain ⟨htop, hord⟩ := hq.isOperand (.inl rfl)
  obtain ⟨hfirst, h⟩ := hd _ (.inl rfl) _ _ _ htop hord h
  obtain ⟨hlinks, hrest⟩ := Distinct.links hs hs' (fun k hk => hd _ (.inr ⟨k, hk, rfl⟩))
    (fun k hk => hq.isOperand (.inr ⟨k, hk, rfl⟩)) h
  exact ⟨by rw [← chain_links hp, ← chain_links hq, hfirst, hlinks], hrest⟩

theorem Ordered.distinct (hp : Ordered table p) : ∀ x, IsOperand p x → Distinct table x := by
  induction hp with
  | number t ht =>
    rintro x (rfl | ⟨_, hk, _⟩)
    · intro y s s' hy _ h
      cases y with
      | number t' ht' =>
        obtain ⟨rfl, hrest⟩ := List.cons.inj h
        exact ⟨rfl, hrest⟩
      | group lp rp hl hr e =>
        obtain ⟨rfl, _⟩ := List.cons.inj h
        cases ht.symm.trans hl
      | apply => cases hy
    · cases hk
  | @group e lp rp hl hr he ih =>
    rintro x (rfl | ⟨_, hk, _⟩)
    · intro y s s' hy hyo h
      cases y with
      | number t' ht' =>
        obtain ⟨rfl, _⟩ := List.cons.inj h
        cases hl.symm.trans ht'
      | group lp' rp' hl' hr' e' =>
        obtain _ | ⟨_, _, _, _, he'⟩ := hyo
        -- both insides go on with their closing parenthesis, so neither ends before the other
        have hends : ∀ {t : Token} {s}, t.kind = .rightParen → Ends (t :: s) := by
          intro t s ht u hu
          cases hu
          rw [ht]
          nofun
        simp only [tokens, first, List.cons_append, List.append_assoc, List.nil_append,
          List.cons.injEq] at h
        obtain ⟨rfl, h⟩ := h
        obtain ⟨rfl, hrest⟩ := Distinct.expression (hends hr) (hends hr') ih he he' h
        obtain ⟨rfl, rfl⟩ := List.cons.inj hrest
        exact ⟨rfl, rfl⟩
      | apply => cases hy
    · cases hk
  | apply _ _ _ _ _ ihl ihr => exact fun x hx => (isOperand_apply.1 hx).elim (ihl x) (ihr x)

theorem Ordered.unique {q : Parse} (hp : Ordered table p) (hq : Ordered table q)
    (h : p.tokens = q.tokens) : p = q := by
  have hends : Ends [] := nofun
  exact (Distinct.expression hends hends hp.distinct hp hq (by rw [h])).1

end Parse

end ExprCalc
