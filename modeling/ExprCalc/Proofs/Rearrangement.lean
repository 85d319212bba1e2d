import ExprCalc.Proofs.Conversion
import Mathlib.Data.List.TakeWhile

/-!
# What the conversion does to any tokens

In a yard that has been reached, nothing waits but `(` and operators of the table (`Yard.Ranked`). So
the rank of a waiting operator is always found, and one token can do no more than `Yard.Move` lists.
Numbers and operators only ever change places (`Yard.content`): the output consists of those that
have been read, each as often as it was read. The `(` that wait are those that no `)` has closed
(`nest`).
-/

namespace ExprCalc

/-- The `(` that are open behind `t`, the last one first, if those in `opened` are open in front of it.
A `)` needs one to close. -/
def nest (opened : List Token) (t : Token) : Option (List Token) :=
  match t.kind with
  | .leftParen => some (t :: opened)
  | .rightParen => opened.tail?
  | .number | .operator => some opened

/-- Every parenthesis has a partner. -/
def Matched (ts : List Token) : Prop := ts.foldlM nest [] = some []

namespace Yard
variable {table : Precedence} {y y' : Yard} {t : Token} {f : Fault}

/-- Nothing waits but `(` and operators of the table. -/
def Ranked (table : Precedence) (waiting : List Token) : Prop :=
  ∀ w ∈ waiting, w.kind = .leftParen ∨ w.kind = .operator ∧ ∃ i, table.lookup w.lexeme = some i

namespace Ranked
variable {ws vs : List Token}

theorem tail (h : Ranked table (t :: ws)) : Ranked table ws :=
  fun w hw => h w (List.mem_cons_of_mem _ hw)

theorem right (h : Ranked table (ws ++ vs)) : Ranked table vs :=
  fun w hw => h w (List.mem_append_right _ hw)

theorem cons (ht : t.kind = .leftParen ∨ t.kind = .operator ∧ ∃ i, table.lookup t.lexeme = some i)
    (h : Ranked table ws) : Ranked table (t :: ws) :=
  List.forall_mem_cons.2 ⟨ht, h⟩

theorem exists_release (h : Ranked table ws) (k : Int) : ∃ gone stay, ws = gone ++ stay ∧
    (∀ w ∈ gone, w.kind = .operator ∧ ∃ i, table.lookup w.lexeme = some i ∧ k ≤ i) ∧
      Fits table k stay := by
  induction ws with
  | nil => exact ⟨[], [], rfl, nofun, nofun⟩
  | cons w ws ih =>
    rcases h w List.mem_cons_self with hp | ⟨ho, i, hi⟩
    · refine ⟨[], w :: ws, rfl, nofun, ?_⟩
      rintro v ⟨⟩ hne
      exact absurd hp hne
    · by_cases hle : k ≤ i
      · obtain ⟨gone, stay, rfl, hgone, hstay⟩ := ih h.tail
        exact ⟨w :: gone, stay, rfl, List.forall_mem_cons.2 ⟨⟨ho, i, hi, hle⟩, hgone⟩, hstay⟩
      · refine ⟨[], w :: ws, rfl, nofun, ?_⟩
        rintro v ⟨⟩ _
        exact ⟨i, hi, Int.not_le.1 hle⟩

theorem split (h : Ranked table ws) : (∀ w ∈ ws, w.kind = .operator) ∨
    ∃ gone lp stay, ws = gone ++ lp :: stay ∧ (∀ w ∈ gone, w.kind = .operator) ∧
      lp.kind = .leftParen := by
  induction ws with
  | nil => exact .inl nofun
  | cons w ws ih =>
    rcases h w List.mem_cons_self with hp | ⟨ho, -⟩
    · exact .inr ⟨[], w, ws, rfl, nofun, hp⟩
    · rcases ih h.tail with hall | ⟨gone, lp, stay, rfl, hgone, hlp⟩
      · exact .inl (List.forall_mem_cons.2 ⟨ho, hall⟩)
      · exact .inr ⟨w :: gone, lp, stay, rfl, List.forall_mem_cons.2 ⟨ho, hgone⟩, hlp⟩

end Ranked

/-- What the reading of `t` can do to a yard. -/
inductive Move (table : Precedence) (y : Yard) (t : Token) : Except Fault Yard → Prop
  | number : t.kind = .number → Move table y t (.ok { y with output := y.output.push t })
  | unknown : t.kind = .operator → table.lookup t.lexeme = none →
      Move table y t (.error (.unknownOperator t.lexeme))
  | operator {k : Int} {gone stay : List Token} : t.kind = .operator →
      table.lookup t.lexeme = some k → y.waiting = gone ++ stay →
      (∀ w ∈ gone, w.kind = .operator ∧ ∃ i, table.lookup w.lexeme = some i ∧ k ≤ i) →
      Fits table k stay → Move table y t (.ok ⟨y.output ++ gone, t :: stay⟩)
  | leftParen : t.kind = .leftParen → Move table y t (.ok { y with waiting := t :: y.waiting })
  | rightParen {gone stay : List Token} {lp : Token} : t.kind = .rightParen →
      y.waiting = gone ++ lp :: stay → (∀ w ∈ gone, w.kind = .operator) → lp.kind = .leftParen →
      Move table y t (.ok ⟨y.output ++ gone, stay⟩)
  | unmatched : t.kind = .rightParen → (∀ w ∈ y.waiting, w.kind = .operator) →
      Move table y t (.error (.unmatchedRight t.position))

theorem step_move (hy : Ranked table y.waiting) (t : Token) : Move table y t (step table y t) := by
  cases ht : t.kind with
  | number =>
    rw [step_number ht]
    exact .number ht
  | operator =>
    cases hk : table.lookup t.lexeme with
    | none =>
      simp only [step, ht, Precedence.rank, hk]
      exact .unknown ht hk
    | some k =>
      obtain ⟨gone, stay, hsplit, hgone, hstay⟩ := hy.exists_release k
      rw [step_operator ht hk (hsplit ▸ release_append hk hgone hstay)]
      exact .operator ht hk hsplit hgone hstay
  | leftParen =>
    rw [step_leftParen ht]
    exact .leftParen ht
  | rightParen =>
    rcases hy.split with hall | ⟨gone, lp, stay, hsplit, hgone, hlp⟩
    · have hdrop : y.waiting.dropWhile (·.kind ≠ .leftParen) = [] :=
        List.dropWhile_eq_nil_iff.2 fun w hw => by simp [hall w hw]
      simp only [step, ht, hdrop]
      exact .unmatched ht hall
    · rw [step_rightParen ht hsplit (fun w hw => by simp [hgone w hw]) hlp]
      exact .rightParen ht hsplit hgone hlp

theorem Move.ranked (hy : Ranked table y.waiting) (h : Move table y t (.ok y')) :
    Ranked table y'.waiting := by
  cases h with
  | number => exact hy
  | operator ho hk hsplit => exact .cons (.inr ⟨ho, _, hk⟩) (hsplit ▸ hy).right
  | leftParen hp => exact .cons (.inl hp) hy
  | rightParen _ hsplit =>
    rw [hsplit] at hy
    exact hy.right.tail

/-! ### Nothing is lost -/

def kept (t : Token) : Bool := t.kind = .number ∨ t.kind = .operator

def content (y : Yard) : List Token := y.output.toList ++ y.waiting.filter kept

theorem filter_kept_eq_self {ws : List Token} (h : ∀ w ∈ ws, w.kind = .operator) :
    ws.filter kept = ws :=
  List.filter_eq_self.2 fun w hw => by simp [kept, h w hw]

theorem Move.perm_content (h : Move table y t (.ok y')) :
    y'.content.Perm (y.content ++ [t].filter kept) := by
  cases h with
  | number hn =>
    have ht : [t].filter kept = [t] := by simp [kept, hn]
    simp only [content, ht, Array.toList_push, List.append_assoc]
    exact List.perm_append_comm.append_left _
  | operator ho hk hsplit hgone =>
    have hcons : ∀ l, (t :: l).filter kept = [t] ++ l.filter kept := fun l => by simp [kept, ho]
    simp only [content, hsplit, hcons, List.filter_append, Array.toList_appendList,
      filter_kept_eq_self fun w hw => (hgone w hw).1, List.append_assoc]
    exact (List.perm_append_comm.append_left _).append_left _
  | leftParen hp =>
    have ht : kept t = false := by simp [kept, hp]
    simp [content, ht]
  | @rightParen gone stay lp hr hsplit hgone hp =>
    have ht : kept t = false := by simp [kept, hr]
    have hl : kept lp = false := by simp [kept, hp]
    simp [content, hsplit, ht, hl, filter_kept_eq_self hgone]

/-- The `(` that wait, the last one first. -/
def opened (y : Yard) : List Token := y.waiting.filter (·.kind = .leftParen)

theorem filter_leftParen_eq_nil {ws : List Token} (h : ∀ w ∈ ws, w.kind = .operator) :
    ws.filter (·.kind = .leftParen) = [] :=
  List.filter_eq_nil_iff.2 fun w hw => by simp [h w hw]

theorem Move.nest_opened (h : Move table y t (.ok y')) : nest y.opened t = some y'.opened := by
  cases h with
  | number hn => simp [nest, hn, opened]
  | operator ho _ hsplit hgone =>
    simp [nest, ho, opened, hsplit, filter_leftParen_eq_nil fun w hw => (hgone w hw).1]
  | leftParen hp => simp [nest, hp, opened]
  | rightParen hr hsplit hgone hp =>
    simp [nest, hr, hp, opened, hsplit, filter_leftParen_eq_nil hgone]

/-- What the yard is like when the tokens `read` have been read. -/
structure Reached (table : Precedence) (read : List Token) (y : Yard) : Prop where
  ranked : Ranked table y.waiting
  perm : y.content.Perm (read.filter kept)
  nested : read.foldlM nest [] = some y.opened

theorem Reached.step {read : List Token} (h : Reached table read y)
    (hs : step table y t = .ok y') : Reached table (read ++ [t]) y' := by
  have hm : Move table y t (.ok y') := hs ▸ step_move h.ranked t
  refine ⟨hm.ranked h.ranked, hm.perm_content.trans ?_, ?_⟩
  · rw [List.filter_append]
    exact h.perm.append_right _
  · simpa [h.nested] using hm.nest_opened

theorem reached_of_foldlM {ts : List Token} (h : ts.foldlM (Yard.step table) Yard.empty = .ok y) :
    Reached table ts y :=
  foldlM_invariant (Reached table) ⟨fun _ hw => absurd hw List.not_mem_nil, .refl _, rfl⟩
    (fun _ _ _ _ hr hs => hr.step hs) h

theorem finish_eq_ok {ps : List Token} (h : y.finish = .ok ps) :
    (∀ w ∈ y.waiting, w.kind ≠ .leftParen) ∧ ps = y.output.toList ++ y.waiting := by
  unfold finish at h
  split at h
  · cases h
  · next hnone =>
    refine ⟨fun w hw => ?_, (Except.ok.inj h).symm.trans Array.toList_appendList⟩
    simpa using List.find?_eq_none.1 hnone w hw

theorem finish_eq_error_iff :
    y.finish = .error f ↔ ∃ t rest, y.opened = t :: rest ∧ f = .unmatchedLeft t.position := by
  have hhead : y.waiting.find? (·.kind = .leftParen) = y.opened.head? := by
    rw [opened, List.head?_filter]
  unfold finish
  rw [hhead]
  cases y.opened with
  | nil =>
    constructor
    · intro h
      cases h
    · rintro ⟨t, rest, h, -⟩
      cases h
  | cons t rest => simp [eq_comm]

theorem exists_finish_iff : (∃ ps, y.finish = .ok ps) ↔ y.opened = [] := by
  cases h : y.finish with
  | error f =>
    obtain ⟨t, rest, hopened, -⟩ := finish_eq_error_iff.1 h
    simp [hopened]
  | ok ps =>
    have hopened : y.opened = [] :=
      List.filter_eq_nil_iff.2 fun w hw => by simpa using (finish_eq_ok h).1 w hw
    simp [hopened]

theorem Reached.eq_content_of_finish {ts ps : List Token} (h : Reached table ts y)
    (hf : y.finish = .ok ps) :
    ps = y.content := by
  obtain ⟨hnone, rfl⟩ := finish_eq_ok hf
  have hops : ∀ w ∈ y.waiting, w.kind = .operator :=
    fun w hw => (h.ranked w hw).resolve_left (hnone w hw) |>.1
  rw [content, filter_kept_eq_self hops]

end Yard

section
variable {table : Precedence} {ts ps : List Token} {f : Fault}

/-- The postfix form consists of the numbers and operators of the text. -/
theorem toPostfix_perm (h : toPostfix table ts = .ok ps) : ps.Perm (ts.filter Yard.kept) := by
  obtain ⟨y, hy, hfinish⟩ := bind_eq_ok.1 h
  have hreached := Yard.reached_of_foldlM hy
  rw [hreached.eq_content_of_finish hfinish]
  exact hreached.perm

theorem matched_of_toPostfix (h : toPostfix table ts = .ok ps) : Matched ts := by
  obtain ⟨y, hy, hfinish⟩ := bind_eq_ok.1 h
  rw [Matched, (Yard.reached_of_foldlM hy).nested, Yard.exists_finish_iff.1 ⟨ps, hfinish⟩]

theorem toPostfix_eq_error (h : toPostfix table ts = .error f) : f.kind = .parentheses ∨
    ∃ t ∈ ts, t.kind = .operator ∧ table.lookup t.lexeme = none ∧ f = .unknownOperator t.lexeme := by
  rcases bind_eq_error.1 h with h | ⟨y, -, h⟩
  · obtain ⟨before, t, after, y, rfl, hrun, hstep⟩ := foldlM_eq_error.1 h
    have hm : Yard.Move table y t (.error f) :=
      hstep ▸ Yard.step_move (Yard.reached_of_foldlM hrun).ranked t
    cases hm with
    | unknown ho hnone => exact .inr ⟨t, by simp, ho, hnone, rfl⟩
    | unmatched => exact .inl rfl
  · obtain ⟨w, _, -, rfl⟩ := Yard.finish_eq_error_iff.1 h
    exact .inl rfl

theorem reported_of_toPostfix (h : toPostfix table ts = .error f) : f.reported = true := by
  rcases toPostfix_eq_error h with hk | ⟨t, -, -, -, rfl⟩
  · simp [Fault.reported_iff, hk]
  · rfl

end

end ExprCalc
