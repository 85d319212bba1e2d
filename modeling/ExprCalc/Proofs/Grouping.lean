import ExprCalc.Proofs.Rearrangement

/-!
# A group stands for a number

A text that can be converted is converted between parentheses as it is by itself, whatever stands around
them, and what stands around them is converted as around a number. A yard never looks at what it has
put out (`step_behind`), and above a `(` it never looks at what waits below (`step_above`). So
a group does to a yard what a number does: something is put out, and what waits is as it was
(`foldlM_step_group`).
-/

namespace ExprCalc

namespace Yard
variable {table : Precedence} {y y' : Yard} {t lp rp : Token} {below ts gs : List Token}

/-- The yard with `output` put out before. -/
def behind (output : Array Token) (y : Yard) : Yard := { y with output := output ++ y.output }

/-- The yard with `below` waiting underneath. -/
def above (below : List Token) (y : Yard) : Yard := { y with waiting := y.waiting ++ below }

/-! ### What has been put out -/

@[simp] theorem waiting_behind (output : Array Token) (y : Yard) :
    (y.behind output).waiting = y.waiting := rfl

theorem behind_nothing (output : Array Token) (ws : List Token) :
    behind output ⟨#[], ws⟩ = ⟨output, ws⟩ := by
  rw [behind, Array.append_empty]

theorem behind_append (output : Array Token) (l ws : List Token) (y : Yard) :
    behind output ⟨y.output ++ l, ws⟩ = ⟨output ++ y.output ++ l, ws⟩ :=
  congrArg (Yard.mk · ws) (Array.ext' (by simp))

theorem step_behind (table : Precedence) (output : Array Token) (y : Yard) (t : Token) :
    step table (y.behind output) t = behind output <$> step table y t := by
  cases ht : t.kind with
  | number =>
    rw [step_number ht, step_number ht]
    simp [behind, Functor.map, Except.map]
  | operator =>
    simp only [step, ht]
    cases table.rank t with
    | error f => rfl
    | ok k =>
      show release table t y.waiting >>= _ = behind output <$> (release table t y.waiting >>= _)
      cases release table t y.waiting with
      | error f => rfl
      | ok split => exact congrArg Except.ok (behind_append output split.1 _ y).symm
  | leftParen =>
    rw [step_leftParen ht, step_leftParen ht]
    rfl
  | rightParen =>
    simp only [step, ht, waiting_behind]
    cases y.waiting.dropWhile (·.kind ≠ .leftParen) with
    | nil => rfl
    | cons w below => exact congrArg Except.ok (behind_append output _ below y).symm

theorem foldlM_step_behind (table : Precedence) (output : Array Token) (y : Yard) (ts : List Token) :
    ts.foldlM (step table) (y.behind output) = behind output <$> ts.foldlM (step table) y := by
  induction ts generalizing y with
  | nil => rfl
  | cons t ts ih =>
    rw [List.foldlM_cons, List.foldlM_cons, step_behind]
    cases step table y t with
    | error f => rfl
    | ok mid => exact ih mid

theorem finish_behind (output : Array Token) (y : Yard) :
    (y.behind output).finish = (output.toList ++ ·) <$> y.finish := by
  simp only [finish, waiting_behind]
  cases y.waiting.find? (·.kind = .leftParen) with
  | some w => rfl
  | none => exact congrArg Except.ok (by simp [behind])

/-- The output for `ts` behind the tokens of `waiting`. -/
def convert (table : Precedence) (waiting ts : List Token) : Except Fault (List Token) :=
  ts.foldlM (step table) ⟨#[], waiting⟩ >>= finish

theorem convert_of_output (output : Array Token) (ws ts : List Token) :
    ts.foldlM (step table) ⟨output, ws⟩ >>= finish = (output.toList ++ ·) <$> convert table ws ts := by
  rw [← behind_nothing, foldlM_step_behind, convert]
  cases ts.foldlM (step table) ⟨#[], ws⟩ with
  | error f => rfl
  | ok y => exact finish_behind output y

/-! ### What waits below a parenthesis -/

theorem step_above (hl : lp.kind = .leftParen) (hy : Ranked table y.waiting)
    (h : step table y t = .ok y') :
    step table (y.above (lp :: below)) t = .ok (y'.above (lp :: below)) := by
  have hm : Move table y t (.ok y') := h ▸ step_move hy t
  cases hm with
  | number hn => exact step_number hn
  | @operator k gone stay ho hk hsplit hgone hstay =>
    have hfits : Fits table k (stay ++ lp :: below) := by
      cases stay with
      | nil =>
        rintro w ⟨⟩ hne
        exact absurd hl hne
      | cons w stay => exact hstay
    have hrelease := release_append hk hgone hfits
    rw [← List.append_assoc, ← hsplit] at hrelease
    exact step_operator ho hk hrelease
  | leftParen hp => exact step_leftParen hp
  | @rightParen gone stay lp' hr hsplit hgone hlp =>
    have hwait : (y.above (lp :: below)).waiting = gone ++ lp' :: (stay ++ lp :: below) := by
      simp [above, hsplit]
    exact step_rightParen hr hwait (fun w hw => by simp [hgone w hw]) hlp

theorem foldlM_step_above (hl : lp.kind = .leftParen) (h : ts.foldlM (step table) empty = .ok y) :
    ts.foldlM (step table) (empty.above (lp :: below)) = .ok (y.above (lp :: below)) := by
  refine (foldlM_invariant (fun read z => Reached table read z ∧
    read.foldlM (step table) (empty.above (lp :: below)) = .ok (z.above (lp :: below)))
    ⟨reached_of_foldlM rfl, rfl⟩ ?_ h).2
  rintro read z t z' ⟨hz, hread⟩ hstep
  refine ⟨hz.step hstep, foldlM_append_eq_ok.2 ⟨_, hread, ?_⟩⟩
  rw [List.foldlM_cons, step_above hl hz.ranked hstep]
  rfl

/-- A group puts out what its text is converted to, and leaves waiting what waited before. -/
theorem foldlM_step_group (hl : lp.kind = .leftParen) (hr : rp.kind = .rightParen)
    (h : toPostfix table ts = .ok gs) (y : Yard) :
    ([lp] ++ ts ++ [rp]).foldlM (step table) y = .ok ⟨y.output ++ gs, y.waiting⟩ := by
  obtain ⟨z, hrun, hfinish⟩ := bind_eq_ok.1 h
  obtain ⟨hnone, rfl⟩ := finish_eq_ok hfinish
  have hinner : ts.foldlM (step table) ⟨y.output, lp :: y.waiting⟩ =
      .ok ((z.above (lp :: y.waiting)).behind y.output) := by
    have habove : ts.foldlM (step table) ⟨#[], lp :: y.waiting⟩ = .ok (z.above (lp :: y.waiting)) :=
      foldlM_step_above hl hrun
    rw [← behind_nothing, foldlM_step_behind, habove]
    rfl
  have hclose : step table ((z.above (lp :: y.waiting)).behind y.output) rp =
      .ok ⟨y.output ++ z.output ++ z.waiting, y.waiting⟩ :=
    step_rightParen hr rfl hnone hl
  rw [List.append_assoc, List.singleton_append, List.foldlM_cons, step_leftParen hl]
  show (ts ++ [rp]).foldlM (step table) ⟨y.output, lp :: y.waiting⟩ = _
  rw [List.foldlM_append, hinner]
  show step table _ rp >>= pure = _
  rw [bind_pure, hclose]
  exact congrArg (fun output => Except.ok (Yard.mk output y.waiting)) (Array.ext' (by simp))

end Yard

section
variable {table : Precedence} {before mid after g gs ps A B : List Token} {n lp rp : Token}

/-- What is put out for the text around a piece that leaves nothing waiting: what comes before the piece
in the output, and what comes behind it. -/
def surroundings (table : Precedence) (before after : List Token) :
    Except Fault (List Token × List Token) := do
  let y ← before.foldlM (Yard.step table) Yard.empty
  let rest ← Yard.convert table y.waiting after
  return (y.output.toList, rest)

theorem toPostfix_eq_surroundings
    (h : ∀ y, mid.foldlM (Yard.step table) y = .ok ⟨y.output ++ ps, y.waiting⟩) :
    toPostfix table (before ++ mid ++ after) =
      (fun around => around.1 ++ ps ++ around.2) <$> surroundings table before after := by
  rw [toPostfix, List.foldlM_append, List.foldlM_append, surroundings]
  cases before.foldlM (Yard.step table) Yard.empty with
  | error f => rfl
  | ok y =>
    show mid.foldlM (Yard.step table) y >>= _ >>= _ = _
    rw [h]
    show after.foldlM (Yard.step table) _ >>= Yard.finish = _ <$> (Yard.convert _ y.waiting _ >>= _)
    rw [Yard.convert_of_output]
    cases Yard.convert table y.waiting after with
    | error f => rfl
    | ok rest => exact congrArg Except.ok (by simp)

theorem foldlM_step_singleton (hn : n.kind = .number) (y : Yard) :
    [n].foldlM (Yard.step table) y = .ok ⟨y.output ++ [n], y.waiting⟩ := by
  rw [List.foldlM_cons, Yard.step_number hn]
  exact congrArg (fun output => Except.ok (Yard.mk output y.waiting)) (Array.ext' (by simp))

/-- A number that stands at one place of a text stands at one place of the output. -/
theorem not_mem_of_toPostfix (hn : n.kind = .number) (hbefore : n ∉ before) (hafter : n ∉ after)
    (h : toPostfix table (before ++ [n] ++ after) = .ok (A ++ [n] ++ B)) : n ∉ A ∧ n ∉ B := by
  have hcount := (toPostfix_perm h).count_eq n
  rw [List.count_filter (by simp [Yard.kept, hn])] at hcount
  simp only [List.count_append, List.count_eq_zero.2 hbefore, List.count_eq_zero.2 hafter] at hcount
  constructor <;> refine List.count_eq_zero.1 ?_ <;> omega

theorem toPostfix_group_cases (hg : toPostfix table g = .ok gs) (hn : n.kind = .number)
    (hl : lp.kind = .leftParen) (hr : rp.kind = .rightParen) (before after : List Token) :
    (∃ f, toPostfix table (before ++ [n] ++ after) = .error f ∧
      toPostfix table (before ++ ([lp] ++ g ++ [rp]) ++ after) = .error f) ∨
    ∃ A B, toPostfix table (before ++ [n] ++ after) = .ok (A ++ [n] ++ B) ∧
      toPostfix table (before ++ ([lp] ++ g ++ [rp]) ++ after) = .ok (A ++ gs ++ B) := by
  rw [toPostfix_eq_surroundings (foldlM_step_singleton hn),
    toPostfix_eq_surroundings (Yard.foldlM_step_group hl hr hg)]
  cases surroundings table before after with
  | error f => exact .inl ⟨f, rfl, rfl⟩
  | ok around => exact .inr ⟨around.1, around.2, rfl, rfl⟩

end

/-- A text that can be converted may stand in parentheses where a number stands: its output comes where
the number came, and all else comes as before or fails as before. Parentheses around the whole of it
make no difference. -/
theorem toPostfix_group (table : Precedence) {g gs before after : List Token} {n lp rp : Token}
    (hg : toPostfix table g = .ok gs) (hn : n.kind = .number) (hbefore : n ∉ before)
    (hafter : n ∉ after) (hl : lp.kind = .leftParen) (hr : rp.kind = .rightParen) :
    let number := toPostfix table (before ++ [n] ++ after)
    let group := toPostfix table (before ++ ([lp] ++ g ++ [rp]) ++ after)
    (∀ A B, number = .ok (A ++ [n] ++ B) → group = .ok (A ++ gs ++ B)) ∧
    (∀ ps, number = .ok ps → ∃ A B, ps = A ++ [n] ++ B) ∧
    (∀ f, number = .error f → group = .error f) ∧
    toPostfix table ([lp] ++ g ++ [rp]) = .ok gs := by
  intro number group
  have halone : toPostfix table ([lp] ++ g ++ [rp]) = .ok gs := by
    rw [toPostfix, Yard.foldlM_step_group hl hr hg]
    exact congrArg Except.ok (by simp [Yard.empty])
  rcases toPostfix_group_cases hg hn hl hr before after with
    ⟨f, hnumber, hgroup⟩ | ⟨A, B, hnumber, hgroup⟩
  · refine ⟨fun A B h => ?_, fun ps h => ?_, fun f' h => ?_, halone⟩ <;>
      cases h.symm.trans hnumber
    exact hgroup
  · obtain ⟨hA, hB⟩ := not_mem_of_toPostfix hn hbefore hafter hnumber
    refine ⟨fun A' B' h => ?_, fun ps h => ?_, fun f h => ?_, halone⟩
    · have heq : A ++ n :: B = A' ++ n :: B' := by
        simpa using Except.ok.inj (hnumber.symm.trans h)
      obtain ⟨rfl, -, rfl⟩ := (List.append_cons_inj_of_notMem hA hB).1 heq
      exact hgroup
    · exact ⟨A, B, Except.ok.inj (h.symm.trans hnumber)⟩
    · cases h.symm.trans hnumber

/-- The group is a sum between a product and a power; that the text ends with a `)` too many is found
out behind it. -/
theorem toPostfix_group_in_product :
    let num (s : String) : Token := ⟨.number, s, none⟩
    let op (s : String) : Token := ⟨.operator, s, none⟩
    let lp : Token := ⟨.leftParen, "(", none⟩
    let rp : Token := ⟨.rightParen, ")", none⟩
    let g := [num "1", op "+", num "4"]
    toPostfix .arithmetic g = .ok [num "1", num "4", op "+"] ∧
      num "7" ∉ [num "2", op "*"] ∧ num "7" ∉ [op "**", num "3"] ∧
      toPostfix .arithmetic ([num "2", op "*"] ++ ([lp] ++ g ++ [rp]) ++ [op "**", num "3"]) =
        .ok ([num "2"] ++ [num "1", num "4", op "+"] ++ [num "3", op "**", op "*"]) ∧
      toPostfix .arithmetic ([num "2", op "*"] ++ ([lp] ++ g ++ [rp]) ++ [rp]) =
        .error (.unmatchedRight none) := by
  intro num op lp rp g
  have hg : toPostfix .arithmetic g = .ok [num "1", num "4", op "+"] := by decide
  have hn : (num "7").kind = .number := rfl
  have hbefore : num "7" ∉ [num "2", op "*"] := by decide
  have hafter : num "7" ∉ [op "**", num "3"] := by decide
  have hclosed : num "7" ∉ [rp] := by decide
  have hl : lp.kind = .leftParen := rfl
  have hr : rp.kind = .rightParen := rfl
  obtain ⟨hvalue, -⟩ := toPostfix_group .arithmetic hg hn hbefore hafter hl hr
  obtain ⟨-, -, hfault, -⟩ := toPostfix_group .arithmetic hg hn hbefore hclosed hl hr
  exact ⟨hg, hbefore, hafter, hvalue [num "2"] [num "3", op "**", op "*"] (by decide),
    hfault _ (by decide)⟩

end ExprCalc
