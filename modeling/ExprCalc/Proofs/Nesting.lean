import Mathlib.Data.List.Induction

/-!
# Nesting

A text has opening symbols, closing symbols, and others that play no part in how it is nested
(`Side`). It is `Balanced` if every opening symbol has a closing one behind it with a balanced text
between the two. In any text a closing symbol may be `Stray`, with nothing left to close, and an
opening one may never be closed (`ClosedIn`).

`Open` is what a reader knows of a text in which no closing symbol is stray: which opening symbols
are not closed yet, the last one first. Reading one more symbol changes it at its head only
(`Open.opening`, `Open.closing`), and it says which symbols are at fault: none is stray
(`Open.never_stray`), and the first one listed is the last one never closed (`Open.dangling`).
-/

namespace ExprCalc

/-- What a symbol does to the nesting of a text. -/
inductive Side
  | opening
  | closing
  | inner
deriving DecidableEq

section
variable {α : Type} (side : α → Side)

inductive Balanced : List α → Prop
  | nil : Balanced []
  | inner {a : α} {as : List α} : side a = .inner → Balanced as → Balanced (a :: as)
  | group {l r : α} {as bs : List α} : side l = .opening → side r = .closing → Balanced as →
      Balanced bs → Balanced (l :: as ++ r :: bs)

/-- The opening symbol in front of `after` is closed in it. -/
def ClosedIn (after : List α) : Prop :=
  ∃ mid r rest, after = mid ++ r :: rest ∧ side r = .closing ∧ Balanced side mid

/-- The closing symbol behind `before` closes one in it. -/
def OpenedIn (before : List α) : Prop :=
  ∃ rest l mid, before = rest ++ l :: mid ∧ side l = .opening ∧ Balanced side mid

def AllClosed (as : List α) : Prop :=
  ∀ before l after, as = before ++ l :: after → side l = .opening → ClosedIn side after

/-- A closing symbol behind `before`, where all opening symbols are closed already. -/
def Stray (before : List α) (a : α) : Prop := side a = .closing ∧ AllClosed side before

/-- An opening symbol in front of `after` that is never closed, and the last one of that kind. -/
def Dangling (a : α) (after : List α) : Prop :=
  side a = .opening ∧ ¬ ClosedIn side after ∧ AllClosed side after

/-- The opening symbols that are not closed, each with its offset and the last one first, in a text
without stray closing symbols. -/
inductive Open : List α → List (α × Nat) → Prop
  | balanced {as : List α} : Balanced side as → Open as []
  | cons {before mid : List α} {l : α} {opened : List (α × Nat)} : Open before opened →
      side l = .opening → Balanced side mid →
      Open (before ++ l :: mid) ((l, before.length) :: opened)

/-- How many opening symbols are not closed behind `a`, if there are `n` in front of it. -/
def climb (n : Nat) (a : α) : Option Nat :=
  match side a with
  | .opening => some (n + 1)
  | .closing => if n = 0 then none else some (n - 1)
  | .inner => some n

end

/-! ### The first symbol with a property -/

/-- Of two places in a text one comes first, or they are the same. -/
theorem split_cases {α : Type} {xs ys before after : List α} {x a : α}
    (h : xs ++ x :: ys = before ++ a :: after) :
    (∃ mid, before = xs ++ x :: mid ∧ ys = mid ++ a :: after) ∨
      (xs = before ∧ x = a ∧ ys = after) ∨
      ∃ mid, xs = before ++ a :: mid ∧ after = mid ++ x :: ys := by
  rcases List.append_eq_append_iff.1 h with ⟨mid, hb, ha⟩ | ⟨mid, hb, ha⟩
  · cases mid with
    | nil =>
      simp only [List.append_nil, List.nil_append, List.cons.injEq] at hb ha
      exact .inr (.inl ⟨hb.symm, ha⟩)
    | cons c mid =>
      simp only [List.cons_append, List.cons.injEq] at ha
      exact .inl ⟨mid, by rw [hb, ha.1], ha.2⟩
  · cases mid with
    | nil =>
      simp only [List.append_nil, List.nil_append, List.cons.injEq] at hb ha
      exact .inr (.inl ⟨hb, ha.1.symm, ha.2.symm⟩)
    | cons c mid =>
      simp only [List.cons_append, List.cons.injEq] at ha
      exact .inr (.inr ⟨mid, by rw [hb, ha.1], ha.2⟩)

section
variable {α : Type} {P : List α → α → Prop} {as before before' : List α} {a a' : α}

/-- No symbol has property `P`, which may also depend on what stands in front of it. -/
def Never (P : List α → α → Prop) (as : List α) : Prop :=
  ∀ before a after, as = before ++ a :: after → ¬ P before a

/-- The symbol `a` behind `before` is the first one with property `P`. -/
def FirstAt (P : List α → α → Prop) (as before : List α) (a : α) : Prop :=
  (∃ after, as = before ++ a :: after) ∧ P before a ∧ Never P before

theorem FirstAt.unique (h : FirstAt P as before a) (h' : FirstAt P as before' a') :
    before = before' ∧ a = a' := by
  obtain ⟨⟨after, rfl⟩, hP, hnever⟩ := h
  obtain ⟨⟨after', hsplit⟩, hP', hnever'⟩ := h'
  rcases split_cases hsplit with ⟨mid, hb, -⟩ | ⟨hb, ha, -⟩ | ⟨mid, hb, -⟩
  · exact absurd hP (hnever' before a mid hb)
  · exact ⟨hb, ha⟩
  · exact absurd hP' (hnever before' a' mid hb)

end

/-! ### Balanced texts -/

variable {α : Type} {side : α → Side} {as bs before after : List α} {a : α}

theorem OpenedIn.append_left (h : OpenedIn side before) (bs : List α) :
    OpenedIn side (bs ++ before) := by
  obtain ⟨rest, l, mid, rfl, hl, hmid⟩ := h
  exact ⟨bs ++ rest, l, mid, by simp, hl, hmid⟩

theorem ClosedIn.append_right (h : ClosedIn side after) (bs : List α) :
    ClosedIn side (after ++ bs) := by
  obtain ⟨mid, r, rest, rfl, hr, hmid⟩ := h
  exact ⟨mid, r, rest ++ bs, by simp, hr, hmid⟩

namespace Balanced

theorem append (ha : Balanced side as) (hb : Balanced side bs) : Balanced side (as ++ bs) := by
  induction ha with
  | nil => exact hb
  | inner hs _ ih => exact .inner hs ih
  | group hl hr hi _ _ ih =>
    rw [List.cons_append, List.cons_append, List.append_assoc, List.cons_append]
    exact .group hl hr hi ih

theorem of_inner (h : ∀ a ∈ as, side a = .inner) : Balanced side as := by
  induction as with
  | nil => exact .nil
  | cons a as ih =>
    exact .inner (h a List.mem_cons_self) (ih fun b hb => h b (List.mem_cons_of_mem _ hb))

theorem foldlM_climb (h : Balanced side as) (n : Nat) : as.foldlM (climb side) n = some n := by
  induction h generalizing n with
  | nil => rfl
  | inner hs _ ih => simp [climb, hs, ih]
  | group hl hr _ _ ihi ihb => simp [climb, hl, hr, ihi, ihb]

theorem not_closedIn (h : Balanced side as) : ¬ ClosedIn side as := by
  rintro ⟨mid, r, rest, rfl, hr, hmid⟩
  have hrun := h.foldlM_climb 0
  simp [hmid.foldlM_climb, climb, hr] at hrun

theorem partner (h : Balanced side as) (hsplit : as = before ++ a :: after) :
    (side a = .opening → ClosedIn side after) ∧ (side a = .closing → OpenedIn side before) := by
  induction h generalizing before after with
  | nil => simp at hsplit
  | @inner b bs hs _ ih =>
    cases before with
    | nil =>
      simp only [List.nil_append, List.cons.injEq] at hsplit
      rw [← hsplit.1, hs]
      exact ⟨nofun, nofun⟩
    | cons c before =>
      simp only [List.cons_append, List.cons.injEq] at hsplit
      exact ⟨(ih hsplit.2).1, fun ha => ((ih hsplit.2).2 ha).append_left [c]⟩
  | @group l r xs ys hl hr hxs _ ihx ihy =>
    cases before with
    | nil =>
      simp only [List.cons_append, List.nil_append, List.cons.injEq] at hsplit
      rw [← hsplit.1, hl]
      exact ⟨fun _ => ⟨xs, r, ys, hsplit.2.symm, hr, hxs⟩, nofun⟩
    | cons c before =>
      simp only [List.cons_append, List.cons.injEq] at hsplit
      obtain ⟨rfl, hsplit⟩ := hsplit
      -- the symbol stands behind `r`, it is `r`, or it stands between `l` and `r`
      rcases split_cases hsplit with ⟨mid, rfl, hy⟩ | ⟨rfl, rfl, -⟩ | ⟨mid, hx, rfl⟩
      · refine ⟨(ihy hy).1, fun ha => ?_⟩
        have hopened := ((ihy hy).2 ha).append_left (l :: xs ++ [r])
        simpa using hopened
      · rw [hr]
        exact ⟨nofun, fun _ => ⟨[], l, xs, rfl, hl, hxs⟩⟩
      · refine ⟨fun ha => ((ihx hx).1 ha).append_right (r :: ys), fun ha => ?_⟩
        exact ((ihx hx).2 ha).append_left [l]

theorem allClosed (h : Balanced side as) : AllClosed side as :=
  fun _ _ _ hsplit hl => (h.partner hsplit).1 hl

end Balanced

theorem OpenedIn.not_allClosed (h : OpenedIn side before) : ¬ AllClosed side before := by
  obtain ⟨rest, l, mid, rfl, hl, hmid⟩ := h
  exact fun hall => hmid.not_closedIn (hall rest l mid rfl hl)

theorem closedIn_concat_iff :
    ClosedIn side (as ++ [a]) ↔ ClosedIn side as ∨ side a = .closing ∧ Balanced side as := by
  constructor
  · rintro ⟨mid, r, rest, hsplit, hr, hmid⟩
    rcases split_cases hsplit with ⟨between, -, hnil⟩ | ⟨rfl, rfl, -⟩ | ⟨between, rfl, -⟩
    · simp at hnil
    · exact .inr ⟨hr, hmid⟩
    · exact .inl ⟨mid, r, between, rfl, hr, hmid⟩
  · rintro (h | ⟨ha, has⟩)
    · exact h.append_right [a]
    · exact ⟨as, a, [], rfl, ha, has⟩

/-- A text is balanced if its opening symbols are closed in it and nothing in front of it is. -/
theorem balanced_of_allClosed (hall : AllClosed side as) (hclosed : ¬ ClosedIn side as) :
    Balanced side as := by
  induction hn : as.length using Nat.strongRecOn generalizing as with
  | _ n ih =>
    subst hn
    cases as with
    | nil => exact .nil
    | cons a as =>
      cases ha : side a with
      | inner =>
        refine .inner ha (ih _ (Nat.lt_succ_self _) (fun before l after hsplit => ?_) ?_ rfl)
        · exact hall (a :: before) l after (congrArg (a :: ·) hsplit)
        · rintro ⟨mid, r, rest, rfl, hr, hmid⟩
          exact hclosed ⟨a :: mid, r, rest, rfl, hr, .inner ha hmid⟩
      | closing => exact absurd ⟨[], a, as, rfl, ha, .nil⟩ hclosed
      | opening =>
        obtain ⟨mid, r, rest, rfl, hr, hmid⟩ := hall [] a as rfl ha
        refine .group ha hr hmid (ih _ (by simp; omega) (fun before l after hsplit => ?_) ?_ rfl)
        · exact hall (a :: mid ++ r :: before) l after (by simp [hsplit])
        · rintro ⟨mid', r', rest', rfl, hr', hmid'⟩
          exact hclosed ⟨a :: mid ++ r :: mid', r', rest', by simp, hr', .group ha hr hmid hmid'⟩

theorem Dangling.unique {before' after' : List α} {a' : α} (h : Dangling side a after)
    (h' : Dangling side a' after') (hsplit : before ++ a :: after = before' ++ a' :: after') :
    before = before' ∧ a = a' := by
  rcases split_cases hsplit with ⟨mid, -, ha⟩ | ⟨hb, ha, -⟩ | ⟨mid, -, ha⟩
  · exact absurd (h.2.2 mid a' after' ha h'.1) h'.2.1
  · exact ⟨hb, ha⟩
  · exact absurd (h'.2.2 mid a after ha h.1) h.2.1

/-! ### What is open -/

namespace Open
variable {opened : List (α × Nat)} {p : α × Nat}

theorem append (h : Open side as opened) (hb : Balanced side bs) : Open side (as ++ bs) opened := by
  cases h with
  | balanced ha => exact .balanced (ha.append hb)
  | cons hbefore hl hmid =>
    rw [List.append_assoc, List.cons_append]
    exact .cons hbefore hl (hmid.append hb)

theorem opening (h : Open side as opened) (ha : side a = .opening) :
    Open side (as ++ [a]) ((a, as.length) :: opened) :=
  .cons h ha .nil

theorem closing (h : Open side as (p :: opened)) (ha : side a = .closing) :
    Open side (as ++ [a]) opened := by
  cases h with
  | @cons before mid l _ hbefore hl hmid =>
    rw [List.append_assoc]
    exact hbefore.append (.group hl ha hmid .nil)

theorem never_stray (h : Open side as opened) : Never (Stray side) as := by
  suffices hpartner : ∀ before a after, as = before ++ a :: after → side a = .closing →
      OpenedIn side before by
    intro before a after hsplit hstray
    exact (hpartner before a after hsplit hstray.1).not_allClosed hstray.2
  induction h with
  | balanced ha => exact fun before a after hsplit => (ha.partner hsplit).2
  | @cons xs mid l _ _ hl hmid ih =>
    intro before a after hsplit ha
    rcases split_cases hsplit with ⟨rest, rfl, hmid'⟩ | ⟨-, rfl, -⟩ | ⟨rest, hxs, -⟩
    · have hopened := ((hmid.partner hmid').2 ha).append_left (xs ++ [l])
      simpa using hopened
    · rw [hl] at ha
      cases ha
    · exact ih before a rest hxs ha

theorem allClosed_iff (h : Open side as opened) : AllClosed side as ↔ opened = [] := by
  cases h with
  | balanced ha => exact ⟨fun _ => rfl, fun _ => ha.allClosed⟩
  | @cons before mid l _ _ hl hmid =>
    have hopened : OpenedIn side (before ++ l :: mid) := ⟨before, l, mid, rfl, hl, hmid⟩
    exact ⟨fun hall => absurd hall hopened.not_allClosed, nofun⟩

/-- The last symbol opened and not closed is the last one never closed. -/
theorem dangling (h : Open side as (p :: opened)) :
    ∃ before after, as = before ++ p.1 :: after ∧ before.length = p.2 ∧ Dangling side p.1 after := by
  cases h with
  | @cons before mid l _ _ hl hmid =>
    exact ⟨before, mid, rfl, rfl, hl, hmid.not_closedIn, hmid.allClosed⟩

theorem balanced_of_nil (h : Open side as []) : Balanced side as := by
  cases h with
  | balanced ha => exact ha

theorem foldlM_climb (h : Open side as opened) : as.foldlM (climb side) 0 = some opened.length := by
  induction h with
  | balanced ha => exact ha.foldlM_climb 0
  | cons _ hl hmid ih => simp [ih, climb, hl, hmid.foldlM_climb]

end Open

theorem exists_open_of_foldlM_climb {n : Nat} (h : as.foldlM (climb side) 0 = some n) :
    ∃ opened, Open side as opened := by
  induction as using List.reverseRecOn generalizing n with
  | nil => exact ⟨[], .balanced .nil⟩
  | append_singleton as a ih =>
    rw [List.foldlM_append] at h
    obtain ⟨k, hk, h⟩ := Option.bind_eq_some_iff.1 h
    obtain ⟨opened, hopen⟩ := ih hk
    cases ha : side a with
    | opening => exact ⟨_, hopen.opening ha⟩
    | inner => exact ⟨opened, hopen.append (.inner ha .nil)⟩
    | closing =>
      cases opened with
      | nil =>
        rw [hopen.foldlM_climb] at hk
        cases hk
        simp [climb, ha] at h
      | cons p opened => exact ⟨opened, hopen.closing ha⟩

/-- A text is balanced if the count of open symbols never falls below zero and ends there. -/
theorem balanced_iff_foldlM_climb : Balanced side as ↔ as.foldlM (climb side) 0 = some 0 := by
  refine ⟨fun h => h.foldlM_climb 0, fun h => ?_⟩
  obtain ⟨opened, hopen⟩ := exists_open_of_foldlM_climb h
  rw [hopen.foldlM_climb] at h
  obtain rfl : opened = [] := List.length_eq_zero_iff.1 (Option.some.inj h)
  exact hopen.balanced_of_nil

instance : Decidable (Balanced side as) := decidable_of_iff _ balanced_iff_foldlM_climb.symm

example : Balanced id [.opening, .opening, .closing, .inner, .closing] ∧
    ¬ Balanced id [.closing, .opening] := by decide

/-- Whether a text is balanced depends on the sides of its symbols only. -/
theorem balanced_congr {β : Type} {side' : β → Side} {cs : List β} (h : as.map side = cs.map side') :
    Balanced side as ↔ Balanced side' cs := by
  have hclimb : ∀ {γ : Type} (s : γ → Side) (xs : List γ) (n : Nat),
      (xs.map s).foldlM (climb id) n = xs.foldlM (climb s) n := by
    intro γ s xs n
    rw [List.foldlM_map]
    rfl
  rw [balanced_iff_foldlM_climb, balanced_iff_foldlM_climb, ← hclimb side, ← hclimb side', h]

theorem balanced_filter_iff {p : α → Bool} (h : ∀ a ∈ as, p a = false → side a = .inner) :
    Balanced side (as.filter p) ↔ Balanced side as := by
  have hclimb : ∀ n, (as.filter p).foldlM (climb side) n = as.foldlM (climb side) n := by
    induction as with
    | nil => exact fun n => rfl
    | cons a as ih =>
      intro n
      have hrest := ih fun b hb => h b (List.mem_cons_of_mem _ hb)
      cases hp : p a with
      | true =>
        rw [List.filter_cons_of_pos hp, List.foldlM_cons, List.foldlM_cons]
        exact bind_congr fun k => hrest k
      | false =>
        have ha : climb side n a = some n := by simp [climb, h a List.mem_cons_self hp]
        rw [List.filter_cons_of_neg (by simp [hp]), List.foldlM_cons, ha]
        exact hrest n
  rw [balanced_iff_foldlM_climb, balanced_iff_foldlM_climb, hclimb]

end ExprCalc
