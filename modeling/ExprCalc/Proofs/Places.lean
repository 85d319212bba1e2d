import ExprCalc.Evaluation
import ExprCalc.Proofs.Outcome
import ExprCalc.Yard
import Mathlib.Data.List.Basic

/-!
# Positions play no part

Tokens carry positions for messages only. If each token of a text is given another position, its
conversion comes to the same tokens with the other positions (`toPostfix_map`), and its evaluation to the
same value (`evaluate_map`). Where there is a fault, it is the same one, but for the position it may name
(`Alike`).
-/

namespace ExprCalc

/-- The token without its position. -/
def Token.unplaced (t : Token) : Token := { t with position := none }

/-- The fault without the position that it names. -/
def Fault.unplaced : Fault → Fault
  | .unmatchedRight _ => .unmatchedRight none
  | .unmatchedLeft _ => .unmatchedLeft none
  | .unexpectedToken t => .unexpectedToken t.unplaced
  | f => f

namespace Fault

theorem kind_unplaced (f : Fault) : f.unplaced.kind = f.kind := by
  cases f <;> rfl

theorem code_unplaced (f : Fault) : f.unplaced.code = f.code := by
  cases f <;> rfl

end Fault

/-! ### Outcomes -/

/-- Two outcomes are the same, but for the positions that their faults name. -/
def Alike {α : Type} (x y : Except Fault α) : Prop :=
  x.mapError Fault.unplaced = y.mapError Fault.unplaced

namespace Alike
variable {α β σ : Type} {x y z : Except Fault α}

theorem refl (x : Except Fault α) : Alike x x := rfl

theorem trans (h : Alike x y) (h' : Alike y z) : Alike x z := Eq.trans h h'

theorem symm (h : Alike x y) : Alike y x := Eq.symm h

theorem error {f g : Fault} (h : f.unplaced = g.unplaced) :
    Alike (.error f : Except Fault α) (.error g) := by
  show Except.error f.unplaced = Except.error g.unplaced
  rw [h]

theorem ok_or_error (h : Alike x y) : (∃ a, x = .ok a ∧ y = .ok a) ∨
    ∃ f g, x = .error f ∧ y = .error g ∧ f.unplaced = g.unplaced := by
  cases x with
  | ok a =>
    cases y with
    | ok b =>
      cases h
      exact .inl ⟨a, rfl, rfl⟩
    | error g => cases h
  | error f =>
    cases y with
    | ok b => cases h
    | error g => exact .inr ⟨f, g, rfl, rfl, Except.error.inj h⟩

theorem eq_ok_iff (h : Alike x y) {a : α} : x = .ok a ↔ y = .ok a := by
  rcases h.ok_or_error with ⟨b, rfl, rfl⟩ | ⟨f, g, rfl, rfl, -⟩
  · rfl
  · simp

/-- The faults are of the same kind and have the same code. -/
theorem exists_error_iff (h : Alike x y) {kind : FaultKind} {code : String} :
    (∃ f, x = .error f ∧ f.kind = kind ∧ f.code = code) ↔
      ∃ f, y = .error f ∧ f.kind = kind ∧ f.code = code := by
  rcases h.ok_or_error with ⟨b, rfl, rfl⟩ | ⟨f, g, rfl, rfl, hfg⟩
  · simp
  · have hkind : f.kind = g.kind := by rw [← f.kind_unplaced, hfg, g.kind_unplaced]
    have hcode : f.code = g.code := by rw [← f.code_unplaced, hfg, g.code_unplaced]
    simp [hkind, hcode]

theorem bind {f g : α → Except Fault β} (h : Alike x y) (hfg : ∀ a, Alike (f a) (g a)) :
    Alike (x >>= f) (y >>= g) := by
  rcases h.ok_or_error with ⟨a, rfl, rfl⟩ | ⟨f, g, rfl, rfl, hfault⟩
  · exact hfg a
  · exact error hfault

/-- Two runs stay alike if the steps are. -/
theorem foldlM_map {step : σ → α → Except Fault σ} {G : σ → σ} {g : α → α}
    (h : ∀ s a, Alike (step (G s) (g a)) (G <$> step s a)) (as : List α) (s : σ) :
    Alike ((as.map g).foldlM step (G s)) (G <$> as.foldlM step s) := by
  induction as generalizing s with
  | nil => exact refl _
  | cons a as ih =>
    rw [List.map_cons, List.foldlM_cons, List.foldlM_cons, map_bind]
    refine ((h s a).bind fun s' => refl _).trans ?_
    rw [bind_map_left]
    exact (refl _).bind ih

end Alike

/-! ### Conversion -/

section
variable {table : Precedence} {g : Token → Token} (hkind : ∀ t, (g t).kind = t.kind)
  (hlexeme : ∀ t, (g t).lexeme = t.lexeme)

include hkind in
theorem isLeftParen_comp : (fun t : Token => decide (t.kind ≠ .leftParen)) ∘ g =
    fun t => decide (t.kind ≠ .leftParen) := by
  funext t
  simp [hkind]

include hlexeme in
theorem Precedence.rank_map (t : Token) : table.rank (g t) = table.rank t := by
  rw [rank, rank, hlexeme]

namespace Yard

def map (g : Token → Token) (y : Yard) : Yard := ⟨y.output.map g, y.waiting.map g⟩

theorem map_append_list (output : Array Token) (ws : List Token) :
    (output ++ ws).map g = output.map g ++ ws.map g :=
  Array.ext' (by simp)

include hkind hlexeme in
theorem release_map (t : Token) (ws : List Token) : release table (g t) (ws.map g) =
    Prod.map (List.map g) (List.map g) <$> release table t ws := by
  induction ws with
  | nil => rfl
  | cons w ws ih =>
    have hprecedes : table.takesPrecedence (g w) (g t) = table.takesPrecedence w t := by
      simp only [Precedence.takesPrecedence, Precedence.rank_map hlexeme]
    rw [List.map_cons, release, release, hkind, hprecedes]
    split
    · rfl
    · rw [map_bind]
      congr 1
      funext b
      cases b with
      | false => rfl
      | true =>
        simp only [if_true, ih, map_bind, bind_map_left]
        rfl

include hkind hlexeme in
theorem step_map (y : Yard) (t : Token) :
    Alike (step table (y.map g) (g t)) (map g <$> step table y t) := by
  cases ht : t.kind with
  | number =>
    simp only [step, hkind, ht, map_pure, map, Array.map_push]
    exact .refl _
  | operator =>
    have hwaiting : (y.map g).waiting = y.waiting.map g := rfl
    simp only [step, hkind, ht, Precedence.rank_map hlexeme, hwaiting,
      release_map hkind hlexeme, map_bind, bind_map_left, map_pure]
    simp only [map, Prod.map, map_append_list, List.map_cons]
    exact .refl _
  | leftParen =>
    simp only [step, hkind, ht, map_pure]
    exact .refl _
  | rightParen =>
    have hdrop : (y.map g).waiting.dropWhile (·.kind ≠ .leftParen) =
        (y.waiting.dropWhile (·.kind ≠ .leftParen)).map g := by
      rw [map, List.dropWhile_map, isLeftParen_comp hkind]
    have htake : (y.map g).waiting.takeWhile (·.kind ≠ .leftParen) =
        (y.waiting.takeWhile (·.kind ≠ .leftParen)).map g := by
      rw [map, List.takeWhile_map, isLeftParen_comp hkind]
    simp only [step, hkind, ht, hdrop, htake]
    cases y.waiting.dropWhile (·.kind ≠ .leftParen) with
    | nil => exact .error rfl
    | cons lp below =>
      simp only [List.map_cons, map_pure, map, map_append_list]
      exact .refl _

include hkind in
theorem finish_map (y : Yard) : Alike (y.map g).finish (List.map g <$> y.finish) := by
  have hfind : (y.map g).waiting.find? (·.kind = .leftParen) =
      (y.waiting.find? (·.kind = .leftParen)).map g := by
    rw [map, List.find?_map]
    simp only [Function.comp_def, hkind]
  unfold finish
  rw [hfind]
  cases y.waiting.find? (·.kind = .leftParen) with
  | none =>
    simp only [Option.map_none, map_pure, map, ← map_append_list, Array.toList_map]
    exact .refl _
  | some t => exact .error rfl

end Yard

include hkind hlexeme in
theorem toPostfix_map (ts : List Token) :
    Alike (toPostfix table (ts.map g)) (List.map g <$> toPostfix table ts) := by
  have hstart : Yard.empty.map g = Yard.empty := by simp [Yard.map, Yard.empty]
  unfold toPostfix
  rw [map_bind]
  have hstep : ∀ y t, Alike (Yard.step table (y.map g) (g t)) (Yard.map g <$> Yard.step table y t) :=
    Yard.step_map hkind hlexeme
  have hrun := Alike.foldlM_map hstep ts Yard.empty
  rw [hstart] at hrun
  refine (hrun.bind fun y => .refl _).trans ?_
  rw [bind_map_left]
  exact (Alike.refl _).bind (Yard.finish_map hkind)

include hkind hlexeme in
theorem toPostfix_of_map {ts ps : List Token} (h : toPostfix table (ts.map g) = .ok ps) :
    ∃ vs, toPostfix table ts = .ok vs ∧ vs.map g = ps :=
  map_eq_ok.1 ((toPostfix_map hkind hlexeme ts).eq_ok_iff.1 h)

/-! ### Evaluation -/

variable {limits : Limits} {operations : Operations}

include hkind hlexeme in
theorem evalStep_map (stack : List Int) (t : Token) :
    Alike (evalStep limits operations stack (g t)) (evalStep limits operations stack t) := by
  have hsame : (g t).unplaced = t.unplaced := by
    simp only [Token.unplaced, hkind, hlexeme]
  cases ht : t.kind with
  | number | operator =>
    simp only [evalStep, hkind, hlexeme, ht]
    exact .refl _
  | leftParen | rightParen =>
    simp only [evalStep, hkind, ht]
    exact .error (congrArg Fault.unexpectedToken hsame)

include hkind hlexeme in
theorem evaluate_map (ts : List Token) :
    Alike (evaluate limits operations (ts.map g)) (evaluate limits operations ts) := by
  have hstep : ∀ stack t, Alike (evalStep limits operations (id stack) (g t))
      (id <$> evalStep limits operations stack t) := by
    intro stack t
    rw [id_map]
    exact evalStep_map hkind hlexeme stack t
  have hrun := Alike.foldlM_map hstep ts []
  rw [id_map] at hrun
  exact hrun.bind fun stack => .refl _

end

/-! ### Tokens that only differ in their positions -/

section
variable (limits : Limits) (operations : Operations) (table : Precedence) {ts us : List Token}

theorem evaluate_unplaced (ts : List Token) :
    Alike (evaluate limits operations (ts.map Token.unplaced)) (evaluate limits operations ts) :=
  evaluate_map (g := Token.unplaced) (fun _ => rfl) (fun _ => rfl) ts

theorem toPostfix_evaluate_unplaced (ts : List Token) :
    Alike (toPostfix table (ts.map Token.unplaced) >>= evaluate limits operations)
      (toPostfix table ts >>= evaluate limits operations) := by
  have hconvert : Alike (toPostfix table (ts.map Token.unplaced))
      (List.map Token.unplaced <$> toPostfix table ts) :=
    toPostfix_map (g := Token.unplaced) (fun _ => rfl) (fun _ => rfl) ts
  refine (hconvert.bind fun ps => .refl _).trans ?_
  rw [bind_map_left]
  exact (Alike.refl _).bind (evaluate_unplaced limits operations)

theorem evaluate_alike (h : us.map Token.unplaced = ts.map Token.unplaced) :
    Alike (evaluate limits operations us) (evaluate limits operations ts) :=
  (evaluate_unplaced limits operations us).symm.trans (h ▸ evaluate_unplaced limits operations ts)

theorem toPostfix_evaluate_alike (h : us.map Token.unplaced = ts.map Token.unplaced) :
    Alike (toPostfix table us >>= evaluate limits operations)
      (toPostfix table ts >>= evaluate limits operations) :=
  (toPostfix_evaluate_unplaced limits operations table us).symm.trans
    (h ▸ toPostfix_evaluate_unplaced limits operations table ts)

end

end ExprCalc
