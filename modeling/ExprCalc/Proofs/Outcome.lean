/-!
# Runs of steps that may fail

How a computation in `Except` comes to a value or an error, and the induction over a run of steps:
what the start satisfies and every step preserves holds after each run that does not fail. A run that
fails does so at a first item, the items before it making a run of their own (`foldlM_eq_error`). Two runs
over the same items stay alike in what each step keeps alike (`foldlM_map_congr`).
-/

namespace ExprCalc

variable {ε σ α β : Type}

theorem bind_eq_ok {x : Except ε α} {f : α → Except ε β} {b : β} :
    x >>= f = .ok b ↔ ∃ a, x = .ok a ∧ f a = .ok b := by
  cases x with
  | error e => exact ⟨nofun, nofun⟩
  | ok a => exact ⟨fun h => ⟨a, rfl, h⟩, fun ⟨_, ha, h⟩ => by cases ha; exact h⟩

theorem map_eq_ok {x : Except ε α} {f : α → β} {b : β} :
    f <$> x = .ok b ↔ ∃ a, x = .ok a ∧ f a = b := by
  cases x with
  | error e => exact ⟨nofun, nofun⟩
  | ok a => exact ⟨fun h => ⟨a, rfl, Except.ok.inj h⟩, fun ⟨_, ha, h⟩ => by cases ha; exact h ▸ rfl⟩

theorem bind_eq_error {x : Except ε α} {f : α → Except ε β} {e : ε} :
    x >>= f = .error e ↔ x = .error e ∨ ∃ a, x = .ok a ∧ f a = .error e := by
  cases x with
  | error e' => exact ⟨fun h => .inl (by cases h; rfl), by rintro (⟨⟨⟩⟩ | ⟨_, ⟨⟩, _⟩); rfl⟩
  | ok a => exact ⟨fun h => .inr ⟨a, rfl, h⟩, by rintro (⟨⟨⟩⟩ | ⟨_, ⟨⟩, h⟩); exact h⟩

theorem map_eq_error {x : Except ε α} {f : α → β} {e : ε} :
    f <$> x = .error e ↔ x = .error e := by
  cases x with
  | error e' => exact ⟨fun h => by cases h; rfl, fun h => by cases h; rfl⟩
  | ok a => exact ⟨nofun, nofun⟩

theorem foldlM_append_eq_ok {step : σ → α → Except ε σ} {s s' : σ} {read rest : List α} :
    (read ++ rest).foldlM step s = .ok s' ↔
      ∃ mid, read.foldlM step s = .ok mid ∧ rest.foldlM step mid = .ok s' := by
  rw [List.foldlM_append, bind_eq_ok]

theorem foldlM_cons_eq_ok {step : σ → α → Except ε σ} {s s' : σ} {a : α} {rest : List α} :
    (a :: rest).foldlM step s = .ok s' ↔
      ∃ mid, step s a = .ok mid ∧ rest.foldlM step mid = .ok s' := by
  rw [List.foldlM_cons, bind_eq_ok]

/-- `I read s`: what holds in state `s` once the items `read` have been read. -/
theorem foldlM_invariant {step : σ → α → Except ε σ} (I : List α → σ → Prop) {s s' : σ}
    {items : List α} (h0 : I [] s)
    (hstep : ∀ read s a s', I read s → step s a = .ok s' → I (read ++ [a]) s')
    (h : items.foldlM step s = .ok s') : I items s' := by
  suffices H : ∀ rest read s, I read s → rest.foldlM step s = .ok s' → I (read ++ rest) s' from
    H items [] s h0 h
  intro rest
  induction rest with
  | nil =>
    intro read s hs h
    cases h
    rwa [List.append_nil]
  | cons a rest ih =>
    intro read s hs h
    obtain ⟨mid, hmid, h⟩ := foldlM_cons_eq_ok.1 h
    rw [← List.singleton_append, ← List.append_assoc]
    exact ih _ mid (hstep read s a mid hs hmid) h

theorem foldlM_eq_error {step : σ → α → Except ε σ} {s : σ} {items : List α} {e : ε} :
    items.foldlM step s = .error e ↔ ∃ before a after s', items = before ++ a :: after ∧
      before.foldlM step s = .ok s' ∧ step s' a = .error e := by
  induction items generalizing s with
  | nil =>
    refine ⟨nofun, ?_⟩
    rintro ⟨before, a, after, _, h, _⟩
    cases before <;> cases h
  | cons x items ih =>
    rw [List.foldlM_cons, bind_eq_error]
    constructor
    · rintro (h | ⟨mid, hmid, h⟩)
      · exact ⟨[], x, items, s, rfl, rfl, h⟩
      · obtain ⟨before, a, after, s', rfl, hrun, ha⟩ := ih.1 h
        exact ⟨x :: before, a, after, s', rfl, foldlM_cons_eq_ok.2 ⟨mid, hmid, hrun⟩, ha⟩
    · rintro ⟨before, a, after, s', h, hrun, ha⟩
      cases before with
      | nil =>
        cases h
        cases hrun
        exact .inl ha
      | cons b before =>
        cases h
        obtain ⟨mid, hmid, hrun⟩ := foldlM_cons_eq_ok.1 hrun
        exact .inr ⟨mid, hmid, ih.2 ⟨before, a, after, s', rfl, hrun, ha⟩⟩

/-! ### Runs that are alike up to a part of the state -/

section
variable {τ υ : Type} {G : σ → τ} {F : β → υ}

theorem map_bind_congr {x y : Except ε σ} {f : σ → Except ε β} (hxy : G <$> x = G <$> y)
    (hf : ∀ s s', G s = G s' → F <$> f s = F <$> f s') : F <$> (x >>= f) = F <$> (y >>= f) := by
  cases x with
  | error e => rw [map_eq_error.1 hxy.symm]
  | ok s =>
    obtain ⟨s', rfl, hs⟩ := map_eq_ok.1 hxy.symm
    exact hf s s' hs.symm

/-- Runs stay alike if the steps from states that are alike do. -/
theorem foldlM_map_congr {step : σ → α → Except ε σ}
    (h : ∀ s s' a, G s = G s' → G <$> step s a = G <$> step s' a) (as : List α) {s s' : σ}
    (hs : G s = G s') : G <$> as.foldlM step s = G <$> as.foldlM step s' := by
  induction as generalizing s s' with
  | nil => exact congrArg Except.ok hs
  | cons a as ih =>
    rw [List.foldlM_cons, List.foldlM_cons]
    exact map_bind_congr (h s s' a hs) fun _ _ => ih

end

end ExprCalc
