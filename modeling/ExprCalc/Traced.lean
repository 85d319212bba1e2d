import ExprCalc.Log

/-!
# Computations that leave a trace

`Traced ε α` is a computation that ends with a value or an error and leaves log records in either
case. Records only accumulate: they cannot influence the outcome.
-/

namespace ExprCalc

structure Traced (ε α : Type) where
  outcome : Except ε α
  records : List Record

namespace Traced

variable {ε α β : Type}

/-- Records that come with an outcome, written only if that is a value. -/
def ofOutcome (outcome : Except ε α) (records : α → List Record) : Traced ε α :=
  ⟨outcome, match outcome with
    | .ok a => records a
    | .error _ => []⟩

protected def bind (x : Traced ε α) (f : α → Traced ε β) : Traced ε β :=
  match x.outcome with
  | .error e => ⟨.error e, x.records⟩
  | .ok a => ⟨(f a).outcome, x.records ++ (f a).records⟩

instance : Monad (Traced ε) where
  pure a := ⟨.ok a, []⟩
  bind := Traced.bind

@[simp] theorem outcome_pure (a : α) : (pure a : Traced ε α).outcome = .ok a := rfl

@[simp] theorem records_pure (a : α) : (pure a : Traced ε α).records = [] := rfl

@[simp] theorem outcome_ofOutcome (outcome : Except ε α) (records : α → List Record) :
    (ofOutcome outcome records).outcome = outcome := rfl

@[simp] theorem outcome_bind (x : Traced ε α) (f : α → Traced ε β) :
    (x >>= f).outcome = x.outcome >>= fun a => (f a).outcome := by
  show (Traced.bind x f).outcome = _
  unfold Traced.bind
  cases x.outcome <;> rfl

end Traced

end ExprCalc
