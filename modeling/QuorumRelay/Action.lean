import QuorumRelay.Fault

/-!
# Steps that change a record

A step works on a record in place.  When it fails, the record keeps whatever the
step had already written: nothing here undoes a write.  Whether a failing step
leaves its record untouched is therefore a statement about the order of its
checks and writes, and it is the ledger, not the step, that discards the work of
a failed instruction.
-/

namespace QuorumRelay

/-- A step over a record of type `σ` with a result of type `α`. -/
abbrev Action (σ α : Type) := EStateM Fault σ α

/-- A check may fail without touching any record. -/
instance {σ : Type} : MonadLift (Except Fault) (EStateM Fault σ) where
  monadLift x s :=
    match x with
    | .ok a => .ok a s
    | .error e => .error e s

/-- Go on if a condition holds, and refuse for the given reason otherwise. -/
def require {m : Type → Type} [Monad m] [MonadExcept Fault m] (p : Prop) [Decidable p]
    (reason : Refusal) : m Unit :=
  if p then pure () else throw (.refused reason)

namespace Action

variable {σ τ α : Type}

/-- Run a step on a part of the record; the part is put back also when the step
fails. -/
def on (part : σ → τ) (putBack : τ → σ → σ) (step : Action τ α) : Action σ α := fun s =>
  match step (part s) with
  | .ok a t => .ok a (putBack t s)
  | .error e t => .error e (putBack t s)

/-- The record after a step, whether it succeeded or not. -/
def after (step : Action σ α) (s : σ) : σ :=
  match step s with
  | .ok _ t => t
  | .error _ t => t

/-- The result of a step. -/
def result (step : Action σ α) (s : σ) : Except Fault α :=
  match step s with
  | .ok a _ => .ok a
  | .error e _ => .error e

end Action

end QuorumRelay
