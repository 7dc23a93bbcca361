/-
Edits: steps that change a state and may fail. An edit that fails keeps
whatever it had changed by then, as a routine that works in place would;
that a failing edit changes nothing is a theorem about the edit, never a
gift of the type.

Chain: tables, snapshots, logs, engines and sessions are all changed by
edits of their own state; `Edit.focus` runs an edit on a part of a state.
-/
import Colonnade.Error

namespace Colonnade

/-- A step that changes a `σ` and gives an `α` or fails. -/
abbrev Edit (σ α : Type) := EStateM Error σ α

namespace Edit

/-- A check that changes nothing. -/
def ofExcept (σ : Type) {α : Type} : Except Error α → Edit σ α
  | .ok a => pure a
  | .error e => throw e

instance (σ : Type) : MonadLift (Except Error) (EStateM Error σ) :=
  ⟨ofExcept σ⟩

/-- Runs an edit on a part of the state and puts the part back, whether the
edit succeeded or not. -/
def focus {σ τ α : Type} (part : σ → τ) (put : τ → σ → σ) (e : Edit τ α) :
    Edit σ α := fun s =>
  match e.run (part s) with
  | .ok a t => .ok a (put t s)
  | .error err t => .error err (put t s)

/-- Runs an edit and hands its outcome on as a value. -/
def attempt {σ α : Type} (e : Edit σ α) : Edit σ (Except Error α) := fun s =>
  match e.run s with
  | .ok a t => .ok (.ok a) t
  | .error err t => .ok (.error err) t

end Edit

end Colonnade
