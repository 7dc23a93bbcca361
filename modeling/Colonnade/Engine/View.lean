/-
What a transaction looks at, and where its handles attach. A view holds a
snapshot and a generation. A handle remembers the generation at which it
was made and works only while that is the view's; moving the view to
another snapshot on behalf of the transaction, or closing it, starts a new
generation and so invalidates every handle at once.

In a writing view the snapshot is the transaction's own copy. Each write
changes the copy and appends the one instruction that did it to the list of
changes.

Chain: each transaction of an `Engine` has one view. Each operation here is
one indivisible step.
-/
import Colonnade.Snapshot

namespace Colonnade

/-- What a view may be used for. -/
inductive ViewMode where
  | reading
  | writing
  | closed
deriving DecidableEq, Repr, Inhabited

/-- A snapshot under a generation, and what was changed in it. -/
structure View where
  generation : UInt64 := 0
  mode : ViewMode
  snapshot : Snapshot
  changes : Array Instruction := #[]

namespace View

instance : Inhabited View := ⟨{ mode := .reading, snapshot := .empty }⟩

/-- Whether a handle of a generation may use the view. -/
def admits (v : View) (generation : UInt64) : Bool :=
  v.mode != .closed && v.generation == generation

/-- Reads for a handle of a generation; nothing if that is over. -/
def read {α : Type} (v : View) (generation : UInt64)
    (f : Snapshot → Except Error α) : Option (Except Error α) :=
  if v.admits generation then some (f v.snapshot) else none

/-- Builds an instruction, carries it out within the room there is and
records it. -/
def record (room : Room) (limits : Limits)
    (build : Snapshot → Except Error Instruction) : Edit View Instruction := do
  let i ← build (← get).snapshot
  Edit.focus View.snapshot (fun snapshot v => { v with snapshot })
    (Snapshot.applyWithin room limits i)
  modify fun v => { v with changes := v.changes.push i }
  return i

/-- Writes for a handle of a generation within the room there is; nothing if
the generation is over, and an error if the view is not for writing. -/
def writeWithin (room : Room) (limits : Limits) (generation : UInt64)
    (build : Snapshot → Except Error Instruction) (v : View) :
    Option (Except Error Instruction) × View :=
  if v.admits generation then
    if v.mode ≠ .writing then
      (some (.error (.illegalState .notWriting)), v)
    else
      match (record room limits build).run v with
      | .ok i v => (some (.ok i), v)
      | .error e v => (some (.error e), v)
  else (none, v)

/-- Writes for a handle of a generation, with room for everything. -/
def write (limits : Limits) (generation : UInt64)
    (build : Snapshot → Except Error Instruction) (v : View) :
    Option (Except Error Instruction) × View :=
  v.writeWithin .ample limits generation build

/-- Takes the recorded changes out. -/
def takeChanges (v : View) : List Instruction × View :=
  (v.changes.toList, { v with changes := #[] })

/-- Shows another snapshot, to the same handles or to none of them. -/
def replace (snapshot : Snapshot) (mode : ViewMode) (invalidate : Bool)
    (v : View) : View :=
  { v with
    snapshot, mode
    generation := if invalidate then v.generation + 1 else v.generation }

/-- Ends the view; the snapshot stays to be looked at by the transaction
itself. -/
def close (v : View) : View :=
  { v with
    mode := .closed
    generation :=
      if v.mode = .closed then v.generation else v.generation + 1
    changes := #[] }

end View

end Colonnade
