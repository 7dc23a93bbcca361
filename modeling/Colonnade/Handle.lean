/-
Handles: how callers hold on to tables and objects. A handle owns nothing.
It names a transaction, the generation of that transaction's view at which
it was made, and the keys of what it stands for. Each use checks all of
that again, so a handle never reaches another snapshot than the one it was
made for.

Use of a handle is refused at one of three points. The transaction may be
gone; its view may have moved on or closed, which alone is counted as a
stale use; or the table or object may be gone from the snapshot.

Chain: `Handle.Table` and `Handle.Object` are the operations, and
`Engine.Lookup` makes handles.
-/
import Colonnade.Engine

namespace Colonnade

-- ========================================================= anchors

/-- What a handle is tied to: a transaction and a generation of its
view. -/
structure Anchor where
  transaction : TransactionId
  generation : UInt64
deriving DecidableEq, Repr, Inhabited

/-- A handle to a table. -/
structure TableHandle where
  anchor : Anchor
  key : TableKey
deriving DecidableEq, Repr, Inhabited

/-- A handle to an object. -/
structure ObjectHandle where
  anchor : Anchor
  table : TableKey
  key : ObjectKey
deriving DecidableEq, Repr, Inhabited

namespace Anchor

/-- Whether the anchor holds and its snapshot passes a test; asking is not
a use and is never counted. -/
def check (a : Anchor) (test : Snapshot → Bool) (e : Engine) : Bool :=
  match e.transaction? a.transaction with
  | none => false
  | some t => t.view.admits a.generation && test t.view.snapshot

/-- Counts a use that came too late, and refuses it. -/
def refuse {α : Type} (stale : Error) : Edit Engine α := do
  Engine.count fun s => { s with staleHandleUses := s.staleHandleUses + 1 }
  throw stale

/-- Reads from the snapshot of the anchor. -/
def read {α : Type} (a : Anchor) (stale : Error)
    (f : Snapshot → Except Error α) : Edit Engine α := do
  match (← get).transaction? a.transaction with
  | none => throw stale
  | some t =>
    match t.view.read a.generation f with
    | none => refuse stale
    | some result => result

/-- Writes to the snapshot of the anchor: builds an instruction, carries it
out and records it. -/
def write (a : Anchor) (stale : Error)
    (build : Snapshot → Except Error Instruction) :
    Edit Engine Instruction := do
  let e ← get
  match e.transaction? a.transaction with
  | none => throw stale
  | some t =>
    let (result, view) := t.view.write e.limits a.generation build
    Engine.put a.transaction { t with view }
    match result with
    | none => refuse stale
    | some result => result

end Anchor

end Colonnade
