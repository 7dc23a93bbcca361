/-
What a transaction finds by name or key, and what a write transaction does
to whole tables. Lookups go by the snapshot of the transaction's view,
whether or not the transaction has ended; what they find comes back as a
handle of the view's present generation.

Importing takes a handle from any transaction and looks for the same keys
here.

Chain: above `Engine` and `Handle`; the session and the host call these.
-/
import Colonnade.Handle

namespace Colonnade.Engine

/-- The anchor that handles made now are tied to. -/
def anchor (e : Engine) (id : TransactionId) : Except Error Anchor := do
  let t ← e.requireTransaction id
  return ⟨id, t.view.generation⟩

/-- The snapshot that a transaction sees. -/
def snapshotOf (e : Engine) (id : TransactionId) : Except Error Snapshot := do
  return (← e.requireTransaction id).view.snapshot

/-- The version that a transaction pins. -/
def versionOf (e : Engine) (id : TransactionId) : Except Error Version := do
  return (← e.requireTransaction id).pinned

/-- How many changes a transaction has recorded. -/
def pendingOf (e : Engine) (id : TransactionId) : Except Error Nat := do
  return (← e.requireTransaction id).view.changes.size

-- ======================================================= lookups

/-- The table with a name. -/
def table? (e : Engine) (id : TransactionId) (name : String) :
    Except Error (Option TableHandle) := do
  let s ← e.snapshotOf id
  let a ← e.anchor id
  return (s.tableNamed? name).map fun t => ⟨a, t.key⟩

/-- The table with a name, which must exist. -/
def requireTable (e : Engine) (id : TransactionId) (name : String) :
    Except Error TableHandle := do
  match ← e.table? id name with
  | some h => return h
  | none => throw (.classNotFound name)

/-- The table with a key. -/
def tableByKey? (e : Engine) (id : TransactionId) (key : TableKey) :
    Except Error (Option TableHandle) := do
  let s ← e.snapshotOf id
  let a ← e.anchor id
  return (s.table? key).map fun _ => ⟨a, key⟩

/-- Whether there is a table with a name. -/
def hasTable (e : Engine) (id : TransactionId) (name : String) :
    Except Error Bool := do
  return ((← e.snapshotOf id).tableNamed? name).isSome

/-- The names of the tables in their order. -/
def tableNames (e : Engine) (id : TransactionId) :
    Except Error (List String) := do
  return (← e.snapshotOf id).tableNames

/-- The table that a handle names, as this transaction sees it. -/
def importTable? (e : Engine) (id : TransactionId) (h : TableHandle) :
    Except Error (Option TableHandle) :=
  e.tableByKey? id h.key

/-- The object that a handle names, as this transaction sees it. -/
def importObject? (e : Engine) (id : TransactionId) (h : ObjectHandle) :
    Except Error (Option ObjectHandle) := do
  let s ← e.snapshotOf id
  let a ← e.anchor id
  return if s.hasObject h.table h.key then some ⟨a, h.table, h.key⟩ else none

-- ============================================== writing whole tables

/-- Writes through the view of a transaction at its present generation. -/
def writeView (id : TransactionId)
    (build : Snapshot → Except Error Instruction) :
    Edit Engine Instruction := do
  let e ← get
  let t ← e.requireTransaction id
  let (result, view) := t.view.write e.limits t.view.generation build
  put id { t with view }
  match result with
  | none => throw .tableDetached
  | some result => result

/-- Adds a table. -/
def addTable (id : TransactionId) (name : String) :
    Edit Engine TableHandle := do
  let _ ← (← get).requireActive id
  match ← writeView id fun s => return .addTable s.nextTable name with
  | .addTable key _ => return ⟨← (← get).anchor id, key⟩
  | _ => throw (.fatal (.otherInstruction "add_table"))

/-- The table with a name, added if it does not exist. -/
def getOrAddTable (id : TransactionId) (name : String) :
    Edit Engine TableHandle := do
  match ← (← get).table? id name with
  | some h => return h
  | none => addTable id name

/-- Removes a table. -/
def removeTable (id : TransactionId) (name : String) :
    Edit Engine Unit := do
  let _ ← (← get).requireActive id
  let h ← (← get).requireTable id name
  let _ ← writeView id fun _ => return .removeTable h.key

end Colonnade.Engine
