/-
A snapshot: the whole collection of tables at one version, the index from
table names to table keys, and the next table key. Committed snapshots are
values and never change; a transaction works on its own copy.

`Snapshot.applyWithin` is the only way a snapshot changes, and the program
applies with room for everything. It serves live writes and replay alike.
Each instruction is checked in full before anything is changed: the tables,
columns and objects it names, the value against the column, and the object
that a link points to. Room alone is asked for on the way.

Removing an object takes every link to it out of every table, and a table
that is the target of another table's links cannot be removed. That is how
no link is ever left pointing at nothing.

Chain: `View` applies instructions to a transaction's copy, recovery applies
those of the log, and an engine publishes snapshots as versions.
-/
import Colonnade.Instruction
import Colonnade.Table

namespace Colonnade

/-- The collection of tables at one version. -/
structure Snapshot where
  version : Version := .initial
  tables : Std.TreeMap TableKey Table := ∅
  names : Std.TreeMap String TableKey := ∅
  nextTable : TableKey := ⟨0⟩

namespace Snapshot

/-- The empty database. -/
def empty : Snapshot := {}

instance : Inhabited Snapshot := ⟨empty⟩

-- ======================================================= reading

/-- The table with a key. -/
def table? (s : Snapshot) (key : TableKey) : Option Table := s.tables[key]?

/-- The table with a name. -/
def tableNamed? (s : Snapshot) (name : String) : Option Table :=
  s.names[name]? >>= s.table?

/-- The table with a key, or the reason that there is none. -/
def requireTable (s : Snapshot) (key : TableKey) : Except Error Table :=
  match s.table? key with
  | some t => .ok t
  | none => .error (.illegalArgument (.unknownTable key))

/-- The names of the tables in their order. -/
def tableNames (s : Snapshot) : List String := s.names.keys

/-- The tables in the order of their keys. -/
def tableList (s : Snapshot) : List Table := s.tables.values

/-- How many tables there are. -/
def tableCount (s : Snapshot) : Nat := s.tables.size

/-- Whether an object lives in a table. -/
def hasObject (s : Snapshot) (table : TableKey) (key : ObjectKey) : Bool :=
  (s.table? table).any (·.contains key)

-- ================================================ running on one table

/-- Runs an edit on one table. -/
def onTable {α : Type} (key : TableKey) (e : Edit Table α) :
    Edit Snapshot α := do
  let s ← get
  let t ← s.requireTable key
  Edit.focus (fun _ => t)
    (fun t s => { s with tables := s.tables.insert key t }) e

-- =================================================== the instructions

/-- Whether a value that is a link points to a live object of the table that
its column links into; other values link to nothing. -/
def checkLink (s : Snapshot) (t : Table) (col : ColumnKey) (v : Value) :
    Except Error Unit :=
  match v with
  | .link key => do
    let c ← t.requireColumn col
    match c.spec.target >>= s.table? with
    | none => throw (.illegalArgument (.linkTargetGone c.spec.name))
    | some target =>
      if !target.contains key then
        throw (.illegalArgument (.linkToNothing key target.name))
  | _ => pure ()

/-- Adds a table under the next table key. -/
def addTable (key : TableKey) (name : String) : Edit Snapshot Unit := do
  let s ← get
  if name.isEmpty then
    throw (.illegalArgument .emptyTableName)
  if s.names.contains name then
    throw (.illegalArgument (.tableExists name))
  if key ≠ s.nextTable then
    throw (.fatal (.tableKeyMismatch key s.nextTable))
  set { s with
    tables := s.tables.insert key { key, name }
    names := s.names.insert name key
    nextTable := ⟨s.nextTable.raw + 1⟩ }

/-- Removes a table that no other table links into. -/
def removeTable (key : TableKey) : Edit Snapshot Unit := do
  let s ← get
  let t ← s.requireTable key
  match s.tableList.find? fun u => u.key != key && u.linksInto key with
  | some source =>
    throw (.illegalArgument (.tableIsLinked t.name source.name))
  | none =>
    set { s with
      tables := s.tables.erase key
      names := s.names.erase t.name }

/-- Adds a column whose links, if any, have a table to point into. -/
def addColumn (room : Room) (table : TableKey) (col : ColumnKey)
    (spec : ColumnSpec) : Edit Snapshot Unit := do
  let s ← get
  if let some target := spec.target then
    if (s.table? target).isNone then
      throw (.illegalArgument (.noLinkTarget target spec.name))
  let t ← s.requireTable table
  t.checkNewColumn spec
  onTable table (Table.insertColumn room col spec)

/-- Removes an object and every link to it. -/
def removeObject (table : TableKey) (key : ObjectKey) :
    Edit Snapshot Unit := do
  let s ← get
  let t ← s.requireTable table
  if !t.contains key then
    throw (.illegalArgument (.unknownObject key t.name))
  onTable table (Table.removeObject key)
  modify fun s =>
    { s with tables := s.tables.map fun _ u => u.unlink table key }

/-- Writes a value to a cell. -/
def setValue (limits : Limits) (table : TableKey) (key : ObjectKey)
    (col : ColumnKey) (v : Value) : Edit Snapshot Unit := do
  let s ← get
  let t ← s.requireTable table
  t.checkSet limits key col v
  s.checkLink t col v
  onTable table (Table.setValue limits key col v)

/-- Writes a value into a list by one of the two ways to do so. -/
def writeElement (limits : Limits) (table : TableKey) (key : ObjectKey)
    (col : ColumnKey) (v : Value) (write : Edit Table Unit) :
    Edit Snapshot Unit := do
  let s ← get
  let t ← s.requireTable table
  t.checkElement limits key col v
  s.checkLink t col v
  onTable table write

/-- Takes elements out of a list that is there. -/
def shrinkList (table : TableKey) (key : ObjectKey) (col : ColumnKey)
    (shrink : Edit Table Unit) : Edit Snapshot Unit := do
  let s ← get
  let t ← s.requireTable table
  let _ ← t.listOf key col
  onTable table shrink

/-- Carries out one instruction within the room there is, values measured
against the limits. -/
def applyWithin (room : Room) (limits : Limits) :
    Instruction → Edit Snapshot Unit
  | .addTable key name => addTable key name
  | .removeTable key => removeTable key
  | .addColumn table col spec => addColumn room table col spec
  | .removeColumn table col => do
    let t ← (← get).requireTable table
    let _ ← t.requireColumn col
    onTable table (Table.removeColumn col)
  | .createObject table key => do
    let _ ← (← get).requireTable table
    onTable table (Table.insertObject room key)
  | .removeObject table key => removeObject table key
  | .set table key col v => setValue limits table key col v
  | .listInsert table key col index v =>
    writeElement limits table key col v
      (Table.listInsert room limits key col index.toNat v)
  | .listSet table key col index v =>
    writeElement limits table key col v
      (Table.listSet limits key col index.toNat v)
  | .listRemove table key col index =>
    shrinkList table key col (Table.listRemove key col index.toNat)
  | .listClear table key col =>
    shrinkList table key col (Table.listClear key col)

/-- Carries out one instruction, with room for everything. -/
def apply (limits : Limits) : Instruction → Edit Snapshot Unit :=
  applyWithin .ample limits

/-- Carries out instructions in order, up to the first that fails. -/
def applyAll (limits : Limits) (is : List Instruction) :
    Edit Snapshot Unit :=
  is.forM (apply limits)

end Snapshot

end Colonnade
