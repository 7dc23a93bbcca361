/-
Trials of the engine against a plain model of one table. The same changes,
in the same batches, are made to a table of the engine and to a list of
rows; after each batch the two must hold the same rows under the same keys.

A change names its row by a number that is taken modulo the count of rows,
so every number names a row while there is one.

Chain: `RowModel` is the plain side, `RowTable` the side of the engine.
-/
import Colonnade.Engine.Lookup
import Colonnade.Handle.Object

namespace Colonnade.Trial

/-- A row: a number, and a text that may be absent. -/
structure Row where
  number : Int64 := 0
  text : Option String := none
deriving DecidableEq

instance : Inhabited Row := ⟨{}⟩

/-- One change to the rows. -/
inductive RowChange where
  | create
  | remove (selector : Nat)
  | setNumber (selector : Nat) (number : Int64)
  | setText (selector : Nat) (text : Option String)
deriving DecidableEq

/-- Changes that are made together, or made and taken back. -/
structure Batch where
  changes : List RowChange
  commits : Bool
deriving DecidableEq

/-- The entry of a list that a selector names. -/
def select? {α : Type} (xs : List α) (selector : Nat) : Option α :=
  xs[selector % xs.length]?

-- ==================================================== the plain model

/-- Rows by ascending key, and the key of the next one. -/
structure RowModel where
  rows : List (ObjectKey × Row) := []
  nextKey : ObjectKey := ⟨0⟩
deriving DecidableEq

namespace RowModel

instance : Inhabited RowModel := ⟨{}⟩

/-- The key of the row that a selector names. -/
def selectKey? (m : RowModel) (selector : Nat) : Option ObjectKey :=
  (select? m.rows selector).map (·.1)

/-- The model with one row changed. -/
def edit (m : RowModel) (selector : Nat) (f : Row → Row) : RowModel :=
  match m.selectKey? selector with
  | none => m
  | some key =>
    { m with
      rows := m.rows.map fun (k, r) => (k, if k = key then f r else r) }

/-- The model after a change. -/
def apply (m : RowModel) : RowChange → RowModel
  | .create => ⟨m.rows ++ [(m.nextKey, {})], ⟨m.nextKey.raw + 1⟩⟩
  | .remove selector =>
    match m.selectKey? selector with
    | none => m
    | some key => { m with rows := m.rows.filter (·.1 ≠ key) }
  | .setNumber selector number => m.edit selector ({ · with number })
  | .setText selector text => m.edit selector ({ · with text })

/-- The model after a batch; one that is taken back leaves nothing. -/
def applyBatch (m : RowModel) (b : Batch) : RowModel :=
  if b.commits then b.changes.foldl apply m else m

end RowModel

-- ================================================ the engine's table

/-- The columns of the table under trial. -/
structure RowTable where
  number : ColumnKey
  text : ColumnKey
deriving DecidableEq, Inhabited

namespace RowTable

/-- The name of the table. -/
def tableName : String := "model"

/-- Adds the table, in a commit of its own. -/
def create : Edit Engine RowTable :=
  Engine.write fun id => do
    let t ← Engine.addTable id tableName
    let number ← t.addColumn (.scalar "n" .int false)
    let text ← t.addColumn (.scalar "s" .string true)
    return ⟨number, text⟩

/-- A text as a value. -/
def textValue : Option String → Value
  | some s => .string s
  | none => .null

/-- Does something to the object that a selector names. -/
def onSelected (t : TableHandle) (selector : Nat)
    (f : ObjectKey → Edit Engine Unit) : Edit Engine Unit := do
  match select? (← t.objectKeys) selector with
  | some key => f key
  | none => return

/-- Makes a change within a transaction. -/
def apply (c : RowTable) (id : TransactionId) (change : RowChange) :
    Edit Engine Unit := do
  let t ← (← get).requireTable id tableName
  match change with
  | .create => let _ ← t.createObject
  | .remove selector => onSelected t selector t.removeObject
  | .setNumber selector number =>
    onSelected t selector fun key => do
      (← t.object key).set c.number (.int number)
  | .setText selector text =>
    onSelected t selector fun key => do
      (← t.object key).set c.text (textValue text)

/-- Makes a batch of changes in one transaction and commits it or rolls it
back. -/
def applyBatch (c : RowTable) (b : Batch) : Edit Engine Unit :=
  Engine.write fun id => do
    b.changes.forM (c.apply id)
    if b.commits then
      let _ ← Engine.commit id
    else
      Engine.rollback id

/-- The row of an object. -/
def readRow (c : RowTable) (t : TableHandle) (key : ObjectKey) :
    Edit Engine (ObjectKey × Row) := do
  let o ← t.object key
  let number ← o.getTyped c.number .int
  let text ← o.getTyped c.text .string
  return (key, ⟨number.int?.getD 0, text.string?⟩)

/-- The rows that a transaction sees. -/
def read (c : RowTable) (id : TransactionId) :
    Edit Engine (List (ObjectKey × Row)) := do
  let t ← (← get).requireTable id tableName
  (← t.objectKeys).mapM (c.readRow t)

-- ========================================================= the trial

/-- What the engine's table holds after a batch, and whether the model
agrees. -/
structure BatchResult where
  version : Version
  found : List (ObjectKey × Row)
  agrees : Bool
deriving DecidableEq

/-- Makes batches on both sides and compares after each. -/
def compare (c : RowTable) : RowModel → List Batch → Edit Engine (List BatchResult)
  | _, [] => return []
  | m, b :: rest => do
    c.applyBatch b
    let m := m.applyBatch b
    let found ← Engine.read c.read
    let version := (← get).version
    return ⟨version, found, found == m.rows⟩ :: (← c.compare m rest)

/-- The whole trial on a new table. -/
def trial (batches : List Batch) : Edit Engine (List BatchResult) := do
  (← create).compare {} batches

end RowTable

end Colonnade.Trial
