/-
The database as its users think of it: maps from keys to tables, from object
keys to rows, and from column keys to what a row holds there. There are no
slots, and nothing is stored twice.

`Allowed` and `perform` say what each instruction asks for and what it does,
in these terms alone: whether a table, a column or an object is there, what
a row holds, whether a value fits. Keys are taken from word counters, as
they are below.

Chain: `Snapshot.Refinement` shows that snapshots behave like this.
-/
import Colonnade.Proofs.Table
import Colonnade.Snapshot

namespace Colonnade.Logical

/-- A row: what it holds in each column. -/
abbrev Row := ColumnKey → Option CellContent

/-- A table: its columns in order of creation, the next keys, and the rows
by object key. -/
@[ext]
structure Table where
  name : String
  columns : List (ColumnKey × ColumnSpec) := []
  nextColumn : UInt32 := 1
  nextObject : ObjectKey := ⟨0⟩
  rows : ObjectKey → Option Row := fun _ => none

/-- The tables by key, and the next table key. -/
@[ext]
structure Database where
  tables : TableKey → Option Table
  nextTable : TableKey

/-- A map with another entry at one key. -/
def update {α β : Type} [DecidableEq α] (m : α → Option β) (k : α)
    (v : Option β) : α → Option β :=
  fun a => if a = k then v else m a

theorem update_self {α β : Type} [DecidableEq α] {m : α → Option β} {k : α}
    {v : Option β} (h : m k = v) : update m k v = m := by
  funext a
  unfold update
  split
  next ha => rw [ha, h]
  next => rfl

-- ======================================================== fresh cells

/-- What a cell that must not be absent holds before it is written: nought,
falsehood, an empty text or no bytes, the epoch. A link has no such
content. -/
def nought : ColumnType → Value
  | .int => .int 0
  | .bool => .bool false
  | .string => .string ""
  | .binary => .binary []
  | .timestamp => .timestamp ⟨0, 0, Timestamp.epoch.partsAgree⟩
  | .float => .float ⟨0⟩
  | .double => .double ⟨0⟩
  | .link | .linkList => .null

/-- What a new cell holds: an empty list, absence where the declaration
allows it, and otherwise the nought of its type. -/
def fresh (spec : ColumnSpec) : CellContent :=
  match spec.isList, spec.nullable with
  | true, _ => .list []
  | false, true => .value .null
  | false, false => .value (nought spec.type)

/-- A cell that a column adds is fresh. -/
theorem freshContent_eq_fresh (spec : ColumnSpec) :
    Column.freshContent spec = fresh spec := by
  unfold Column.freshContent Column.freshValue fresh
  cases spec.isList with
  | true => rfl
  | false =>
      cases spec.nullable with
      | true => rfl
      | false => cases spec.type <;> rfl

-- =========================================================== tables

namespace Table

/-- The declaration of the column with a key. -/
def spec? (t : Table) (col : ColumnKey) : Option ColumnSpec :=
  t.columns.lookup col

/-- What an object holds in a column. -/
def cell? (t : Table) (key : ObjectKey) (col : ColumnKey) :
    Option CellContent :=
  t.rows key >>= (· col)

/-- The column key that a counter stands for in a table. -/
def columnKey (table : TableKey) (counter : UInt32) : ColumnKey :=
  ⟨Int64.ofNat (table.raw.toNat * 0x100000000 + counter.toNat)⟩

/-- A new column is fresh in every row. -/
def addColumn (t : Table) (col : ColumnKey) (spec : ColumnSpec) : Table :=
  { t with
    columns := t.columns ++ [(col, spec)]
    nextColumn := t.nextColumn + 1
    rows := fun key => (t.rows key).map fun row =>
      update row col (some (fresh spec)) }

def removeColumn (t : Table) (col : ColumnKey) : Table :=
  { t with
    columns := t.columns.filter (·.1 != col)
    rows := fun key => (t.rows key).map fun row => update row col none }

/-- A new row is fresh in every column. -/
def createObject (t : Table) (key : ObjectKey) : Table :=
  { t with
    nextObject := ⟨t.nextObject.raw + 1⟩
    rows := update t.rows key
      (some fun col => (t.spec? col).map fresh) }

def removeObject (t : Table) (key : ObjectKey) : Table :=
  { t with rows := update t.rows key none }

/-- Whether a column links into a table. -/
def links (t : Table) (col : ColumnKey) (target : TableKey) : Bool :=
  (t.spec? col).any (·.target == some target)

/-- The table without the links to an object. -/
def forget (t : Table) (target : TableKey) (key : ObjectKey) : Table :=
  { t with
    rows := fun a => (t.rows a).map fun row col =>
      if t.links col target then (row col).map (Column.forget key)
      else row col }

/-- The table with other content in one cell. -/
def write (t : Table) (key : ObjectKey) (col : ColumnKey)
    (x : CellContent) : Table :=
  { t with
    rows := fun a =>
      if a = key then (t.rows a).map fun row => update row col (some x)
      else t.rows a }

/-- The table with a list changed in one cell. -/
def edit (t : Table) (key : ObjectKey) (col : ColumnKey)
    (f : List Value → List Value) : Table :=
  match t.cell? key col with
  | some (.list vs) => t.write key col (.list (f vs))
  | _ => t

end Table

-- ========================================================= databases

namespace Database

/-- Changes one table. -/
def onTable (d : Database) (table : TableKey) (f : Table → Table) :
    Database :=
  { d with tables := fun k =>
      if k = table then (d.tables k).map f else d.tables k }

/-- Whether an object lives in a table. -/
def Live (d : Database) (table : TableKey) (key : ObjectKey) : Prop :=
  ∃ t row, d.tables table = some t ∧ t.rows key = some row

/-- Whether a value that is a link names a live object of the target. -/
def LinkLive (d : Database) (spec : ColumnSpec) (v : Value) : Prop :=
  ∀ key, v = .link key → ∃ u, spec.target = some u ∧ d.Live u key

/-- Whether an object of a table has a cell in a column, and how the column
is declared. -/
structure HasCell (d : Database) (table : TableKey) (key : ObjectKey)
    (col : ColumnKey) (t : Table) (spec : ColumnSpec) : Prop where
  table_eq : d.tables table = some t
  spec_eq : t.spec? col = some spec
  row : ∃ row, t.rows key = some row

/-- Whether a value may become an element of a list. -/
structure TakesElement (d : Database) (limits : Limits) (spec : ColumnSpec)
    (v : Value) : Prop where
  isList : spec.isList = true
  present : ¬ (v = .null ∧ spec.type = .linkList)
  accepts : spec.Accepts limits v
  link : d.LinkLive spec v

/-- What an instruction asks for. -/
def Allowed (d : Database) (limits : Limits) : Instruction → Prop
  | .addTable key name =>
    key = d.nextTable ∧ name ≠ "" ∧
      ∀ k t, d.tables k = some t → t.name ≠ name
  | .removeTable key =>
    (∃ t, d.tables key = some t) ∧
      ∀ k t, d.tables k = some t → k ≠ key →
        ∀ c ∈ t.columns, c.2.target ≠ some key
  | .addColumn table col spec =>
    ∃ t, d.tables table = some t ∧ col = Table.columnKey table t.nextColumn
      ∧ spec.Valid ∧ (∀ c ∈ t.columns, c.2.name ≠ spec.name)
      ∧ ∀ u, spec.target = some u → ∃ t, d.tables u = some t
  | .removeColumn table col =>
    ∃ t spec, d.tables table = some t ∧ t.spec? col = some spec
  | .createObject table key =>
    ∃ t, d.tables table = some t ∧ key = t.nextObject
  | .removeObject table key => d.Live table key
  | .set table key col v =>
    ∃ t spec, d.HasCell table key col t spec ∧ spec.isList = false
      ∧ spec.Accepts limits v ∧ d.LinkLive spec v
  | .listInsert table key col index v =>
    ∃ t spec vs, d.HasCell table key col t spec
      ∧ d.TakesElement limits spec v
      ∧ t.cell? key col = some (.list vs) ∧ index.toNat ≤ vs.length
  | .listSet table key col index v =>
    ∃ t spec vs, d.HasCell table key col t spec
      ∧ d.TakesElement limits spec v
      ∧ t.cell? key col = some (.list vs) ∧ index.toNat < vs.length
  | .listRemove table key col index =>
    ∃ t spec vs, d.HasCell table key col t spec ∧ spec.isList = true
      ∧ t.cell? key col = some (.list vs) ∧ index.toNat < vs.length
  | .listClear table key col =>
    ∃ t spec, d.HasCell table key col t spec ∧ spec.isList = true

/-- What an instruction does where it is allowed. -/
def perform (d : Database) : Instruction → Database
  | .addTable key name =>
    { tables := update d.tables key (some { name })
      nextTable := ⟨d.nextTable.raw + 1⟩ }
  | .removeTable key => { d with tables := update d.tables key none }
  | .addColumn table col spec => d.onTable table (·.addColumn col spec)
  | .removeColumn table col => d.onTable table (·.removeColumn col)
  | .createObject table key => d.onTable table (·.createObject key)
  | .removeObject table key =>
    let d := d.onTable table (·.removeObject key)
    { d with tables := fun k => (d.tables k).map (·.forget table key) }
  | .set table key col v => d.onTable table (·.write key col (.value v))
  | .listInsert table key col index v =>
    d.onTable table (·.edit key col (·.insertIdx index.toNat v))
  | .listSet table key col index v =>
    d.onTable table (·.edit key col (·.set index.toNat v))
  | .listRemove table key col index =>
    d.onTable table (·.edit key col (·.eraseIdx index.toNat))
  | .listClear table key col =>
    d.onTable table (·.edit key col fun _ => [])

end Database

end Colonnade.Logical
