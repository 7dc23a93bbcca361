/-
A table: its columns in order of creation, its rows, and the counters from
which new column and object keys are taken. Keys are never taken twice, so
a removed column or object does not come back under its old key.

A column key carries the key of its table in its upper half, which keeps
the column keys of different tables apart.

Reads give the first reason why they fail: the column before the row, since
a caller who names a wrong column is wrong for every row.

Objects, columns and list elements need room. An object needs it in the row
index and then in each column, and takes its cells one column after the
other: where a column gets none, those in front of it have a cell too many.

Chain: `Snapshot` holds tables by key and sends instructions to them.
-/
import Colonnade.Column
import Colonnade.Table.Rows

namespace Colonnade

/-- A table: columns, rows, and the next keys. -/
structure Table where
  key : TableKey
  name : String
  columns : List Column := []
  nextColumn : UInt32 := 1
  rows : Rows := {}
  nextObject : ObjectKey := ⟨0⟩

namespace Table

instance : Inhabited Table := ⟨{ key := default, name := default }⟩

-- ======================================================= reading

/-- How many objects the table holds. -/
def size (t : Table) : Nat := t.rows.size

/-- Whether the table holds no objects. -/
def isEmpty (t : Table) : Bool := t.size == 0

/-- Whether an object lives in the table. -/
def contains (t : Table) (key : ObjectKey) : Bool := t.rows.contains key

/-- The keys of the objects, ascending. -/
def objectKeys (t : Table) : List ObjectKey := t.rows.sortedKeys

/-- The column with a key. -/
def column? (t : Table) (col : ColumnKey) : Option Column :=
  t.columns.find? (·.key == col)

/-- The key of the column with a name. -/
def columnKey? (t : Table) (name : String) : Option ColumnKey :=
  (t.columns.find? (·.spec.name == name)).map (·.key)

/-- The column with a key, or the reason that there is none. -/
def requireColumn (t : Table) (col : ColumnKey) : Except Error Column :=
  match t.column? col with
  | some c => .ok c
  | none => .error (.illegalArgument (.unknownColumn col t.name))

/-- The slot of an object, or the reason that there is none. -/
def requireSlot (t : Table) (key : ObjectKey) : Except Error Nat :=
  match t.rows.slot? key with
  | some slot => .ok slot
  | none => .error (.illegalArgument (.unknownObject key t.name))

/-- Whether some column links into a table. -/
def linksInto (t : Table) (target : TableKey) : Bool :=
  t.columns.any (·.spec.target == some target)

/-- The key that the next column gets: the table's key above the column
counter. -/
def nextColumnKey (t : Table) : ColumnKey :=
  ⟨Int64.ofNat (t.key.raw.toNat * 0x100000000 + t.nextColumn.toNat)⟩

/-- The value of an object in a column. -/
def valueOf (t : Table) (key : ObjectKey) (col : ColumnKey) :
    Except Error Value := do
  let c ← t.requireColumn col
  if c.spec.isList then
    throw (.illegalArgument (.readWholeList c.spec.name))
  return c.valueAt (← t.requireSlot key)

/-- The list of an object in a column. -/
def listOf (t : Table) (key : ObjectKey) (col : ColumnKey) :
    Except Error (List Value) := do
  let c ← t.requireColumn col
  let slot ← t.requireSlot key
  match c.listAt? slot with
  | some vs => return vs
  | none => throw (.illegalArgument (.notAList c.spec.name))

/-- What the cells of an object hold, in the order of the columns; nothing
for an object that is not there. -/
def rowOf (t : Table) (key : ObjectKey) : List CellContent :=
  match t.rows.slot? key with
  | some slot => t.columns.map (·.contentAt slot)
  | none => []

/-- The least of some keys. -/
def leastKey : List ObjectKey → Option ObjectKey
  | [] => none
  | k :: ks =>
    match leastKey ks with
    | none => some k
    | some m => if k.le m then some k else some m

/-- The first object, by key, whose value in a column equals a given one. -/
def findFirst (t : Table) (col : ColumnKey) (v : Value) :
    Except Error (Option ObjectKey) := do
  let c ← t.requireColumn col
  if c.spec.isList then
    throw (.unsupported
      s!"find_first is not supported on list column '{c.spec.name}'.")
  return leastKey ((c.matchingSlots v).filterMap (t.rows.keys[·]?))

-- ============================================== what may be changed

/-- Whether a declaration can become a column of the table. -/
def checkNewColumn (t : Table) (spec : ColumnSpec) : Except Error Unit := do
  spec.check
  if (t.columnKey? spec.name).isSome then
    throw (.illegalArgument (.columnExists spec.name t.name))

/-- Whether a value may be written to a cell. -/
def checkSet (t : Table) (limits : Limits) (key : ObjectKey)
    (col : ColumnKey) (v : Value) : Except Error Unit := do
  let c ← t.requireColumn col
  let _ ← t.requireSlot key
  c.checkValue limits v

/-- Whether a value may become an element of a list. -/
def checkElement (t : Table) (limits : Limits) (key : ObjectKey)
    (col : ColumnKey) (v : Value) : Except Error Unit := do
  let c ← t.requireColumn col
  let _ ← t.requireSlot key
  c.checkElement limits v

-- ================================================ columns and rows

/-- Adds a column under the next column key. -/
def insertColumn (room : Room) (col : ColumnKey) (spec : ColumnSpec) :
    Edit Table Unit := do
  let t ← get
  t.checkNewColumn spec
  let next := t.nextColumnKey
  if col ≠ next then
    throw (.fatal (.columnKeyMismatch col next t.name))
  let c ← Column.make room col spec t.size
  set { t with
    columns := t.columns ++ [c]
    nextColumn := t.nextColumn + 1 }

/-- Removes a column with all its cells. -/
def removeColumn (col : ColumnKey) : Edit Table Unit := do
  let t ← get
  let _ ← t.requireColumn col
  set { t with columns := t.columns.filter (·.key != col) }

/-- Adds an object under the next object key; every column gets a fresh
cell for it. Where a column gets no room, the cells that were given before
stay. -/
def insertObject (room : Room) (key : ObjectKey) : Edit Table Unit := do
  let t ← get
  if key ≠ t.nextObject then
    throw (.fatal (.objectKeyMismatch key t.nextObject t.name))
  room.ask 0 s!"row index of '{t.name}'" 1
  Edit.focus Table.columns (fun columns t => { t with columns })
    (Column.growAll room)
  modify fun t => { t with
    rows := t.rows.push key
    nextObject := ⟨t.nextObject.raw + 1⟩ }

/-- Removes an object; the last row takes over its slot in the row index and
in every column. -/
def removeObject (key : ObjectKey) : Edit Table Unit := do
  let t ← get
  let slot ← t.requireSlot key
  set { t with
    columns := t.columns.map (Column.vacate · slot)
    rows := t.rows.remove key slot }

/-- Takes every link to an object of a table out of the columns that link
into that table. -/
def unlink (t : Table) (target : TableKey) (key : ObjectKey) : Table :=
  { t with
    columns := t.columns.map fun c =>
      if c.spec.target == some target && c.linksTo key then c.unlink key
      else c }

-- ======================================================= cells

/-- The columns with the first one of a key replaced. -/
def replaceColumn (columns : List Column) (col : ColumnKey) (c : Column) :
    List Column :=
  match columns with
  | [] => []
  | d :: ds => if d.key == col then c :: ds else d :: replaceColumn ds col c

/-- Runs an edit on one column, or fails as told if it is not there. -/
def onColumn {α : Type} (col : ColumnKey) (missing : Error)
    (e : Edit Column α) : Edit Table α := do
  let t ← get
  match t.column? col with
  | none => throw missing
  | some c =>
    Edit.focus (fun _ => c)
      (fun c t => { t with columns := replaceColumn t.columns col c }) e

/-- Writes a value to a cell. -/
def setValue (limits : Limits) (key : ObjectKey) (col : ColumnKey)
    (v : Value) : Edit Table Unit := do
  let t ← get
  t.checkSet limits key col v
  let slot ← t.requireSlot key
  onColumn col (.fatal .columnVanished) (Column.put slot v)

/-- Changes the list in a cell. -/
def editList (key : ObjectKey) (col : ColumnKey)
    (f : List Value → List Value) : Edit Table Unit := do
  let t ← get
  let slot ← t.requireSlot key
  onColumn col (.illegalArgument (.unknownColumn col t.name))
    (Column.editList slot f)

/-- Puts an element into a list, before the one at an index or at the
end. -/
def listInsert (room : Room) (limits : Limits) (key : ObjectKey)
    (col : ColumnKey) (index : Nat) (v : Value) : Edit Table Unit := do
  let t ← get
  t.checkElement limits key col v
  let vs ← t.listOf key col
  if vs.length < index then
    throw (.indexOutOfBounds "list insert" index vs.length)
  room.ask 0 "list" 1
  editList key col (·.insertIdx index v)

/-- Replaces an element of a list. -/
def listSet (limits : Limits) (key : ObjectKey) (col : ColumnKey)
    (index : Nat) (v : Value) : Edit Table Unit := do
  let t ← get
  t.checkElement limits key col v
  let vs ← t.listOf key col
  if vs.length ≤ index then
    throw (.indexOutOfBounds "list" index vs.length)
  editList key col (·.set index v)

/-- Takes an element out of a list. -/
def listRemove (key : ObjectKey) (col : ColumnKey) (index : Nat) :
    Edit Table Unit := do
  let t ← get
  let vs ← t.listOf key col
  if vs.length ≤ index then
    throw (.indexOutOfBounds "list" index vs.length)
  editList key col (·.eraseIdx index)

/-- Takes every element out of a list. -/
def listClear (key : ObjectKey) (col : ColumnKey) : Edit Table Unit := do
  let t ← get
  let _ ← t.listOf key col
  editList key col fun _ => []

-- ============================================ types and absence, by column

/-- Whether a column has the type that a caller is about to read it as. -/
def checkType (t : Table) (col : ColumnKey) (expected : ColumnType) :
    Except Error Unit := do
  let c ← t.requireColumn col
  if c.spec.type != expected then
    throw (.illegalArgument (.wrongColumnType c.spec.name))

/-- Whether the cells of a column can be made absent: links always, lists
never, and other columns as declared. -/
def checkNullable (t : Table) (col : ColumnKey) : Except Error Unit := do
  let c ← t.requireColumn col
  if c.spec.type == .link then
    return
  if c.spec.isList then
    throw (.illegalArgument (.listNeverNull c.spec.name))
  if !c.spec.nullable then
    throw (.illegalArgument (.nullRefused c.spec.name))

end Table

end Colonnade
