/-
What can be done through a handle to an object: reading and writing its
cells, following its links, and removing it.

Writing absence through `setNull` first asks the table whether the column
allows it, and only then records a write; writing absence as a value leaves
the question to the write.

Chain: above `Handle`. Links come back as handles with the same anchor.
-/
import Colonnade.Handle.Table

namespace Colonnade.ObjectHandle

/-- A handle to the table of the object. -/
def tableHandle (h : ObjectHandle) : TableHandle := ⟨h.anchor, h.table⟩

/-- The table of the object in a snapshot, or that the object is out of
reach. -/
def resolve (h : ObjectHandle) (s : Snapshot) : Except Error Table :=
  match s.table? h.table with
  | none => .error .objectDetached
  | some t => if t.contains h.key then .ok t else .error .objectDetached

/-- Whether the handle still reaches its object. -/
def isValid (h : ObjectHandle) (e : Engine) : Bool :=
  h.anchor.check (fun s => s.hasObject h.table h.key) e

/-- Reads from the table of the object. -/
def read {α : Type} (h : ObjectHandle) (f : Table → Except Error α) :
    Edit Engine α :=
  h.anchor.read .objectDetached fun s => do f (← h.resolve s)

/-- Writes the instruction that the table calls for. -/
def write (h : ObjectHandle) (build : Table → Except Error Instruction) :
    Edit Engine Unit := do
  let _ ← h.anchor.write .objectDetached fun s => do build (← h.resolve s)

-- ======================================================= values

/-- The value in a column. -/
def get (h : ObjectHandle) (col : ColumnKey) : Edit Engine Value :=
  h.read fun t => t.valueOf h.key col

/-- The value in a column that must have a type. -/
def getTyped (h : ObjectHandle) (col : ColumnKey) (type : ColumnType) :
    Edit Engine Value :=
  h.read fun t => do
    t.checkType col type
    t.valueOf h.key col

/-- The object that a link points to. -/
def getLink? (h : ObjectHandle) (col : ColumnKey) :
    Edit Engine (Option ObjectHandle) :=
  h.read fun t => do
    t.checkType col .link
    let target := (← t.requireColumn col).spec.target
    match target, (← t.valueOf h.key col).link? with
    | some table, some key => return some ⟨h.anchor, table, key⟩
    | _, _ => return none

/-- Whether the value in a column is absent. -/
def isNull (h : ObjectHandle) (col : ColumnKey) : Edit Engine Bool :=
  Value.isNull <$> h.get col

/-- Writes a value. -/
def set (h : ObjectHandle) (col : ColumnKey) (v : Value) :
    Edit Engine Unit :=
  h.write fun _ => return .set h.table h.key col v

/-- Makes a value absent. -/
def setNull (h : ObjectHandle) (col : ColumnKey) : Edit Engine Unit :=
  h.write fun t => do
    t.checkNullable col
    return .set h.table h.key col .null

-- ======================================================== lists

/-- The list in a column. -/
def list (h : ObjectHandle) (col : ColumnKey) : Edit Engine (List Value) :=
  h.read fun t => t.listOf h.key col

/-- The length of the list in a column. -/
def listLength (h : ObjectHandle) (col : ColumnKey) : Edit Engine Nat :=
  List.length <$> h.list col

/-- An element of the list in a column. -/
def listGet (h : ObjectHandle) (col : ColumnKey) (index : Nat) :
    Edit Engine Value :=
  h.read fun t => do
    let vs ← t.listOf h.key col
    match vs[index]? with
    | some v => return v
    | none => throw (.indexOutOfBounds "list" index vs.length)

/-- Puts an element before the one at an index, or at the end. -/
def listInsert (h : ObjectHandle) (col : ColumnKey) (index : UInt64)
    (v : Value) : Edit Engine Unit :=
  h.write fun _ => return .listInsert h.table h.key col index v

/-- Puts an element at the end. -/
def listPush (h : ObjectHandle) (col : ColumnKey) (v : Value) :
    Edit Engine Unit :=
  h.write fun t => do
    let vs ← t.listOf h.key col
    return .listInsert h.table h.key col (UInt64.ofNat vs.length) v

/-- Replaces an element. -/
def listSet (h : ObjectHandle) (col : ColumnKey) (index : UInt64)
    (v : Value) : Edit Engine Unit :=
  h.write fun _ => return .listSet h.table h.key col index v

/-- Takes an element out. -/
def listRemove (h : ObjectHandle) (col : ColumnKey) (index : UInt64) :
    Edit Engine Unit :=
  h.write fun _ => return .listRemove h.table h.key col index

/-- Takes every element out. -/
def listClear (h : ObjectHandle) (col : ColumnKey) : Edit Engine Unit :=
  h.write fun _ => return .listClear h.table h.key col

-- ======================================================== removal

/-- Removes the object. -/
def remove (h : ObjectHandle) : Edit Engine Unit :=
  h.write fun _ => return .removeObject h.table h.key

end Colonnade.ObjectHandle
