/-
What can be done through a handle to a table.

Chain: above `Handle`. Columns, objects and searches come back as keys or
as handles with the same anchor.
-/
import Colonnade.Handle

namespace Colonnade.TableHandle

/-- The table in a snapshot, or that it is out of reach. -/
def resolve (h : TableHandle) (s : Snapshot) : Except Error Table :=
  match s.table? h.key with
  | some t => .ok t
  | none => .error .tableDetached

/-- Whether the handle still reaches its table. -/
def isValid (h : TableHandle) (e : Engine) : Bool :=
  h.anchor.check (fun s => (s.table? h.key).isSome) e

/-- Reads from the table. -/
def read {α : Type} (h : TableHandle) (f : Table → Except Error α) :
    Edit Engine α :=
  h.anchor.read .tableDetached fun s => do f (← h.resolve s)

/-- Writes the instruction that the table calls for. -/
def write (h : TableHandle) (build : Table → Except Error Instruction) :
    Edit Engine Instruction :=
  h.anchor.write .tableDetached fun s => do build (← h.resolve s)

-- ======================================================= reading

def name (h : TableHandle) : Edit Engine String :=
  h.read fun t => return t.name

/-- How many objects the table holds. -/
def size (h : TableHandle) : Edit Engine Nat :=
  h.read fun t => return t.size

def isEmpty (h : TableHandle) : Edit Engine Bool :=
  h.read fun t => return t.isEmpty

/-- The keys of the objects, ascending. -/
def objectKeys (h : TableHandle) : Edit Engine (List ObjectKey) :=
  h.read fun t => return t.objectKeys

/-- The key of the column with a name. -/
def columnKey? (h : TableHandle) (name : String) :
    Edit Engine (Option ColumnKey) :=
  h.read fun t => return t.columnKey? name

/-- The keys of the columns in order of creation. -/
def columnKeys (h : TableHandle) : Edit Engine (List ColumnKey) :=
  h.read fun t => return t.columns.map (·.key)

/-- The declaration of a column. -/
def columnSpec (h : TableHandle) (col : ColumnKey) :
    Edit Engine ColumnSpec :=
  h.read fun t => return (← t.requireColumn col).spec

/-- The table that a column links into. -/
def linkTarget? (h : TableHandle) (col : ColumnKey) :
    Edit Engine (Option TableHandle) := do
  let spec ← h.columnSpec col
  return spec.target.map fun key => ⟨h.anchor, key⟩

/-- Passes if a column has the expected type. -/
def checkType (h : TableHandle) (col : ColumnKey) (expected : ColumnType) :
    Edit Engine Unit :=
  h.read fun t => t.checkType col expected

/-- Passes if the cells of a column can be made absent. -/
def checkNullable (h : TableHandle) (col : ColumnKey) : Edit Engine Unit :=
  h.read fun t => t.checkNullable col

/-- Whether an object lives in the table. -/
def contains (h : TableHandle) (key : ObjectKey) : Edit Engine Bool :=
  h.read fun t => return t.contains key

/-- A handle to an object, if the object is there. -/
def object? (h : TableHandle) (key : ObjectKey) :
    Edit Engine (Option ObjectHandle) := do
  if ← h.contains key then
    return some ⟨h.anchor, h.key, key⟩
  else
    return none

/-- A handle to an object that must be there. -/
def object (h : TableHandle) (key : ObjectKey) :
    Edit Engine ObjectHandle := do
  match ← h.object? key with
  | some o => return o
  | none => throw (.illegalArgument (.objectNotInTable key))

/-- The first object, by key, whose value in a column equals a given
one. -/
def findFirst (h : TableHandle) (col : ColumnKey) (v : Value) :
    Edit Engine (Option ObjectKey) :=
  h.read fun t => t.findFirst col v

-- ======================================================= writing

/-- Adds a column and gives its key. -/
def addColumn (h : TableHandle) (spec : ColumnSpec) :
    Edit Engine ColumnKey := do
  match ← h.write fun t => return .addColumn h.key t.nextColumnKey spec with
  | .addColumn _ col _ => return col
  | _ => throw (.fatal (.otherInstruction "add_column"))

/-- Removes a column with its cells. -/
def removeColumn (h : TableHandle) (col : ColumnKey) : Edit Engine Unit := do
  let _ ← h.write fun _ => return .removeColumn h.key col

/-- Adds an object and gives a handle to it. -/
def createObject (h : TableHandle) : Edit Engine ObjectHandle := do
  match ← h.write fun t => return .createObject h.key t.nextObject with
  | .createObject _ key => return ⟨h.anchor, h.key, key⟩
  | _ => throw (.fatal (.otherInstruction "create_object"))

/-- Removes an object. -/
def removeObject (h : TableHandle) (key : ObjectKey) : Edit Engine Unit := do
  let _ ← h.write fun _ => return .removeObject h.key key

/-- Removes every object, in ascending order. -/
def clear (h : TableHandle) : Edit Engine Unit := do
  (← h.objectKeys).forM h.removeObject

end Colonnade.TableHandle
