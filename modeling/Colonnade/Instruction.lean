/-
The changes that a commit is made of. Each instruction names the keys that
it allocates, so that carrying it out a second time on the same state gives
the same state, keys included: one list of instructions drives both a live
transaction and the replay of the history.

Chain: `Snapshot.apply` carries instructions out, `Wire.Instruction` writes
and reads them.
-/
import Colonnade.Column.Spec
import Colonnade.Value

namespace Colonnade

/-- One change to the collection of tables. -/
inductive Instruction where
  | addTable (table : TableKey) (name : String)
  | removeTable (table : TableKey)
  | addColumn (table : TableKey) (col : ColumnKey) (spec : ColumnSpec)
  | removeColumn (table : TableKey) (col : ColumnKey)
  | createObject (table : TableKey) (key : ObjectKey)
  | removeObject (table : TableKey) (key : ObjectKey)
  | set (table : TableKey) (key : ObjectKey) (col : ColumnKey)
      (value : Value)
  | listInsert (table : TableKey) (key : ObjectKey) (col : ColumnKey)
      (index : UInt64) (value : Value)
  | listSet (table : TableKey) (key : ObjectKey) (col : ColumnKey)
      (index : UInt64) (value : Value)
  | listRemove (table : TableKey) (key : ObjectKey) (col : ColumnKey)
      (index : UInt64)
  | listClear (table : TableKey) (key : ObjectKey) (col : ColumnKey)
deriving DecidableEq, Inhabited

namespace Instruction

/-- The name of the operation in listings and error messages. -/
def opName : Instruction → String
  | addTable _ _ => "add_table"
  | removeTable _ => "remove_table"
  | addColumn _ _ _ => "add_column"
  | removeColumn _ _ => "remove_column"
  | createObject _ _ => "create_object"
  | removeObject _ _ => "remove_object"
  | set _ _ _ _ => "set"
  | listInsert _ _ _ _ _ => "list_insert"
  | listSet _ _ _ _ _ => "list_set"
  | listRemove _ _ _ _ => "list_remove"
  | listClear _ _ _ => "list_clear"

-- ============================================ what an instruction names

/-- What an instruction is about, kind by kind: always a table, and of the
rest what its operation needs. -/
structure Parts where
  table : TableKey
  name : Option String := none
  key : Option ObjectKey := none
  col : Option ColumnKey := none
  spec : Option ColumnSpec := none
  index : Option UInt64 := none
  value : Option Value := none
deriving DecidableEq

/-- What the instruction is about. -/
def parts : Instruction → Parts
  | addTable table name => { table, name }
  | removeTable table => { table }
  | addColumn table col spec => { table, col, spec }
  | removeColumn table col => { table, col }
  | createObject table key => { table, key }
  | removeObject table key => { table, key }
  | set table key col value => { table, key, col, value }
  | listInsert table key col index value => { table, key, col, index, value }
  | listSet table key col index value => { table, key, col, index, value }
  | listRemove table key col index => { table, key, col, index }
  | listClear table key col => { table, key, col }

/-- The instruction of an operation on given parts, if the operation exists
and all that it needs is given. -/
def ofParts? (op : String) (p : Parts) : Option Instruction :=
  match op with
  | "add_table" => return addTable p.table (← p.name)
  | "remove_table" => return removeTable p.table
  | "add_column" => return addColumn p.table (← p.col) (← p.spec)
  | "remove_column" => return removeColumn p.table (← p.col)
  | "create_object" => return createObject p.table (← p.key)
  | "remove_object" => return removeObject p.table (← p.key)
  | "set" => return set p.table (← p.key) (← p.col) (← p.value)
  | "list_insert" =>
    return listInsert p.table (← p.key) (← p.col) (← p.index) (← p.value)
  | "list_set" =>
    return listSet p.table (← p.key) (← p.col) (← p.index) (← p.value)
  | "list_remove" => return listRemove p.table (← p.key) (← p.col) (← p.index)
  | "list_clear" => return listClear p.table (← p.key) (← p.col)
  | _ => none

/-- An instruction is found again from its operation and its parts. -/
theorem ofParts?_parts (i : Instruction) :
    ofParts? i.opName i.parts = some i := by
  cases i <;> rfl

end Instruction

end Colonnade
