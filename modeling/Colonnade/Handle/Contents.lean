/-
The whole contents of a database as one transaction sees it: every table in
the order of the names, with its columns in order of creation, its rows by
ascending key, and a cell for each column of each row. Everything is read
through handles, so a transaction whose handles no longer work shows its
tables to nobody.

Chain: above `Handle.Table` and `Handle.Object`; dumps and trials compare
what this gives.
-/
import Colonnade.Engine.Lookup
import Colonnade.Handle.Object

namespace Colonnade

/-- A column as it is listed. -/
structure ListedColumn where
  key : ColumnKey
  spec : ColumnSpec
deriving DecidableEq, Inhabited

/-- A row as it is listed: a cell for each column. -/
structure ListedRow where
  key : ObjectKey
  cells : List CellContent
deriving DecidableEq, Inhabited

/-- A table with everything in it. -/
structure TableContents where
  name : String
  key : TableKey
  columns : List ListedColumn
  rows : List ListedRow
deriving DecidableEq, Inhabited

namespace TableContents

/-- The column with a key. -/
def column (h : TableHandle) (key : ColumnKey) : Edit Engine ListedColumn := do
  return ⟨key, ← h.columnSpec key⟩

/-- The cell of an object in a column. -/
def cell (o : ObjectHandle) (c : ListedColumn) : Edit Engine CellContent := do
  if c.spec.isList then
    return .list (← o.list c.key)
  else
    return .value (← o.get c.key)

/-- The row of an object. -/
def row (h : TableHandle) (columns : List ListedColumn) (key : ObjectKey) :
    Edit Engine ListedRow := do
  let o ← h.object key
  return ⟨key, ← columns.mapM (cell o)⟩

/-- Everything in the table that a handle names. -/
def ofHandle (h : TableHandle) : Edit Engine TableContents := do
  let name ← h.name
  let columns ← (← h.columnKeys).mapM (column h)
  let rows ← (← h.objectKeys).mapM (row h columns)
  return ⟨name, h.key, columns, rows⟩

end TableContents

/-- Everything that a transaction sees. -/
def Engine.contents (id : TransactionId) :
    Edit Engine (List TableContents) := do
  let names ← (← get).tableNames id
  names.mapM fun name => do
    TableContents.ofHandle (← (← get).requireTable id name)

end Colonnade
