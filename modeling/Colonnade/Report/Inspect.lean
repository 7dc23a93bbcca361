/-
The report on what a database holds: its version, the size of its history,
and its tables with the number of objects and columns, the columns
themselves if asked for.

Chain: opens the history over a copy and reads through handles.
-/
import Colonnade.Engine.Lookup
import Colonnade.Handle.Table
import Colonnade.Report.Json
import Colonnade.Report.Layout

namespace Colonnade.Report

/-- One column of a table. -/
structure ColumnSummary where
  key : ColumnKey
  spec : ColumnSpec
  /-- The name of the table that its links point into. -/
  target : Option String

/-- One table. -/
structure TableSummary where
  name : String
  objects : Nat
  columnCount : Nat
  /-- The columns, if they were asked for. -/
  columns : Option (List ColumnSummary)

/-- A whole database. -/
structure Inspection where
  path : String
  version : Version
  historySize : Nat
  tables : List TableSummary

namespace Inspection

-- ======================================================= gathering

/-- One column of a table. -/
def ofColumn (t : TableHandle) (col : ColumnKey) :
    Edit Engine ColumnSummary := do
  let spec ← t.columnSpec col
  match ← t.linkTarget? col with
  | some target => return ⟨col, spec, some (← target.name)⟩
  | none => return ⟨col, spec, none⟩

/-- One table of a transaction. -/
def ofTable (id : TransactionId) (showColumns : Bool) (name : String) :
    Edit Engine TableSummary := do
  let t ← (← get).requireTable id name
  let keys ← t.columnKeys
  let columns ← if showColumns then some <$> keys.mapM (ofColumn t)
    else pure none
  return ⟨name, ← t.size, keys.length, columns⟩

/-- The database that a history leads to. -/
def gather (path : String) (history : Bytes) (showColumns : Bool) :
    Except Error Inspection := do
  let engine ← (Engine.openOver (.memory history) {}).1
  let step : Edit Engine Inspection := do
    let id ← Engine.beginRead
    let names ← (← get).tableNames id
    let tables ← names.mapM (ofTable id showColumns)
    return ⟨path, ← (← get).versionOf id, history.length, tables⟩
  match step.run engine with
  | .ok report _ => return report
  | .error e _ => throw e

-- ========================================================= writing

def columnJson (c : ColumnSummary) : Json :=
  .object
    ([("name", .text c.spec.name), ("key", .number c.key.raw.toInt),
      ("type", .text c.spec.type.name), ("nullable", .truth c.spec.nullable),
      ("list", .truth c.spec.isList)] ++
        Json.field? "target" (c.target.map .text))

def tableJson (t : TableSummary) : Json :=
  .object
    ([("name", .text t.name), ("objects", .number t.objects),
      ("column_count", .number t.columnCount)] ++
        Json.field? "columns" (t.columns.map fun cs => .list (cs.map columnJson)))

def json (r : Inspection) : Json :=
  .object
    [("path", .text r.path), ("version", .number r.version.raw.toNat),
     ("history_size", .number r.historySize),
     ("tables", .list (r.tables.map tableJson))]

def columnLine (c : ColumnSummary) : String :=
  let flags := (if c.spec.isList then ["list"] else []) ++
    (if c.spec.nullable then ["nullable"] else [])
  let target := match c.target with
    | some t => " -> " ++ t
    | none => ""
  "    " ++ alignLeft 20 c.spec.name ++ " " ++
    alignLeft 10 c.spec.type.name ++ target ++
      " [" ++ String.intercalate ", " flags ++ "]"

def tableLines (t : TableSummary) : List String :=
  "" :: s!"  {t.name} ({t.objects} objects, {t.columnCount} columns)" ::
    (t.columns.getD []).map columnLine

def text (r : Inspection) : String :=
  lines
    ([s!"Database: {r.path}", s!"Version:  {r.version.raw}",
      s!"History:  {r.historySize} bytes", s!"Tables:   {r.tables.length}"] ++
        r.tables.flatMap tableLines)

end Inspection

/-- The command that reports on what a database holds. -/
def inspect (path : String) (history : Option Bytes) (showColumns : Bool)
    (form : Form) : Outcome :=
  withHistory path history id fun bytes =>
    match Inspection.gather path bytes showColumns with
    | .error e => .failed e.message
    | .ok r =>
      match form with
      | .json => ⟨lines [r.json.render 0], none⟩
      | .text => ⟨r.text, none⟩

end Colonnade.Report
