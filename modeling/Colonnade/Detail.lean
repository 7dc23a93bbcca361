/-
The detailed text of keys, values, declarations and instructions, and of
open databases, transactions and sessions: a name, then the fields in
braces, or a single field in parentheses. Listings of the history and
diagnostics are written this way. Where a thing is not shown in full, two
dots stand for the rest.

Chain: above the types that it shows; `Report.DumpHistory` uses it.
-/
import Colonnade.Boundary.Session

namespace Colonnade.Detail

-- ========================================================= shapes

/-- A name and its fields. -/
def record (name : String) (fields : List (String × String)) : String :=
  let shown := fields.map fun (label, text) => label ++ ": " ++ text
  name ++ " \x7b " ++ String.intercalate ", " shown ++ " \x7d"

/-- A name and some of its fields. -/
def partialRecord (name : String) (fields : List (String × String)) :
    String :=
  let shown := fields.map fun (label, text) => label ++ ": " ++ text
  name ++ " \x7b " ++ String.intercalate ", " (shown ++ [".."]) ++ " \x7d"

/-- A name around one field. -/
def around (name text : String) : String := name ++ "(" ++ text ++ ")"

/-- Something that may be missing. -/
def option (text? : Option String) : String :=
  match text? with
  | some text => around "Some" text
  | none => "None"

def truth (b : Bool) : String := if b then "true" else "false"

-- ============================================ keys and declarations

def tableKey (k : TableKey) : String := around "TableKey" (toString k.raw)

def columnKey (k : ColumnKey) : String := around "ColKey" (toString k.raw)

def objectKey (k : ObjectKey) : String := around "ObjKey" (toString k.raw)

def version (v : Version) : String := around "VersionId" (toString v.raw)

def transactionId (t : TransactionId) : String :=
  around "TransactionId" (toString t.raw)

def columnType : ColumnType → String
  | .int => "Int"
  | .bool => "Bool"
  | .string => "String"
  | .binary => "Binary"
  | .timestamp => "Timestamp"
  | .float => "Float"
  | .double => "Double"
  | .link => "Link"
  | .linkList => "LinkList"

def spec (s : ColumnSpec) : String :=
  record "ColumnSpec"
    [("name", Text.quoted s.name), ("ty", columnType s.type),
     ("nullable", truth s.nullable), ("list", truth s.isList),
     ("target", option (s.target.map tableKey))]

-- ============================================ values, instructions

def timestamp (t : Timestamp) : String :=
  record "Timestamp"
    [("seconds", toString t.seconds), ("nanoseconds", toString t.nanoseconds)]

def bytes (bs : Bytes) : String :=
  "[" ++ String.intercalate ", " (bs.map fun b => toString b) ++ "]"

def value : Value → String
  | .null => "Null"
  | .int n => around "Int" (toString n)
  | .bool b => around "Bool" (truth b)
  | .string s => around "String" (Text.quoted s)
  | .binary bs => around "Binary" (bytes bs)
  | .timestamp t => around "Timestamp" (timestamp t)
  | .float x => around "Float" (x.text .detailed)
  | .double x => around "Double" (x.text .detailed)
  | .link k => around "Link" (objectKey k)

/-- The name of an operation. -/
def operation : Instruction → String
  | .addTable _ _ => "AddTable"
  | .removeTable _ => "RemoveTable"
  | .addColumn _ _ _ => "AddColumn"
  | .removeColumn _ _ => "RemoveColumn"
  | .createObject _ _ => "CreateObject"
  | .removeObject _ _ => "RemoveObject"
  | .set _ _ _ _ => "Set"
  | .listInsert _ _ _ _ _ => "ListInsert"
  | .listSet _ _ _ _ _ => "ListSet"
  | .listRemove _ _ _ _ => "ListRemove"
  | .listClear _ _ _ => "ListClear"

/-- A field that is there or not. -/
def field? {α : Type} (label : String) (text : α → String) (a? : Option α) :
    List (String × String) :=
  (a?.map fun a => (label, text a)).toList

def instruction (i : Instruction) : String :=
  let p := i.parts
  record (operation i)
    ([("table", tableKey p.table)] ++ field? "name" Text.quoted p.name ++
      field? "key" objectKey p.key ++ field? "col" columnKey p.col ++
      field? "spec" spec p.spec ++ field? "index" toString p.index ++
      field? "value" value p.value)

-- ============================================= what is open

def database (path : Option String) (v : Version) : String :=
  partialRecord "Database"
    [("path", option (path.map Text.quoted)), ("version", version v)]

def transaction (id : TransactionId) (v : Version) : String :=
  partialRecord "Transaction"
    [("id", transactionId id), ("version", version v)]

def session (s : Boundary.Session) : String :=
  record "Session"
    [("database", database s.path s.engine.version),
     ("transactions", toString s.transactions.size),
     ("tables", toString s.tables.size),
     ("objects", toString s.objects.size)]

end Colonnade.Detail
