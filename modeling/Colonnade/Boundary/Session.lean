/-
A session: one database behind integers. Transactions, tables and objects
are lent out as handles from three arenas. Handles of tables and objects
stay lent after their transaction has ended; using one then fails, and
`releaseDetached` takes all such back at once.

Ending a write transaction always gives its handle back, whether the commit
went through or not, so a session cannot get stuck with a writer slot that
nobody can free.

Checks come in a fixed order: the handle, that what it stands for is still
there, the column's type, the value.

Chain: above `Engine`; `Boundary.Export` calls sessions on behalf of
callers that pass pointers.
-/
import Colonnade.Boundary.Arena
import Colonnade.Boundary.TextArgument
import Colonnade.Engine.Lookup
import Colonnade.Handle.Object

namespace Colonnade.Boundary

/-- A transaction that a session has lent out. -/
structure LentTransaction where
  id : TransactionId
  kind : TransactionKind
deriving DecidableEq, Repr, Inhabited

/-- A database and the handles that are lent out for it. -/
structure Session where
  engine : Engine
  config : Config
  path : Option String := none
  transactions : Arena LentTransaction := {}
  tables : Arena TableHandle := {}
  objects : Arena ObjectHandle := {}

/-- A call on a session. -/
abbrev Call (α : Type) := EStateM Fault Session α

namespace Session

instance : Inhabited Session := ⟨{ engine := default, config := {} }⟩

/-- A session over a database in memory. -/
def openInMemory (config : Config) : Session :=
  { engine := .inMemory config, config }

/-- Runs a step of the engine. -/
def onEngine {α : Type} (step : Edit Engine α) : Call α := fun s =>
  match step.run s.engine with
  | .ok a engine => .ok a { s with engine }
  | .error e engine => .error (.core e) { s with engine }

/-- Hands a check of the engine on. -/
def ofCore {α : Type} : Except Error α → Call α
  | .ok a => pure a
  | .error e => throw (.core e)

/-- Hands a check of an argument on. -/
def ofFault {α : Type} : Except Fault α → Call α
  | .ok a => pure a
  | .error f => throw f

-- ==================================================== transactions

/-- Lends a transaction out. -/
def lendTransaction (id : TransactionId) (kind : TransactionKind) :
    Call Int64 := do
  let (h, transactions) := (← get).transactions.insert ⟨id, kind⟩
  modify fun s => { s with transactions }
  return h

/-- Begins a read transaction. -/
def beginRead : Call Int64 := do
  lendTransaction (← onEngine Engine.beginRead) .read

/-- Begins a write transaction, unless one is active. -/
def beginWrite? : Call (Option Int64) := do
  match ← onEngine Engine.beginWrite? with
  | some id => some <$> lendTransaction id .write
  | none => return none

/-- The transaction under a handle. -/
def transaction (h : Int64) : Call LentTransaction := do
  match (← get).transactions.get? h with
  | some t => return t
  | none => throw (.staleHandle .transaction h)

/-- The transaction under a handle, which must be of a kind. -/
def transactionOf (kind : TransactionKind) (h : Int64) :
    Call LentTransaction := do
  let t ← transaction h
  if t.kind ≠ kind then
    throw (.wrongTransaction h kind)
  return t

/-- Takes a handle to a transaction back. -/
def takeTransaction (h : Int64) : Call LentTransaction := do
  match (← get).transactions.remove h with
  | (some t, transactions) =>
    modify fun s => { s with transactions }
    return t
  | (none, _) => throw (.staleHandle .transaction h)

/-- Takes a write transaction back, ends it in some way, and drops it
whether that worked or not. -/
def endWrite {α : Type} (h : Int64) (finish : TransactionId → Edit Engine α) :
    Call α := do
  let _ ← transactionOf .write h
  let t ← takeTransaction h
  onEngine do
    let outcome ← Edit.attempt (finish t.id)
    Engine.drop t.id
    match outcome with
    | .ok a => return a
    | .error e => throw e

/-- Commits a write transaction and gives the version it became. -/
def commit (h : Int64) : Call Version := endWrite h Engine.commit

/-- Rolls a write transaction back. -/
def rollback (h : Int64) : Call Unit := endWrite h Engine.rollback

/-- Drops a transaction of either kind. -/
def close (h : Int64) : Call Unit := do
  let t ← takeTransaction h
  onEngine (Engine.drop t.id)

/-- Moves a read transaction to the current version. -/
def advance (h : Int64) : Call Bool := do
  let t ← transactionOf .read h
  onEngine (Engine.advance t.id)

/-- The version that a transaction reads. -/
def transactionVersion (h : Int64) : Call Version := do
  let t ← transaction h
  ofCore ((← get).engine.versionOf t.id)

-- ========================================================== tables

/-- Lends a table out. -/
def lendTable (t : TableHandle) : Call Int64 := do
  let (h, tables) := (← get).tables.insert t
  modify fun s => { s with tables }
  return h

/-- The table under a handle. -/
def table (h : Int64) : Call TableHandle := do
  match (← get).tables.get? h with
  | some t => return t
  | none => throw (.staleHandle .table h)

/-- The table under a handle, which must still be there. -/
def liveTable (h : Int64) : Call TableHandle := do
  let t ← table h
  if !t.isValid (← get).engine then
    throw (.core .tableDetached)
  return t

/-- A handle to the table with a name, or -1. -/
def findTable (txn : Int64) (name : String) : Call Int64 := do
  let t ← transaction txn
  match ← ofCore ((← get).engine.table? t.id name) with
  | some found => lendTable found
  | none => return notFound

/-- Adds a table. -/
def addTable (txn : Int64) (name : String) : Call Int64 := do
  let t ← transactionOf .write txn
  lendTable (← onEngine (Engine.addTable t.id name))

/-- The names of the tables. -/
def tableNames (txn : Int64) : Call (List String) := do
  let t ← transaction txn
  ofCore ((← get).engine.tableNames t.id)

/-- Whether a handle reaches a table. -/
def tableIsValid (s : Session) (h : Int64) : Bool :=
  (s.tables.get? h).any (·.isValid s.engine)

def tableName (h : Int64) : Call String := do
  onEngine (← liveTable h).name

def tableSize (h : Int64) : Call Int64 := do
  let n ← onEngine (← liveTable h).size
  return indexNumber (some n)

/-- Takes a handle to a table back. -/
def releaseTable (h : Int64) : Call Unit := do
  match (← get).tables.remove h with
  | (some _, tables) => modify fun s => { s with tables }
  | (none, _) => throw (.staleHandle .table h)

-- ========================================================= columns

/-- Adds a plain column. -/
def addColumn (h : Int64) (name : String) (code : Int32)
    (nullable : Bool) : Call Int64 := do
  match ColumnType.ofCode? code.toInt with
  | none => throw (.unknownColumnType code)
  | some type =>
    let t ← liveTable h
    let col ← onEngine (t.addColumn (.scalar name type nullable))
    return col.raw

/-- Adds a column of links into another table. -/
def addLinkColumn (h : Int64) (name : String) (target : Int64) :
    Call Int64 := do
  let target ← liveTable target
  let t ← liveTable h
  let col ← onEngine (t.addColumn (.link name target.key))
  return col.raw

def columnKey (h : Int64) (name : String) : Call Int64 := do
  let t ← liveTable h
  return columnNumber (← onEngine (t.columnKey? name))

/-- The code of a column's type. -/
def columnType (h : Int64) (col : Int64) : Call Nat := do
  let t ← liveTable h
  return (← onEngine (t.columnSpec ⟨col⟩)).type.code

def columnName (h : Int64) (col : Int64) : Call String := do
  let t ← liveTable h
  return (← onEngine (t.columnSpec ⟨col⟩)).name

-- ========================================================= objects

/-- Lends an object out. -/
def lendObject (o : ObjectHandle) : Call Int64 := do
  let (h, objects) := (← get).objects.insert o
  modify fun s => { s with objects }
  return h

/-- The object under a handle. -/
def object (h : Int64) : Call ObjectHandle := do
  match (← get).objects.get? h with
  | some o => return o
  | none => throw (.staleHandle .object h)

/-- The object under a handle, which must still be there. -/
def liveObject (h : Int64) : Call ObjectHandle := do
  let o ← object h
  if !o.isValid (← get).engine then
    throw (.core .objectDetached)
  return o

/-- The object under a handle, for use as a column's type allows. -/
def typedObject (h : Int64) (col : Int64) (type : ColumnType) :
    Call ObjectHandle := do
  let o ← liveObject h
  onEngine (o.tableHandle.checkType ⟨col⟩ type)
  return o

def createObject (h : Int64) : Call Int64 := do
  let t ← liveTable h
  lendObject (← onEngine t.createObject)

/-- A handle to the object with a key. -/
def findObject (h : Int64) (key : Int64) : Call Int64 := do
  match ObjectKey.ofRaw? key with
  | none => throw (.core (.illegalArgument (.negativeObjectKey key)))
  | some k =>
    let t ← liveTable h
    lendObject (← onEngine (t.object k))

/-- The key of the first object with an integer in a column, or -1. -/
def findFirstInt (h : Int64) (col : Int64) (value : Int64) :
    Call Int64 := do
  let t ← liveTable h
  onEngine (t.checkType ⟨col⟩ .int)
  return objectNumber (← onEngine (t.findFirst ⟨col⟩ (.int value)))

def objectKey (h : Int64) : Call Int64 := do
  return (← object h).key.raw

/-- Whether a handle reaches an object. -/
def objectIsValid (s : Session) (h : Int64) : Bool :=
  (s.objects.get? h).any (·.isValid s.engine)

def removeObject (h : Int64) : Call Unit := do
  let o ← liveObject h
  onEngine o.remove

/-- Takes a handle to an object back. -/
def releaseObject (h : Int64) : Call Unit := do
  match (← get).objects.remove h with
  | (some _, objects) => modify fun s => { s with objects }
  | (none, _) => throw (.staleHandle .object h)

/-- Takes back every handle to a table or object that is out of reach, and
says how many there were. -/
def releaseDetached : Call Nat := do
  let s ← get
  let tables := s.tables.retain (·.isValid s.engine)
  let objects := s.objects.retain (·.isValid s.engine)
  set { s with tables, objects }
  return s.tables.size + s.objects.size - tables.size - objects.size

-- ========================================================== values

/-- Whether a value is absent. -/
def isNull (h : Int64) (col : Int64) : Call Bool := do
  let o ← liveObject h
  onEngine (o.isNull ⟨col⟩)

/-- The value in a column of a type. -/
def getTyped (h : Int64) (col : Int64) (type : ColumnType) :
    Call Value := do
  let o ← typedObject h col type
  onEngine (o.getTyped ⟨col⟩ type)

/-- An integer; zero if it is absent. -/
def getInt (h : Int64) (col : Int64) : Call Int64 := do
  return (← getTyped h col .int).int?.getD 0

/-- A truth value; false if it is absent. -/
def getBool (h : Int64) (col : Int64) : Call Bool := do
  return (← getTyped h col .bool).bool?.getD false

/-- A 64-bit number; zero if it is absent. -/
def getDouble (h : Int64) (col : Int64) : Call Number.Double := do
  return (← getTyped h col .double).double?.getD ⟨0⟩

/-- A text, if there is one. -/
def getString (h : Int64) (col : Int64) : Call (Option String) := do
  return (← getTyped h col .string).string?

/-- A timestamp in milliseconds; zero if it is absent. -/
def getTimestamp (h : Int64) (col : Int64) : Call Int64 := do
  return ((← getTyped h col .timestamp).timestamp?.map (·.toMillis)).getD 0

/-- A handle to the object that a link points to, or -1. -/
def getLink (h : Int64) (col : Int64) : Call Int64 := do
  let o ← typedObject h col .link
  match ← onEngine (o.getLink? ⟨col⟩) with
  | some target => lendObject target
  | none => return notFound

/-- Writes a value into a column of a type. -/
def setTyped (h : Int64) (col : Int64) (type : ColumnType) (v : Value) :
    Call Unit := do
  let o ← typedObject h col type
  onEngine (o.set ⟨col⟩ v)

def setInt (h : Int64) (col : Int64) (n : Int64) : Call Unit :=
  setTyped h col .int (.int n)

def setBool (h : Int64) (col : Int64) (b : Bool) : Call Unit :=
  setTyped h col .bool (.bool b)

def setDouble (h : Int64) (col : Int64) (x : Number.Double) : Call Unit :=
  setTyped h col .double (.double x)

/-- Writes a text; nothing makes the value absent. -/
def setString (h : Int64) (col : Int64) (t : TextArgument) : Call Unit := do
  let o ← typedObject h col .string
  if t.isNull then
    onEngine (o.tableHandle.checkNullable ⟨col⟩)
  let v ← ofFault (t.toValue (← get).config.maxString)
  onEngine (o.set ⟨col⟩ v)

/-- Writes a timestamp given in milliseconds. -/
def setTimestamp (h : Int64) (col : Int64) (ms : Int64) : Call Unit :=
  setTyped h col .timestamp (.timestamp (.ofMillis ms))

/-- Writes a link to the object with a key; a negative key makes the link
absent. -/
def setLink (h : Int64) (col : Int64) (key : Int64) : Call Unit :=
  setTyped h col .link
    (match ObjectKey.ofRaw? key with
    | some k => .link k
    | none => .null)

/-- Makes a value absent. -/
def setNull (h : Int64) (col : Int64) : Call Unit := do
  let o ← liveObject h
  onEngine (o.tableHandle.checkNullable ⟨col⟩)
  onEngine (o.setNull ⟨col⟩)

end Session

end Colonnade.Boundary
