/-
The calls that a foreign caller makes with pointers. A pointer may be null:
that of the session, of a name, or of the place for the result. A call
fails if it needs one that is null; where the null is noticed before and
where after the session has done its part is fixed for each call, and the
place for the result is written on success only.

Only the result of a commit may be left without a place.

Chain: above `Boundary.Session`; the codes and the record of the last error
come from `Boundary.guarded`.
-/
import Colonnade.Boundary.Session

namespace Colonnade.Boundary

/-- A call on a session that may be a null pointer. -/
abbrev Export (α : Type) := EStateM Fault (Option Session) α

namespace Export

/-- Whether the place for a result is there. -/
abbrev Place := Bool

/-- Passes if a pointer is not null. -/
def requirePlace (place : Place) (argument : String) : Export Unit := do
  if !place then
    throw (.nullPointer argument)

/-- Runs a call on the session, which must be there. -/
def onSession {α : Type} (call : Call α) : Export α := fun s =>
  match s with
  | none => .error (.nullPointer "session") none
  | some s =>
    match call.run s with
    | .ok a s => .ok a (some s)
    | .error f s => .error f (some s)

/-- Runs a call, and only then asks for the place of its result. -/
def thenPlace {α : Type} (call : Call α) (place : Place)
    (argument : String) : Export α := do
  let a ← onSession call
  requirePlace place argument
  return a

/-- A name that must be there, short enough, and a text. -/
def nameArgument (name : TextArgument) : Call String := do
  match name with
  | none => throw (.nullPointer "name")
  | some _ =>
    let limit := (← get).config.maxString
    match ← Session.ofFault (name.toText? limit) with
    | some s => return s
    | none => throw (.nullPointer "name")

-- ==================================================== transactions

def beginRead (place : Place) : Export Int64 :=
  thenPlace Session.beginRead place "out_txn"

/-- Begins a write transaction; nothing if another is active and the caller
has to wait. -/
def beginWrite? (place : Place) : Export (Option Int64) := do
  requirePlace place "out_txn"
  onSession Session.beginWrite?

def commit (txn : Int64) : Export Version :=
  onSession (Session.commit txn)

def rollback (txn : Int64) : Export Unit :=
  onSession (Session.rollback txn)

def closeTransaction (txn : Int64) : Export Unit :=
  onSession (Session.close txn)

/-- Moves a read transaction; the answer is a byte. -/
def advance (txn : Int64) (place : Place) : Export UInt8 :=
  thenPlace (byteOfTruth <$> Session.advance txn) place "out_changed"

-- ========================================== tables, columns, objects

def table (txn : Int64) (name : TextArgument) (place : Place) :
    Export Int64 :=
  thenPlace (do Session.findTable txn (← nameArgument name)) place
    "out_table"

def addTable (txn : Int64) (name : TextArgument) (place : Place) :
    Export Int64 :=
  thenPlace (do Session.addTable txn (← nameArgument name)) place
    "out_table"

def addColumn (table : Int64) (name : TextArgument) (code : Int32)
    (nullable : UInt8) (place : Place) : Export Int64 :=
  thenPlace
    (do Session.addColumn table (← nameArgument name) code
          (truthOfByte nullable))
    place "out_col"

def createObject (table : Int64) (place : Place) : Export Int64 :=
  thenPlace (Session.createObject table) place "out_obj"

/-- Whether a handle reaches an object; without a session none does. -/
def objectIsValid (s : Option Session) (object : Int64) : UInt8 :=
  byteOfTruth (s.any (·.objectIsValid object))

def findFirstInt (table col value : Int64) (place : Place) :
    Export Int64 :=
  thenPlace (Session.findFirstInt table col value) place "out_key"

-- ========================================================== values

def getInt (object col : Int64) (place : Place) : Export Int64 :=
  thenPlace (Session.getInt object col) place "out_value"

def setInt (object col value : Int64) : Export Unit :=
  onSession (Session.setInt object col value)

def setString (object col : Int64) (text : TextArgument) : Export Unit :=
  onSession (Session.setString object col text)

def getTimestamp (object col : Int64) (place : Place) : Export Int64 :=
  thenPlace (Session.getTimestamp object col) place "out_ms"

def setTimestamp (object col ms : Int64) : Export Unit :=
  onSession (Session.setTimestamp object col ms)

def setNull (object col : Int64) : Export Unit :=
  onSession (Session.setNull object col)

end Export

end Colonnade.Boundary
