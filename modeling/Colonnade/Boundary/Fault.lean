/-
What goes wrong at the boundary itself, and the record of the last error.
A call first clears the record; if it then fails, the record says how. The
text of the record ends at the first NUL, because the caller reads it as a
text that a NUL ends.

Chain: above `Boundary.Code`; sessions fail with a `Fault`.
-/
import Colonnade.Boundary.Code
import Colonnade.Text.Utf8

namespace Colonnade.Boundary

/-- What a handle stands for. -/
inductive HandleKind where
  | transaction
  | table
  | object
deriving DecidableEq, Repr, Inhabited

def HandleKind.name : HandleKind → String
  | transaction => "transaction"
  | table => "table"
  | object => "object"

/-- What a transaction handle may be used for. -/
inductive TransactionKind where
  | read
  | write
deriving DecidableEq, Repr, Inhabited

def TransactionKind.name : TransactionKind → String
  | read => "read"
  | write => "write"

/-- Why a call across the boundary failed. -/
inductive Fault where
  | core (error : Error)
  | nullPointer (argument : String)
  | staleHandle (what : HandleKind) (handle : Int64)
  | wrongTransaction (handle : Int64) (expected : TransactionKind)
  | invalidUtf8 (place : Utf8.Fault)
  | unknownColumnType (code : Int32)
deriving DecidableEq, Repr

namespace Fault

instance : Inhabited Fault := ⟨nullPointer ""⟩

/-- The kind that the failure is reported as. -/
def kind : Fault → ErrorKind
  | core e => e.kind
  | nullPointer _ | invalidUtf8 _ | unknownColumnType _ => .illegalArgument
  | staleHandle _ _ | wrongTransaction _ _ => .illegalState

/-- The text of the failure. -/
def message : Fault → String
  | core e => e.message
  | nullPointer a => s!"null pointer passed for '{a}'"
  | staleHandle what h => s!"{what.name} handle {h} is not valid"
  | wrongTransaction h expected =>
    s!"transaction {h} is not a {expected.name} transaction"
  | invalidUtf8 place => s!"string is not valid UTF-8: {place.message}"
  | unknownColumnType code => s!"unknown column type code {code}"

/-- The code that a failed call answers. -/
def code (f : Fault) : ResultCode := .failed f.kind

end Fault

-- =================================================== the last error

/-- What is remembered of the last failure. -/
structure LastError where
  code : ResultCode
  category : String
  detail : String
deriving DecidableEq, Repr, Inhabited

/-- A text up to its first NUL. -/
def untilNul (s : String) : String :=
  String.ofList (s.toList.takeWhile (· != '\x00'))

/-- What is remembered of a failure. -/
def LastError.of (f : Fault) : LastError :=
  ⟨f.code, f.kind.name, untilNul f.message⟩

/-- How a call ended, and the record of the last error after it: none after
a success, whatever was recorded before. -/
def guarded {α : Type} : Except Fault α → ResultCode × Option LastError
  | .ok _ => (.ok, none)
  | .error f => (f.code, some (.of f))

end Colonnade.Boundary
