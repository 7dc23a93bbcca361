/-
How results and keys look from outside. Every call across the boundary
answers a number: 0 for success, and the number of the error's kind plus
one for a failure. Keys cross as signed integers, and -1 says that nothing
was found. Names of classes cross without the prefix that the names of
their tables carry.

Chain: `Boundary.Fault` reports errors by code, `Boundary.Session` answers
keys and handles.
-/
import Colonnade.Error

namespace Colonnade.Boundary

-- ===================================================== result codes

/-- How a call ended. -/
inductive ResultCode where
  | ok
  | failed (kind : ErrorKind)
deriving DecidableEq, Repr, Inhabited

namespace ResultCode

/-- The number of a result. -/
def number : ResultCode → Nat
  | ok => 0
  | failed kind => kind.index + 1

/-- The result with a number; a number without a result is a failure of
unknown kind. -/
def ofNumber (n : Int) : ResultCode :=
  if n = 0 then ok
  else if n < 0 then failed .runtimeError
  else
    match ErrorKind.ofIndex? (n.toNat - 1) with
    | some kind => failed kind
    | none => failed .runtimeError

/-- The kind of failure, if it is one. -/
def kind? : ResultCode → Option ErrorKind
  | ok => none
  | failed kind => some kind

/-- Whether the call succeeded. -/
def isOk (c : ResultCode) : Bool := c == ok

/-- A result is found again under its own number. -/
theorem ofNumber_number (c : ResultCode) : ofNumber c.number = c := by
  cases c with
  | ok => rfl
  | failed kind => cases kind <;> rfl

end ResultCode

-- ==================================================== absent keys

/-- What stands for a key that was not found. -/
def notFound : Int64 := -1

/-- An object key as an integer. -/
def objectNumber : Option ObjectKey → Int64
  | some k => k.raw
  | none => notFound

/-- A column key as an integer; a key that names no column was not found. -/
def columnNumber : Option ColumnKey → Int64
  | some k => if k.isValid then k.raw else notFound
  | none => notFound

/-- A count or index as an integer; one too large for the word was not
found. -/
def indexNumber : Option Nat → Int64
  | some n => if n < 0x8000000000000000 then Int64.ofNat n else notFound
  | none => notFound

-- ================================================== names and truth

/-- What the name of a class's table starts with. -/
def classMark : String := "class_"

/-- The name of the table of a class. -/
def tableOfClass (name : String) : String := classMark ++ name

/-- The class whose table has a name, if it is the table of a class. -/
def classOfTable? (table : String) : Option String :=
  let mark := classMark.toList
  if mark.isPrefixOf table.toList then
    some (String.ofList (table.toList.drop mark.length))
  else none

/-- Whether a byte means true: any but zero does. -/
def truthOfByte (b : UInt8) : Bool := b != 0

/-- The byte for a truth value. -/
def byteOfTruth (b : Bool) : UInt8 := if b then 1 else 0

end Colonnade.Boundary
