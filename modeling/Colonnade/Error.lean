/-
Why an operation of the store fails. Each kind of failure names its cause
as a value; the words for it are fixed here and nowhere else, so a proof
speaks of causes and a message is read off them.

`Error.kind` sorts the failures into the ten kinds that the binding
boundary reports. Everything that concerns stored bytes (a store fault, a
damaged history, a lock held elsewhere) is one kind, `fileError`: the caller
can do nothing but look at the file.

Chain: above `Key`, `ColumnType` and `StoreFault`; every operation from
`Timestamp` upward fails with an `Error`.
-/
import Colonnade.Key
import Colonnade.ColumnType
import Colonnade.Store.Fault
import Colonnade.Text.Hex

namespace Colonnade

-- ============================================== the kinds of failure

/-- The kinds of failure that callers tell apart. -/
inductive ErrorKind where
  | classNotFound
  | illegalArgument
  | indexOutOfBounds
  | unsupportedOperation
  | outOfMemory
  | fatalError
  | runtimeError
  | badVersion
  | illegalState
  | fileError
deriving DecidableEq, Repr, Inhabited

namespace ErrorKind

/-- Every kind, in the order of their numbers. -/
def all : List ErrorKind :=
  [classNotFound, illegalArgument, indexOutOfBounds, unsupportedOperation,
   outOfMemory, fatalError, runtimeError, badVersion, illegalState, fileError]

/-- The number of a kind, from 0. -/
def index : ErrorKind → Nat
  | classNotFound => 0
  | illegalArgument => 1
  | indexOutOfBounds => 2
  | unsupportedOperation => 3
  | outOfMemory => 4
  | fatalError => 5
  | runtimeError => 6
  | badVersion => 7
  | illegalState => 8
  | fileError => 9

/-- The kind with a number, if there is one. -/
def ofIndex? (n : Nat) : Option ErrorKind := all[n]?

/-- The name that is reported across the boundary. -/
def name : ErrorKind → String
  | classNotFound => "ClassNotFound"
  | illegalArgument => "IllegalArgument"
  | indexOutOfBounds => "IndexOutOfBounds"
  | unsupportedOperation => "UnsupportedOperation"
  | outOfMemory => "OutOfMemory"
  | fatalError => "FatalError"
  | runtimeError => "RuntimeError"
  | badVersion => "BadVersion"
  | illegalState => "IllegalState"
  | fileError => "FileError"

instance : ToString ErrorKind := ⟨name⟩

/-- Whether the engine or its surroundings, and not the caller, is at
fault. -/
def isEngineFault : ErrorKind → Bool
  | outOfMemory | fatalError | fileError => true
  | _ => false

/-- A kind is found again under its own number. -/
theorem ofIndex?_index (k : ErrorKind) : ofIndex? k.index = some k := by
  cases k <;> rfl

end ErrorKind

-- ============================================ arguments that are refused

/-- Why an argument is refused; nothing has been changed when it is. -/
inductive BadArgument where
  /-- A reason given in the caller's own words. -/
  | text (message : String)
  | nanosecondsOutOfRange (nanoseconds : Int32)
  | signsDiffer (seconds : Int64) (nanoseconds : Int32)
  | emptyColumnName
  | linkWithoutTarget (column : String)
  | targetWithoutLink (column : String) (type : ColumnType)
  | listOfSingleLinks (column : String)
  | linkNeverRequired (column : String)
  | listNeverNull (column : String)
  | columnExists (column table : String)
  | unknownColumn (key : ColumnKey) (table : String)
  | unknownObject (key : ObjectKey) (table : String)
  | unknownTable (key : TableKey)
  | readWholeList (column : String)
  | notAList (column : String)
  | valueForList (column : String)
  | nullInLinkList (column : String)
  | nullRefused (column : String)
  | typeMismatch (given : ColumnType) (column : String) (expected : ColumnType)
  | stringTooLong (length limit : Nat) (column : Option String)
  | binaryTooLong (length limit : Nat) (column : String)
  | noLinkTarget (target : TableKey) (column : String)
  | linkTargetGone (column : String)
  | linkToNothing (key : ObjectKey) (table : String)
  | emptyTableName
  | tableExists (table : String)
  | tableIsLinked (table source : String)
  | wrongColumnType (column : String)
  | objectNotInTable (key : ObjectKey)
  | negativeObjectKey (raw : Int64)
  | tooManyInstructions
  | payloadTooLarge
deriving DecidableEq, Repr, Inhabited

/-- The words for a refused argument. -/
def BadArgument.message : BadArgument → String
  | text m => m
  | nanosecondsOutOfRange n =>
    s!"nanoseconds {n} out of range for a timestamp"
  | signsDiffer s n =>
    s!"timestamp parts must share a sign, got {s}s and {n}ns"
  | emptyColumnName => "Column name must not be empty."
  | linkWithoutTarget c => s!"Link column '{c}' needs a target table."
  | targetWithoutLink c t =>
    s!"Column '{c}' of type {t} cannot have a link target."
  | listOfSingleLinks c =>
    s!"Column '{c}': use a linklist column for lists of links."
  | linkNeverRequired c => s!"Link column '{c}' is always nullable."
  | listNeverNull c => s!"List({c}) is not nullable."
  | columnExists c t => s!"Column '{c}' already exists in table '{t}'."
  | unknownColumn k t => s!"Column key {k} is not valid in table '{t}'."
  | unknownObject k t => s!"Object {k} does not exist in table '{t}'."
  | unknownTable k => s!"Table {k} does not exist."
  | readWholeList c => s!"'{c}' is a list; read it element-wise."
  | notAList c => s!"Column '{c}' is not a list."
  | valueForList c => s!"Cannot set a single value on list column '{c}'."
  | nullInLinkList c => s!"List({c}) cannot contain null links."
  | nullRefused c => s!"This field({c}) is not nullable."
  | typeMismatch g c e =>
    s!"Value of type {g} cannot be stored in '{c}' of type {e}."
  | stringTooLong n limit none =>
    "The length of 'String' value in UTF8 encoding is " ++
      s!"{n} which exceeds the max string length {limit}."
  | stringTooLong n limit (some c) =>
    "The length of 'String' value in UTF8 encoding is " ++
      s!"{n} which exceeds the max string length {limit} (field '{c}')."
  | binaryTooLong n limit c =>
    "The length of 'Binary' value is " ++
      s!"{n} which exceeds the max binary length {limit} (field '{c}')."
  | noLinkTarget k c => s!"Link target table {k} of '{c}' does not exist."
  | linkTargetGone c => s!"Link target table of '{c}' no longer exists."
  | linkToNothing k t => s!"Link target {k} does not exist in table '{t}'."
  | emptyTableName => "Table name must not be empty."
  | tableExists t => s!"Table '{t}' already exists."
  | tableIsLinked t s => s!"Table '{t}' is the target of a link in '{s}'."
  | wrongColumnType c => s!"ColumnType of '{c}' is invalid."
  | objectNotInTable k => s!"Object {k} does not exist in this table."
  | negativeObjectKey raw => s!"Invalid object key {raw}."
  | tooManyInstructions => "too many instructions in one commit"
  | payloadTooLarge => "history record payload too large"

-- ============================================ states that do not allow it

/-- Why the state of a transaction or handle does not allow an operation. -/
inductive BadState where
  /-- A reason given in the caller's own words. -/
  | text (message : String)
  | tableDetached
  | objectDetached
  | notWriting
  | alreadyCommitted
  | alreadyRolledBack
  | noSuchTransaction
deriving DecidableEq, Repr, Inhabited

/-- The words for a state that does not allow an operation. -/
def BadState.message : BadState → String
  | text m => m
  | tableDetached => "Table is no longer valid to operate on."
  | objectDetached =>
    "Object is no longer valid to operate on. " ++
      "Was it deleted by another thread?"
  | notWriting =>
    "Cannot modify managed objects outside of a write transaction."
  | alreadyCommitted => "The write transaction has already been committed."
  | alreadyRolledBack => "The write transaction has already been rolled back."
  | noSuchTransaction => "The transaction does not exist."

-- ========================================= contradictions inside the store

/-- What the store found wrong with itself. -/
inductive Contradiction where
  /-- A reason given in the caller's own words. -/
  | text (message : String)
  | tableKeyMismatch (given next : TableKey)
  | columnKeyMismatch (given next : ColumnKey) (table : String)
  | objectKeyMismatch (given next : ObjectKey) (table : String)
  | slotBeyondColumn (slot : Nat) (column : String) (length : Nat)
  | uncheckedValue (column : String)
  | columnVanished
  | otherInstruction (operation : String)
  | logNotRestored (append restore : StoreFault)
deriving DecidableEq, Repr, Inhabited

/-- The words for a contradiction. -/
def Contradiction.message : Contradiction → String
  | text m => m
  | tableKeyMismatch g n => s!"table key {g} does not match next key {n}"
  | columnKeyMismatch g n t =>
    s!"column key {g} does not match next key {n} in '{t}'"
  | objectKeyMismatch g n t =>
    s!"object key {g} does not match next key {n.raw} in '{t}'"
  | slotBeyondColumn s c n => s!"slot {s} beyond column '{c}' of length {n}"
  | uncheckedValue c => s!"unchecked value reached column '{c}'"
  | columnVanished => "column vanished"
  | otherInstruction op => s!"{op} recorded a different instruction"
  | logNotRestored a r =>
    s!"history log left inconsistent: append failed ({a}) " ++
      s!"and restore failed ({r})"

-- ================================================ damage in the history

/-- What is wrong with a record of the history. -/
inductive Corruption where
  | badMagic
  | headerChecksum (stored computed : UInt32)
  | unsupportedFormat (format : UInt16)
  | unknownRecordType (code : UInt8)
  | unexpectedEnd
  | unknownOpcode (code : UInt8)
  | negativeKey (raw : Int64)
  | notUtf8
  | unknownColumnType (code : UInt8)
  | unknownValueTag (tag : UInt8)
  | badTimestamp (reason : BadArgument)
  | linkListValue
  | trailingBytes
  | versionGap (expected found : Version)
  /-- The named instruction could not be applied; the text says why. -/
  | notReplayable (operation reason : String)
  /-- A reason given in the caller's own words. -/
  | text (message : String)
deriving DecidableEq, Repr, Inhabited

/-- The words for damage in a record. -/
def Corruption.message : Corruption → String
  | badMagic => "bad record magic"
  | headerChecksum s c =>
    "header checksum mismatch: expected " ++
      s!"{Text.hex32 s}, got {Text.hex32 c}"
  | unsupportedFormat n => s!"unsupported format version {n}"
  | unknownRecordType n => s!"unknown record type {n}"
  | unexpectedEnd => "unexpected end of payload"
  | unknownOpcode n => s!"unknown instruction opcode {n}"
  | negativeKey raw => s!"negative object key {raw}"
  | notUtf8 => "string is not valid UTF-8"
  | unknownColumnType n => s!"unknown column type {n}"
  | unknownValueTag n => s!"unknown value tag {n}"
  | badTimestamp why => why.message
  | linkListValue => "link list is not a value type"
  | trailingBytes => "trailing bytes after last instruction"
  | versionGap e f => s!"expected version {e}, found {f}"
  | notReplayable op why => s!"{op} cannot be replayed: {why}"
  | text m => m

-- ===================================================== the errors

/-- Why an operation of the store failed. -/
inductive Error where
  | classNotFound (name : String)
  | illegalArgument (why : BadArgument)
  | indexOutOfBounds (what : String) (index length : Nat)
  | unsupported (what : String)
  | outOfMemory (what : String) (requested : Nat)
  | fatal (what : Contradiction)
  | runtime (message : String)
  | badVersion (message : String)
  | illegalState (why : BadState)
  | storage (fault : StoreFault)
  | corrupt (offset : Nat) (what : Corruption)
  | locked (path : String)
  | checksum (offset : Nat) (stored computed : UInt32)
deriving DecidableEq, Repr, Inhabited

namespace Error

/-- The kind that a failure is reported as. -/
def kind : Error → ErrorKind
  | classNotFound _ => .classNotFound
  | illegalArgument _ => .illegalArgument
  | indexOutOfBounds _ _ _ => .indexOutOfBounds
  | unsupported _ => .unsupportedOperation
  | outOfMemory _ _ => .outOfMemory
  | fatal _ => .fatalError
  | runtime _ => .runtimeError
  | badVersion _ => .badVersion
  | illegalState _ => .illegalState
  | storage _ | corrupt _ _ | locked _ | checksum _ _ _ => .fileError

/-- The text of a failure. -/
def message : Error → String
  | classNotFound name => s!"class not found: {name}"
  | illegalArgument why => why.message
  | indexOutOfBounds what i n =>
    s!"index {i} out of bounds for {what} of length {n}"
  | unsupported what => s!"unsupported operation: {what}"
  | outOfMemory what n =>
    s!"out of memory: could not reserve {n} more slots for {what}"
  | fatal what => s!"fatal error: {what.message}"
  | runtime m => m
  | badVersion m => s!"bad version: {m}"
  | illegalState why => why.message
  | storage fault => s!"history file error: {fault}"
  | corrupt offset what =>
    s!"history corruption at offset {offset}: {what.message}"
  | locked path => s!"database at {path} is locked by another open handle"
  | checksum offset stored computed =>
    s!"checksum mismatch at offset {offset}: expected " ++
      s!"{Text.hex32 stored}, got {Text.hex32 computed}"

instance : ToString Error := ⟨message⟩

/-- A handle whose table is out of reach. -/
def tableDetached : Error := illegalState .tableDetached

/-- A handle whose object is out of reach. -/
def objectDetached : Error := illegalState .objectDetached

end Error

end Colonnade
