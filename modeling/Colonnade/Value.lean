/-
Cell values: absence, or one of eight kinds of content. Two values are the
same when they are equal as data, floating-point numbers by their patterns.
Searching compares differently: `Value.equal` compares numbers as numbers,
so a NaN is found by nothing and either zero finds the other.

Chain: what columns hold and instructions carry.
-/
import Colonnade.Timestamp
import Colonnade.Number.Text
import Colonnade.Text.Quoted
import Colonnade.Text.Utf8

namespace Colonnade

/-- The content of one cell. -/
inductive Value where
  | null
  | int (n : Int64)
  | bool (b : Bool)
  | string (s : String)
  | binary (bytes : Bytes)
  | timestamp (t : Timestamp)
  | float (x : Number.Single)
  | double (x : Number.Double)
  | link (key : ObjectKey)
deriving DecidableEq, Inhabited

namespace Value

/-- The column type a value belongs to; absence belongs to none. -/
def columnType? : Value → Option ColumnType
  | null => none
  | int _ => some .int
  | bool _ => some .bool
  | string _ => some .string
  | binary _ => some .binary
  | timestamp _ => some .timestamp
  | float _ => some .float
  | double _ => some .double
  | link _ => some .link

/-- Whether the value is absence. -/
def isNull : Value → Bool
  | null => true
  | _ => false

-- ========================================== the content, by kind

def int? : Value → Option Int64
  | int n => some n
  | _ => none

def bool? : Value → Option Bool
  | bool b => some b
  | _ => none

def string? : Value → Option String
  | string s => some s
  | _ => none

def binary? : Value → Option Bytes
  | binary bytes => some bytes
  | _ => none

def timestamp? : Value → Option Timestamp
  | timestamp t => some t
  | _ => none

def float? : Value → Option Number.Single
  | float x => some x
  | _ => none

def double? : Value → Option Number.Double
  | double x => some x
  | _ => none

def link? : Value → Option ObjectKey
  | link key => some key
  | _ => none

-- ============================================ comparison and text

/-- Equality as searching sees it: numbers by their value. -/
def equal : Value → Value → Bool
  | float x, float y => x.equal y
  | double x, double y => x.equal y
  | v, w => v == w

/-- The text of a value. -/
def text : Value → String
  | null => "null"
  | int n => toString n
  | bool b => if b then "true" else "false"
  | string s => Text.quoted s
  | binary bytes => s!"<{bytes.length} bytes>"
  | timestamp t => toString t
  | float x => x.text .plain
  | double x => x.text .plain
  | link key => toString key

instance : ToString Value := ⟨text⟩

end Value

/-- What a required cell of a type holds before anything is written to
it. -/
def ColumnType.defaultValue : ColumnType → Value
  | int => .int 0
  | bool => .bool false
  | string => .string ""
  | binary => .binary []
  | timestamp => .timestamp .epoch
  | float => .float ⟨0⟩
  | double => .double ⟨0⟩
  | link | linkList => .null

/-- A default has the type it is the default of, links apart, which are
absent by default. -/
theorem ColumnType.columnType?_defaultValue (t : ColumnType) :
    t.defaultValue.columnType? = if t.isLink then none else some t := by
  cases t <;> rfl

end Colonnade
