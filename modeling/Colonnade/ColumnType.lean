/-
The declared type of a column, with the codes by which the binding boundary
and the history log name it. The codes leave gaps (3, 5 to 7 and 11 name
nothing), so reading a code back is partial.

Chain: below `Error`, whose messages name types, and `Value`, whose cells
have them.
-/

namespace Colonnade

/-- What a column stores in each row. -/
inductive ColumnType where
  | int
  | bool
  | string
  | binary
  | timestamp
  | float
  | double
  | link
  | linkList
deriving DecidableEq, Repr, Inhabited

namespace ColumnType

/-- Every column type, in the order of the codes. -/
def all : List ColumnType :=
  [int, bool, string, binary, timestamp, float, double, link, linkList]

/-- The number that stands for the type outside the store. -/
def code : ColumnType → Nat
  | int => 0
  | bool => 1
  | string => 2
  | binary => 4
  | timestamp => 8
  | float => 9
  | double => 10
  | link => 12
  | linkList => 13

/-- The type that a code stands for, if it stands for one. -/
def ofCode? (n : Int) : Option ColumnType :=
  all.find? fun t => (t.code : Int) == n

/-- The lower-case name that messages use. -/
def name : ColumnType → String
  | int => "int"
  | bool => "bool"
  | string => "string"
  | binary => "binary"
  | timestamp => "timestamp"
  | float => "float"
  | double => "double"
  | link => "link"
  | linkList => "linklist"

instance : ToString ColumnType := ⟨name⟩

/-- Whether cells of the type point into another table. -/
def isLink : ColumnType → Bool
  | link | linkList => true
  | _ => false

/-- The type of one element: a list of links holds links, and every other
type holds values of itself. -/
def elementType : ColumnType → ColumnType
  | linkList => link
  | t => t

/-- A type is read back from its own code. -/
theorem ofCode?_code (t : ColumnType) : ofCode? t.code = some t := by
  cases t <;> rfl

end ColumnType

end Colonnade
