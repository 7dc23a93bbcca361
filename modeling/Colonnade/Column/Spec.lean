/-
The declaration of a column: its name, type, whether its cells may be
absent, whether each cell is a list, and for links the table they point
into. A column of type list-of-links is a list whatever the caller says;
the type of declarations carries that rule, so no declaration contradicts
it.

`ColumnSpec.check` is the full list of what a table accepts, in the order
in which violations are reported.

Chain: carried by the instruction that adds a column and kept by `Column`.
-/
import Colonnade.Error

namespace Colonnade

/-- The declaration of a column. -/
structure ColumnSpec where
  name : String
  type : ColumnType
  nullable : Bool
  isList : Bool
  target : Option TableKey
  isList_of_linkList : type = .linkList → isList = true
deriving DecidableEq

namespace ColumnSpec

/-- A declaration without target. -/
def make (name : String) (type : ColumnType) (nullable list : Bool) :
    ColumnSpec :=
  ⟨name, type, nullable, list || type == .linkList, none, by
    rintro rfl
    simp⟩

/-- A column with one value in each row. -/
def scalar (name : String) (type : ColumnType) (nullable : Bool) :
    ColumnSpec :=
  make name type nullable false

/-- A column with a list of values in each row. -/
def list (name : String) (element : ColumnType) (nullable : Bool) :
    ColumnSpec :=
  make name element nullable true

/-- A column with at most one link in each row. -/
def link (name : String) (target : TableKey) : ColumnSpec :=
  ⟨name, .link, true, false, some target, nofun⟩

/-- A column with a list of links in each row. -/
def linkList (name : String) (target : TableKey) : ColumnSpec :=
  ⟨name, .linkList, false, true, some target, fun _ => rfl⟩

/-- The same declaration with links pointing into a table. -/
def withTarget (s : ColumnSpec) (target : TableKey) : ColumnSpec :=
  { s with target := some target }

instance : Inhabited ColumnSpec := ⟨make "" .int false false⟩

/-- Whether a table accepts the declaration, and if not, the first reason:
a name must not be empty, exactly links have a target, a column of single
links is no list and never required, and a list of links is never absent. -/
def check (s : ColumnSpec) : Except Error Unit := do
  if s.name.isEmpty then
    throw (.illegalArgument .emptyColumnName)
  if s.type.isLink && s.target.isNone then
    throw (.illegalArgument (.linkWithoutTarget s.name))
  if !s.type.isLink && s.target.isSome then
    throw (.illegalArgument (.targetWithoutLink s.name s.type))
  if s.type == .link && s.isList then
    throw (.illegalArgument (.listOfSingleLinks s.name))
  if s.type == .link && !s.nullable then
    throw (.illegalArgument (.linkNeverRequired s.name))
  if s.type == .linkList && s.nullable then
    throw (.illegalArgument (.listNeverNull s.name))

end ColumnSpec

end Colonnade
