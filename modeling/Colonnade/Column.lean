/-
One column of one table: its declaration and an array of cells, one per row
slot. A plain column holds a value in each cell and a list column a list of
values; which of the two an array is follows from the declaration.

Writing is checked in two stages. `checkValue` and `checkElement` decide
whether a value may be written and give the reason if not; `put` then
stores it and fails only on a value that was never checked.

A cell for one more row needs room. A column that gets none is left as it
is.

Chain: `Table` keeps columns and moves their cells in step with its rows.
-/
import Colonnade.Column.Spec
import Colonnade.Config
import Colonnade.Edit
import Colonnade.Room
import Colonnade.Slots
import Colonnade.Value

namespace Colonnade

/-- What one cell holds: a value or a list of them. -/
inductive CellContent where
  | value (v : Value)
  | list (vs : List Value)
deriving DecidableEq, Inhabited

/-- The cells of a column, in slot order. -/
inductive Cells where
  | values (cells : Array Value)
  | lists (cells : Array (List Value))
deriving DecidableEq, Inhabited

namespace Cells

/-- How many cells there are. -/
def size : Cells → Nat
  | values cells => cells.size
  | lists cells => cells.size

/-- No cells, of the kind that a declaration asks for. -/
def empty (spec : ColumnSpec) : Cells :=
  if spec.isList then lists #[] else values #[]

/-- The cells without the one at a slot, the last one moved there. -/
def vacate (slot : Nat) : Cells → Cells
  | values cells => values (Slots.vacate cells slot)
  | lists cells => lists (Slots.vacate cells slot)

end Cells

/-- A column: its key, its declaration, and a cell for each row. -/
structure Column where
  key : ColumnKey
  spec : ColumnSpec
  cells : Cells
deriving DecidableEq, Inhabited

namespace Column

/-- How many rows the column has cells for. -/
def size (c : Column) : Nat := c.cells.size

/-- Whether the column has no cells. -/
def isEmpty (c : Column) : Bool := c.size == 0

-- ================================================ rows come and go

/-- What a new cell holds: absence where that is allowed, otherwise the
default of the type. -/
def freshValue (spec : ColumnSpec) : Value :=
  if spec.nullable then .null else spec.type.defaultValue

/-- The column with a cell for one more row. -/
def grow (c : Column) : Column :=
  match c.cells with
  | .values cells =>
    { c with cells := .values (cells.push (freshValue c.spec)) }
  | .lists cells => { c with cells := .lists (cells.push []) }

/-- Asks for room for so many more cells. -/
def reserve (c : Column) (room : Room) (n requested : Nat) :
    Except Error Unit :=
  room.ask n s!"column '{c.spec.name}'" requested

/-- The column with so many more cells, each with a request of its own from
the n-th on. -/
def fill (room : Room) (n : Nat) (c : Column) : Nat → Except Error Column
  | 0 => return c
  | rows + 1 => do
    c.reserve room n 1
    fill room (n + 1) c.grow rows

/-- A new column with cells for so many rows. Room for all of them is asked
for first. -/
def make (room : Room) (key : ColumnKey) (spec : ColumnSpec) (rows : Nat) :
    Except Error Column := do
  let c : Column := ⟨key, spec, .empty spec⟩
  c.reserve room 0 rows
  fill room 1 c rows

/-- Gives each of some columns a cell for one more row, with the requests
from the n-th on. The columns in front of one that gets no room keep their
new cell, those behind it are not reached. -/
def growEach (room : Room) (n : Nat) :
    List Column → EStateM.Result Error (List Column) Unit
  | [] => .ok () []
  | c :: cs =>
    match c.reserve room n 1 with
    | .error e => .error e (c :: cs)
    | .ok _ =>
      match growEach room (n + 1) cs with
      | .ok _ ds => .ok () (c.grow :: ds)
      | .error e ds => .error e (c.grow :: ds)

/-- Gives every column a cell for one more row, with the requests behind the
first. -/
def growAll (room : Room) : Edit (List Column) Unit := growEach room 1

/-- The column without the cell at a slot, the last cell moved there. -/
def vacate (c : Column) (slot : Nat) : Column :=
  { c with cells := c.cells.vacate slot }

-- ======================================================= reading

/-- The value at a slot; a slot without a value reads as absence. -/
def valueAt (c : Column) (slot : Nat) : Value :=
  match c.cells with
  | .values cells => cells[slot]?.getD .null
  | .lists _ => .null

/-- The list at a slot, if the column has lists and the slot is there. -/
def listAt? (c : Column) (slot : Nat) : Option (List Value) :=
  match c.cells with
  | .values _ => none
  | .lists cells => cells[slot]?

/-- What the cell at a slot holds; a slot that is not there holds nothing. -/
def contentAt (c : Column) (slot : Nat) : CellContent :=
  match c.listAt? slot with
  | some vs => .list vs
  | none => .value (c.valueAt slot)

/-- The slots whose value equals a given one; lists equal nothing. -/
def matchingSlots (c : Column) (v : Value) : List Nat :=
  (List.range c.size).filter fun slot =>
    !c.spec.isList && (c.valueAt slot).equal v

-- ================================================ what may be written

/-- Whether a value fits a cell: absence where it is allowed, content of the
type of one element, and no longer than the limits. -/
def checkCell (c : Column) (limits : Limits) (v : Value) :
    Except Error Unit :=
  let refuse why := throw (Error.illegalArgument why)
  match v.columnType? with
  | none => if c.spec.nullable then pure () else refuse (.nullRefused c.spec.name)
  | some given =>
    let expected := c.spec.type.elementType
    if given != expected then
      refuse (.typeMismatch given c.spec.name expected)
    else
      match v with
      | .string s =>
        if limits.maxString < s.utf8ByteSize then
          refuse (.stringTooLong s.utf8ByteSize limits.maxString
            (some c.spec.name))
        else pure ()
      | .binary bytes =>
        if limits.maxBinary < bytes.length then
          refuse (.binaryTooLong bytes.length limits.maxBinary c.spec.name)
        else pure ()
      | _ => pure ()

/-- Whether a value may be the content of a row. -/
def checkValue (c : Column) (limits : Limits) (v : Value) :
    Except Error Unit :=
  if c.spec.isList then
    throw (.illegalArgument (.valueForList c.spec.name))
  else c.checkCell limits v

/-- Whether a value may be an element of the list of a row. -/
def checkElement (c : Column) (limits : Limits) (v : Value) :
    Except Error Unit :=
  if !c.spec.isList then
    throw (.illegalArgument (.notAList c.spec.name))
  else if v.isNull && c.spec.type == .linkList then
    throw (.illegalArgument (.nullInLinkList c.spec.name))
  else c.checkCell limits v

-- ======================================================= writing

/-- Whether the cells can hold a value at all, checked or not. -/
def canHold (c : Column) (v : Value) : Bool :=
  !c.spec.isList &&
    (v.isNull || v.columnType? == some c.spec.type.elementType)

/-- Stores a checked value at a slot. -/
def put (slot : Nat) (v : Value) : Edit Column Unit := do
  let c ← get
  if c.size ≤ slot then
    throw (.fatal (.slotBeyondColumn slot c.spec.name c.size))
  match c.cells with
  | .values cells =>
    if c.canHold v then
      set { c with cells := .values (cells.setIfInBounds slot v) }
    else throw (.fatal (.uncheckedValue c.spec.name))
  | .lists _ => throw (.fatal (.uncheckedValue c.spec.name))

/-- Changes the list at a slot. -/
def editList (slot : Nat) (f : List Value → List Value) :
    Edit Column Unit := do
  let c ← get
  let refuse := throw (Error.illegalArgument (.notAList c.spec.name))
  match c.cells with
  | .values _ => refuse
  | .lists cells =>
    match cells[slot]? with
    | none => refuse
    | some list =>
      set { c with cells := .lists (cells.setIfInBounds slot (f list)) }

-- ========================================================= links

/-- Whether some cell links to an object. -/
def linksTo (c : Column) (key : ObjectKey) : Bool :=
  match c.cells with
  | .values cells =>
    c.spec.type == .link && cells.contains (.link key)
  | .lists cells =>
    c.spec.type == .linkList && cells.any (·.contains (.link key))

/-- The column without its links to an object: single links become absent,
and lists lose the entry. -/
def unlink (c : Column) (key : ObjectKey) : Column :=
  match c.cells with
  | .values cells =>
    if c.spec.type == .link then
      { c with
        cells := .values (cells.map fun v =>
          if v == .link key then .null else v) }
    else c
  | .lists cells =>
    if c.spec.type == .linkList then
      { c with
        cells := .lists (cells.map (·.filter (· != .link key))) }
    else c

end Column

end Colonnade
