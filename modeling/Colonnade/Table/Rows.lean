/-
The rows of a table: an array of the live object keys in slot order, and the
way back from a key to its slot. The two halves are kept in step: taking a
row out moves the last key into its slot, and the moved key is told so.

Chain: `Table` keeps one row index and one array of cells per column, all
with the same slots.
-/
import Colonnade.Key
import Colonnade.Slots

namespace Colonnade

/-- The live object keys by slot, and the slots by object key. -/
structure Rows where
  keys : Array ObjectKey := #[]
  slots : Std.TreeMap ObjectKey Nat := ∅

namespace Rows

instance : Inhabited Rows := ⟨{}⟩

/-- How many rows there are. -/
def size (r : Rows) : Nat := r.keys.size

/-- Whether an object is among the rows. -/
def contains (r : Rows) (key : ObjectKey) : Bool := r.slots.contains key

/-- The slot of an object. -/
def slot? (r : Rows) (key : ObjectKey) : Option Nat := r.slots[key]?

/-- The keys in ascending order. -/
def sortedKeys (r : Rows) : List ObjectKey :=
  r.keys.toList.mergeSort ObjectKey.le

/-- The rows with one more at the end. -/
def push (r : Rows) (key : ObjectKey) : Rows :=
  ⟨r.keys.push key, r.slots.insert key r.keys.size⟩

/-- The rows without an object, whose slot the last row takes over. -/
def remove (r : Rows) (key : ObjectKey) (slot : Nat) : Rows :=
  let keys := Slots.vacate r.keys slot
  let slots := r.slots.erase key
  match keys[slot]? with
  | none => ⟨keys, slots⟩
  | some moved => ⟨keys, slots.insert moved slot⟩

end Rows

end Colonnade
