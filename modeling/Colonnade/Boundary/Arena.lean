/-
An arena lends integers for values. A handle is a generation above a slot
number: the slot says where the value is, the generation which of the
values that the slot has held it is. Releasing a value moves its slot to
the next generation, so every copy of the old handle misses from then on.
Generations have 31 bits and skip zero; handles are therefore positive, and
a zero never is one.

Chain: a session lends handles to transactions, tables and objects from
three arenas.
-/

namespace Colonnade.Boundary

/-- A slot: the generation of its present or next value, and the value. -/
structure ArenaSlot (α : Type) where
  generation : Nat
  value : Option α
deriving DecidableEq, Repr

/-- Values under integer handles. The free slots are a stack. -/
structure Arena (α : Type) where
  slots : Array (ArenaSlot α) := #[]
  free : List Nat := []
  size : Nat := 0
deriving DecidableEq, Repr

namespace Arena

variable {α : Type}

instance : Inhabited (Arena α) := ⟨{}⟩

-- ========================================================= handles

/-- How many slots a handle can tell apart. -/
def slotCount : Nat := 0x100000000

/-- How many generations a handle can tell apart, zero included. -/
def generationCount : Nat := 0x80000000

/-- The handle for a slot at a generation. -/
def pack (generation index : Nat) : Int64 :=
  Int64.ofNat (generation * slotCount + index % slotCount)

/-- The slot that an integer names; integers below one name none. -/
def index? (raw : Int64) : Option Nat :=
  if raw ≤ 0 then none else some (raw.toInt.toNat % slotCount)

/-- The generation that an integer names. -/
def generation (raw : Int64) : Nat :=
  raw.toUInt64.toNat / slotCount % generationCount

/-- The generation after another; zero is skipped. -/
def nextGeneration (g : Nat) : Nat :=
  let n := (g + 1) % generationCount
  if n = 0 then 1 else n

/-- The slot that a handle reaches, with its number. -/
def find? (a : Arena α) (raw : Int64) : Option (Nat × ArenaSlot α) := do
  let i ← index? raw
  let slot ← a.slots[i]?
  if slot.generation = generation raw then some (i, slot) else none

-- ====================================================== operations

/-- The value under a handle. -/
def get? (a : Arena α) (raw : Int64) : Option α :=
  a.find? raw >>= fun (_, slot) => slot.value

/-- Whether a handle is in use. -/
def contains (a : Arena α) (raw : Int64) : Bool := (a.get? raw).isSome

/-- Whether no handle is in use. -/
def isEmpty (a : Arena α) : Bool := a.size == 0

/-- Lends a handle for a value. -/
def insert (a : Arena α) (x : α) : Int64 × Arena α :=
  match a.free with
  | i :: free =>
    let g := (a.slots[i]?.map (·.generation)).getD 1
    (pack g i,
      { slots := a.slots.setIfInBounds i ⟨g, some x⟩
        free, size := a.size + 1 })
  | [] =>
    (pack 1 a.slots.size,
      { a with slots := a.slots.push ⟨1, some x⟩, size := a.size + 1 })

/-- Puts another value under a handle that is in use. -/
def replace (a : Arena α) (raw : Int64) (x : α) : Arena α :=
  match a.find? raw with
  | some (i, ⟨g, some _⟩) =>
    { a with slots := a.slots.setIfInBounds i ⟨g, some x⟩ }
  | _ => a

/-- Takes the value under a handle out; the handle is dead from now on. -/
def remove (a : Arena α) (raw : Int64) : Option α × Arena α :=
  match a.find? raw with
  | some (i, ⟨g, some x⟩) =>
    (some x,
      { slots := a.slots.setIfInBounds i ⟨nextGeneration g, none⟩
        free := i :: a.free
        size := a.size - 1 })
  | _ => (none, a)

/-- The handles in use, in slot order, with their values. -/
def entries (a : Arena α) : List (Int64 × α) :=
  a.slots.toList.zipIdx.filterMap fun (slot, i) =>
    slot.value.map fun x => (pack slot.generation i, x)

/-- Takes out every value that a test does not keep, in slot order. -/
def retain (a : Arena α) (keep : α → Bool) : Arena α :=
  (a.entries.filter fun (_, x) => !keep x).foldl
    (fun a (raw, _) => (a.remove raw).2) a

end Arena

end Colonnade.Boundary
