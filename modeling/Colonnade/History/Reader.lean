/-
Reading a history frame by frame. A frame that the store breaks off, in its
header or after it, is the torn end of an append that never finished; it
ends the reading without an error and is reported as the torn tail.
Anything else that is not a whole, checked, decodable frame is damage, and
the error carries the offset at which the frame starts.

Each record is handed to a visitor as soon as it is decoded, so a visitor
has seen every record before an error, and can stop the reading with an
error of its own.

Chain: `HistoryLog.replay` visits to rebuild a snapshot; listing and
verifying visit to report.
-/
import Colonnade.Edit
import Colonnade.Store
import Colonnade.Wire.Record

namespace Colonnade.History

/-- What a reading went through. -/
structure Summary where
  records : Nat := 0
  validLength : Nat := 0
  tornTail : Nat := 0
  newestFormat : UInt16 := 0
deriving DecidableEq, Repr

instance : Inhabited Summary := ⟨{}⟩

/-- A store's refusal as an error of the history. -/
def ofStore {α : Type} : Except StoreFault α → Except Error α
  | .ok a => .ok a
  | .error e => .error (.storage e)

/-- Damage in the record at an offset. -/
def ofRecord {α : Type} (offset : Nat) : Except Corruption α → Except Error α
  | .ok a => .ok a
  | .error e => .error (.corrupt offset e)

/-- The frame at an offset: its header and its record, or nothing if the
store breaks it off. -/
def frameAt? (store : Store) (offset : Nat) :
    Except Error (Option (Wire.Header × CommitRecord)) := do
  let remaining := store.size - offset
  if remaining < Wire.headerSize then
    return none
  let head ← ofStore (store.readAt offset Wire.headerSize)
  let header ← ofRecord offset (Wire.Header.parse head)
  if remaining < header.frameLength then
    return none
  let frame ← ofStore (store.readAt offset header.frameLength)
  let payload ← Wire.verifyFrame offset frame
  let record ← ofRecord offset (Wire.decodePayload payload)
  return some (header, record)

/-- Reads the frames from an offset on. -/
def readFrom {σ : Type} (store : Store)
    (visit : Nat → CommitRecord → Edit σ Unit) (offset : Nat)
    (done : Summary) : Edit σ Summary := do
  if _h : offset < store.size then
    match ← Edit.ofExcept σ (frameAt? store offset) with
    | none =>
      return { done with
        validLength := offset, tornTail := store.size - offset }
    | some (header, record) =>
      visit offset record
      readFrom store visit (offset + header.frameLength)
        { done with
          records := done.records + 1
          newestFormat := max done.newestFormat header.format }
  else
    return { done with
      validLength := offset, tornTail := store.size - offset }
termination_by store.size - offset
decreasing_by
  have : 0 < header.frameLength := by
    simp only [Wire.Header.frameLength, Wire.headerSize, Wire.headerFields,
      Wire.checksumSize]
    omega
  omega

/-- Reads a whole store. -/
def read {σ : Type} (store : Store)
    (visit : Nat → CommitRecord → Edit σ Unit) : Edit σ Summary :=
  readFrom store visit 0 {}

end Colonnade.History
