/-
The history log: a store together with how it is written. Appending a
commit is all or nothing as far as the store lets it be: if the append, the
flush or the sync fails, the store is cut back to where it was, and only if
that fails as well is the log left with the start of a record in it.

Replaying a log reads it from the start and cuts off a torn tail, so that
the next append continues after the last whole record.

Chain: an engine with a log appends each commit to it before publishing.
-/
import Colonnade.History.Reader

namespace Colonnade

/-- A store with the rules for writing to it. -/
structure HistoryLog where
  store : Store
  syncOnCommit : Bool
  format : UInt16
deriving DecidableEq, Repr

namespace HistoryLog

instance : Inhabited HistoryLog := ⟨⟨default, true, 1⟩⟩

/-- The log over a store, as a configuration wants it written. -/
def ofStore (store : Store) (config : Config) : HistoryLog :=
  ⟨store, config.syncOnCommit, config.formatVersion⟩

/-- How many bytes the log holds. -/
def size (log : HistoryLog) : Nat := log.store.size

/-- Runs a step of the store; its refusal is handed on as a value. -/
def onStore {α : Type} (step : EStateM StoreFault Store α) :
    Edit HistoryLog (Except StoreFault α) := fun log =>
  match step.run log.store with
  | .ok a store => .ok (.ok a) { log with store }
  | .error e store => .ok (.error e) { log with store }

/-- Writes the bytes of a commit and sees them as far as is asked for. -/
def write (data : Bytes) (sync : Bool) : EStateM StoreFault Store Nat := do
  let offset ← Store.append data
  Store.flush
  if sync then
    Store.sync
  return offset

/-- Appends a commit and gives the place where it starts; if it cannot be
written, the log is as long as before. -/
def appendCommit (record : CommitRecord) : Edit HistoryLog Nat := do
  let log ← get
  let data ← Wire.encode log.format record
  let start := log.size
  match ← onStore (write data log.syncOnCommit) with
  | .ok offset => return offset
  | .error failed =>
    match ← onStore (Store.truncate start) with
    | .ok () => throw (.storage failed)
    | .error restore => throw (.fatal (.logNotRestored failed restore))

/-- Reads the log from the start and cuts off its torn tail. -/
def replay {σ : Type} (visit : Nat → CommitRecord → Edit σ Unit) :
    Edit (HistoryLog × σ) History.Summary := do
  let (log, _) ← get
  let done ← Edit.focus Prod.snd (fun s p => (p.1, s))
    (History.read log.store visit)
  if 0 < done.tornTail then
    match ← Edit.focus Prod.fst (fun l p => (l, p.2))
        (onStore (Store.truncate done.validLength)) with
    | .ok () => pure ()
    | .error e => throw (.storage e)
  return done

end HistoryLog

end Colonnade
