/-
Recovery: from a log back to the snapshot of its last commit. The records
are carried out in order on the empty database. Each must be of the version
after the one before it, and each instruction must be possible; neither can
fail for a log that commits have written, so a failure is damage and is
reported at the record's offset.

Chain: opening a database over a log starts from what this gives.
-/
import Colonnade.History.Log
import Colonnade.Snapshot

namespace Colonnade

namespace Snapshot

/-- Carries out one instruction of a record at an offset; that it cannot be
carried out is damage in the record. -/
def replayInstruction (offset : Nat) (i : Instruction) :
    Edit Snapshot Unit := do
  match ← Edit.attempt (Snapshot.apply .none i) with
  | .ok () => pure ()
  | .error e =>
    throw (.corrupt offset (.notReplayable i.opName e.message))

/-- Carries out a record, which must be of the version after the current
one. -/
def replayRecord (offset : Nat) (r : CommitRecord) : Edit Snapshot Unit := do
  let expected := (← get).version.next
  if r.version ≠ expected then
    throw (.corrupt offset (.versionGap expected r.version))
  r.instructions.forM (replayInstruction offset)
  modify fun s => { s with version := r.version }

end Snapshot

namespace HistoryLog

/-- The snapshot that the log leads to from the empty database. -/
def recover : Edit HistoryLog Snapshot := fun log =>
  match (replay Snapshot.replayRecord).run (log, .empty) with
  | .ok _ (log, s) => .ok s log
  | .error e (log, _) => .error e log

end HistoryLog

end Colonnade
