/-
Trials of recovery. A crash is a history that lost every byte after some
place. Opening what is left must give exactly the commits that were whole
before the cut, so their number can be told beforehand from the places
where the commits end.

Chain: `expectedVersion` is what `reopenCut` is held against.
-/
import Colonnade.Engine

namespace Colonnade.Trial

/-- Where the commits of a history end. -/
def commitBoundaries (history : Bytes) : Except Error (List Nat) :=
  let visit (offset : Nat) (_ : CommitRecord) : Edit (List Nat) Unit :=
    modify (· ++ [offset])
  match (History.read (.memory history) visit).run [] with
  | .error e _ => .error e
  | .ok done starts =>
    .ok (starts.drop 1 ++
      if 0 < done.records then [done.validLength] else [])

/-- The version that a history cut at some place recovers to. -/
def expectedVersion (boundaries : List Nat) (cut : Nat) : Version :=
  ⟨UInt64.ofNat (boundaries.countP (· ≤ cut))⟩

/-- The database that the beginning of a history recovers to. -/
def reopenCut (history : Bytes) (cut : Nat) : Except Error Engine :=
  (Engine.openOver (.memory (history.take cut)) {}).1

end Colonnade.Trial
