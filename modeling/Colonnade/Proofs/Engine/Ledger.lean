/-
The log of an engine as a ledger of its commits. `committed` lists the
records of the commits that succeed along a run, and the log always holds
their frames, in that order, and nothing else (`Ledger.through`). Replaying
them leads to what is current.

A ledger does not ask that keys have not wrapped. Whether its records can be
read back is a matter of its length: as long as the log fits a store, none
of them names a negative object key (`keysNonneg_of_written`).

Chain: `Engine.Crash` opens a log that was cut, `Engine.Untraced` one behind
a store that failed.
-/
import Colonnade.Proofs.Engine.Serial
import Colonnade.Proofs.History.Cut
import Colonnade.Proofs.Snapshot.Counted

namespace Colonnade

open History (Visited Written)

-- =========================================================== versions

namespace Snapshot

/-- Each record that is replayed is one more version. -/
theorem version_of_visited {records : List CommitRecord} {s s' : Snapshot}
    (h : Visited Replays records s s') :
    s'.version.raw = s.version.raw + UInt64.ofNat records.length := by
  induction h with
  | nil s => exact (UInt64.add_zero _).symm
  | @cons r rs s t u hstep _ ih =>
      have hversion : t.version.raw = s.version.raw + 1 := by
        obtain ⟨v, -, rfl⟩ := hstep.applied
        exact congrArg Version.raw hstep.version_eq
      rw [ih, hversion, List.length_cons, UInt64.ofNat_add,
        UInt64.add_assoc, UInt64.add_comm (UInt64.ofNat rs.length)]
      rfl

/-- What records lead to from the empty database has their number for its
version. -/
theorem version_of_replays {records : List CommitRecord} {s : Snapshot}
    (h : Visited Replays records .empty s) :
    s.version = ⟨UInt64.ofNat records.length⟩ := by
  have hversion := version_of_visited h
  rw [show Snapshot.empty.version.raw = 0 from rfl, UInt64.zero_add]
    at hversion
  exact congrArg Version.mk hversion

end Snapshot

namespace Engine

variable {e e' : Engine} {rs : List CommitRecord}

-- ========================================================== the ledger

/-- The records that a run commits, in order. -/
def committed : Engine → List Event → List CommitRecord
  | _, [] => []
  | e, ev :: evs => (ev.record? e).toList ++ committed (ev.step e) evs

/-- The log holds the frames of these records, and they lead to what is
current. -/
structure Ledger (rs : List CommitRecord) (e : Engine) : Prop where
  holds : ∃ bytes, Rests bytes e.current e ∧ Written rs bytes
  replays : Visited Snapshot.Replays rs .empty e.current

/-- What leaves the log and what is current alone keeps the ledger. -/
theorem Ledger.kept (h : Ledger rs e) (hcurrent : e'.current = e.current)
    (hrests : ∀ bytes s, Rests bytes s e → Rests bytes s e') :
    Ledger rs e' := by
  obtain ⟨bytes, hholds, hwritten⟩ := h.holds
  refine ⟨⟨bytes, ?_, hwritten⟩, ?_⟩
  · rw [hcurrent]
    exact hrests bytes e.current hholds
  · rw [hcurrent]
    exact h.replays

/-- That the log rests outlasts what is done through transactions. -/
theorem lasting_rests (bytes : Bytes) (s : Snapshot) :
    Lasting (Rests bytes s) := by
  intro e e' h hstep
  cases hstep <;> exact ofLog_rests bytes s e _ rfl rfl h

/-- A commit enters its record into the ledger. -/
theorem Ledger.entered {t : Transaction} {grown : Nat} (h : Ledger rs e)
    (hbased : t.Based e.current e.limits)
    (hlog : appendTo (e.recordOf t) e.log = (.ok grown, e'.log))
    (hcurrent : e'.current = e.nextOf t) :
    Ledger (rs ++ [e.recordOf t]) e' := by
  obtain ⟨bytes, ⟨-, before, hbefore, hholds⟩, hwritten⟩ := h.holds
  rw [hbefore] at hlog
  obtain ⟨data, after, hafter, hencode, hholds'⟩ := appendTo_ok hlog hholds
  refine ⟨⟨bytes ++ data, ⟨rfl, after, hafter, hholds'⟩,
    hwritten.append hencode⟩, ?_⟩
  rw [hcurrent]
  exact h.replays.append (.of_encode rfl hbased.applied hencode)

/-- Every event enters what it commits, and nothing else. -/
theorem Ledger.stepped {record? : Option CommitRecord} (h : Ledger rs e)
    (hserial : e.Serial) (hstep : Stepped e record? e') :
    Ledger (rs ++ record?.toList) e' := by
  cases hstep with
  | aside haside =>
      rw [Option.toList_none, List.append_nil]
      exact h.kept haside.current_eq haside.rests
  | handled hstar =>
      rw [Option.toList_none, List.append_nil]
      refine h.kept ((lasting_current e.current).star hstar rfl) ?_
      exact fun bytes s hrests => (lasting_rests bytes s).star hstar hrests
  | began hfree =>
      rw [Option.toList_none, List.append_nil]
      exact h.kept rfl fun bytes s => ofLog_rests bytes s e _ rfl rfl
  | discarded ht hrole hended hcurrent hrests =>
      rw [Option.toList_none, List.append_nil]
      exact h.kept hcurrent hrests
  | committed ht hrole hended hlog hcurrent =>
      obtain ⟨-, -, -, hbased⟩ := hserial.active ht ⟨_, hrole⟩
      exact h.entered hbased hlog hcurrent

/-- The ledger of a run has what was committed before and what the run
commits. -/
theorem Ledger.through {events : List Event} (h : Ledger rs e)
    (hserial : e.Serial) :
    Ledger (rs ++ committed e events) (e.through events) := by
  induction events generalizing e rs with
  | nil =>
      rw [committed, List.append_nil]
      exact h
  | cons ev evs ih =>
      have hstep := hserial.step ev
      rw [committed, ← List.append_assoc]
      exact ih (h.stepped hserial hstep) (hstep.serial hserial)

-- ================================================ the length of a ledger

/-- Every instruction takes at least two bytes of the log. -/
theorem two_mul_length_of_written {bytes : Bytes} (h : Written rs bytes) :
    2 * (rs.flatMap (·.instructions)).length ≤ bytes.length := by
  induction h with
  | nil => exact Nat.le_refl 0
  | @cons r rs data rest hencode _ ih =>
      have hsize := Wire.length_of_encode hencode
      have hrecord := Wire.two_mul_length_le r
      unfold Wire.frameSize at hsize
      rw [List.flatMap_cons, List.length_append, List.length_append]
      omega

/-- A ledger whose log fits a store names no negative object keys. -/
theorem keysNonneg_of_written {bytes : Bytes} {s : Snapshot}
    (h : Written rs bytes) (hsize : bytes.length ≤ maxSize)
    (hreplays : Visited Snapshot.Replays rs .empty s) :
    History.KeysNonneg rs := by
  have hlength := two_mul_length_of_written h
  have hreached := Snapshot.reached_of_visited hreplays .empty
  rw [List.nil_append] at hreached
  have hmax : maxSize = 2 ^ 64 - 1 := by decide
  obtain ⟨-, hkeys⟩ := hreached.keysNonneg (by omega)
  intro r hr i hi
  exact hkeys i (List.mem_flatMap.2 ⟨r, hr, hi⟩)

end Engine

end Colonnade
