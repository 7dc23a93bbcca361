/-
Appending while the fault switch is turned. An append takes up to four steps
on the store: the frame goes in, it is flushed, it is synced if that is asked
for, and after a failure the log is cut back. The switch can be turned before
any of them, so a run is any list of such moves (`Appending.Move`). With no
turn among them the steps are those of `HistoryLog.appendCommit`
(`run_uninterrupted`).

So a store may take the frame and lose its sync after it was flushed. It
makes no difference. Until the end the log holds what it held, followed by
some of the frame, and by all of it once the frame has gone in; what follows
can be cut off, and cutting does not fail whatever the switch is set to.

Chain: `Engine.Untraced` puts this under the commits of an engine.
-/
import Colonnade.Proofs.Store

namespace Colonnade.HistoryLog

-- ============================================================= the moves

/-- How far an append has come. -/
inductive Appending.Stage where
  | begun
  | written (offset : Nat)
  | flushed (offset : Nat)
  | failed (fault : StoreFault)
  | ended (outcome : Except Error Nat)

/-- A log to which a frame is being appended. -/
structure Appending where
  log : HistoryLog
  stage : Appending.Stage

namespace Appending

/-- Takes a step on the store and goes on from how it ends. -/
def next {α : Type} (x : EStateM StoreFault Store α) (ok : α → Stage)
    (error : StoreFault → Stage) (a : Appending) : Appending :=
  match x.run a.log.store with
  | .ok r store => ⟨{ a.log with store }, ok r⟩
  | .error fault store => ⟨{ a.log with store }, error fault⟩

/-- The next step of appending a frame to a log of some length. -/
def step (length : Nat) (data : Bytes) (a : Appending) : Appending :=
  match a.stage with
  | .begun => a.next (Store.append data) .written .failed
  | .written offset =>
    a.next Store.flush
      (fun _ =>
        if a.log.syncOnCommit then .flushed offset else .ended (.ok offset))
      .failed
  | .flushed offset => a.next Store.sync (fun _ => .ended (.ok offset)) .failed
  | .failed fault =>
    a.next (Store.truncate length) (fun _ => .ended (.error (.storage fault)))
      fun restore => .ended (.error (.fatal (.logNotRestored fault restore)))
  | .ended _ => a

/-- The next step of the append, or somebody turning the switch. -/
inductive Move where
  | step
  | turn (f : Faults → Faults)

def move (length : Nat) (data : Bytes) (a : Appending) : Move → Appending
  | .step => a.step length data
  | .turn f => { a with log.store := a.log.store.mapFaults f }

def run (length : Nat) (data : Bytes) (a : Appending) (moves : List Move) :
    Appending :=
  moves.foldl (move length data) a

-- =================================================== with no turns

section Uninterrupted

variable {log : HistoryLog} {length : Nat} {data : Bytes} {fault : StoreFault}

/-- What an append does after the store has failed. -/
def giveUp (length : Nat) (fault : StoreFault) : Edit HistoryLog Nat := do
  match ← onStore (Store.truncate length) with
  | .ok () => throw (.storage fault)
  | .error restore => throw (.fatal (.logNotRestored fault restore))

/-- An encoded record is written, and given up where that fails. -/
theorem run_appendCommit {r : CommitRecord}
    (hencode : Wire.encode log.format r = .ok data) :
    (appendCommit r).run log
      = match (write data log.syncOnCommit).run log.store with
        | .ok offset store => .ok offset { log with store }
        | .error fault store => (giveUp log.size fault).run { log with store }
      := by
  unfold appendCommit giveUp
  rw [EStateM.run_bind, EStateM.run_get]
  dsimp only
  rw [hencode]
  show (onStore (write data log.syncOnCommit) >>= _).run log = _
  rw [EStateM.run_bind, run_onStore]
  cases (write data log.syncOnCommit).run log.store <;> rfl

theorem run_ended (outcome : Except Error Nat) (n : Nat) :
    run length data ⟨log, .ended outcome⟩ (List.replicate n .step)
      = ⟨log, .ended outcome⟩ := by
  induction n with
  | zero => rfl
  | succ n ih => exact ih

/-- A write that failed is given up in one more step. -/
theorem run_failed (n : Nat) :
    ∃ after outcome,
      run length data ⟨log, .failed fault⟩ (List.replicate (n + 1) .step)
        = ⟨after, .ended outcome⟩
      ∧ (giveUp length fault).run log
        = (liftM outcome : Edit HistoryLog Nat).run after := by
  rw [List.replicate_succ]
  show ∃ after outcome,
    run length data (next (Store.truncate length) _ _ ⟨log, _⟩) _ = _ ∧ _
  unfold giveUp next
  rw [EStateM.run_bind]
  unfold onStore
  dsimp only [EStateM.run]
  cases Store.truncate length log.store with
  | ok u store => exact ⟨_, _, run_ended _ _, rfl⟩
  | error restore store => exact ⟨_, _, run_ended _ _, rfl⟩

/-- Four steps in a row are an append. -/
theorem run_uninterrupted {r : CommitRecord}
    (hencode : Wire.encode log.format r = .ok data) :
    ∃ after outcome,
      run log.size data ⟨log, .begun⟩ (List.replicate 4 .step)
        = ⟨after, .ended outcome⟩
      ∧ (appendCommit r).run log
        = (liftM outcome : Edit HistoryLog Nat).run after := by
  rw [run_appendCommit hencode]
  unfold write
  dsimp only [bind, EStateM.bind, EStateM.run]
  -- each step of the run is one part of the write: bytes, flush, sync
  show ∃ after outcome, run log.size data
    (next (Store.append data) _ _ ⟨log, _⟩) (List.replicate 3 .step) = _ ∧ _
  unfold next
  dsimp only [EStateM.run]
  cases happend : Store.append data log.store with
  | error fault store => exact run_failed 2
  | ok offset store =>
      dsimp only
      show ∃ after outcome, run log.size data
        (next Store.flush _ _ ⟨{ log with store }, _⟩)
        (List.replicate 2 .step) = _ ∧ _
      unfold next
      dsimp only [EStateM.run]
      cases hflush : Store.flush store with
      | error fault store => exact run_failed 1
      | ok u store =>
          dsimp only
          cases hsync : log.syncOnCommit with
          | false => exact ⟨_, _, run_ended _ _, rfl⟩
          | true =>
              rw [if_pos rfl, if_pos rfl]
              dsimp only [EStateM.bind]
              show ∃ after outcome, run log.size data
                (next Store.sync _ _ ⟨⟨store, true, log.format⟩, _⟩)
                (List.replicate 1 .step) = _ ∧ _
              unfold next
              dsimp only [EStateM.run]
              cases Store.sync store with
              | error fault store => exact run_failed 0
              | ok u store => exact ⟨_, _, run_ended _ _, rfl⟩

end Uninterrupted

-- ========================================================== the tracking

/-- What is in the log at each stage. -/
def Tracks (format : UInt16) (bytes data : Bytes) (a : Appending) : Prop :=
  match a.stage with
  | .begun => a.log.Holds format bytes
  | .written _ | .flushed _ | .ended (.ok _) =>
    a.log.Holds format (bytes ++ data)
  | .failed _ => ∃ part, a.log.Holds format (bytes ++ part)
  | .ended (.error err) =>
    a.log.Holds format bytes ∧ ∃ fault, err = .storage fault

variable {format : UInt16} {bytes data : Bytes} {a : Appending}

/-- A step on the store keeps track if both of its ends do. -/
theorem tracks_next {α : Type} {x : EStateM StoreFault Store α}
    {P E : Store → Prop} {Q : α → Store → Prop} {ok : α → Stage}
    {error : StoreFault → Stage} (hends : Edit.Ends P x Q E)
    (hbefore : P a.log.store)
    (hok : ∀ r store, Q r store →
      Tracks format bytes data ⟨{ a.log with store }, ok r⟩)
    (herror : ∀ fault store, E store →
      Tracks format bytes data ⟨{ a.log with store }, error fault⟩) :
    Tracks format bytes data (a.next x ok error) := by
  have h := hends a.log.store hbefore
  unfold next
  cases hrun : x.run a.log.store with
  | ok r store =>
      rw [hrun] at h
      exact hok r store h
  | error fault store =>
      rw [hrun] at h
      exact herror fault store h

/-- A step keeps track. -/
theorem tracks_step (h : Tracks format bytes data a) :
    Tracks format bytes data (a.step bytes.length data) := by
  obtain ⟨log, stage⟩ := a
  cases stage with
  | begun =>
      obtain ⟨hformat, hexact, hbytes⟩ : log.Holds format bytes := h
      exact tracks_next (append_ends bytes data) ⟨hexact, hbytes⟩
        (fun _ _ h => ⟨hformat, h.1, h.2⟩)
        fun _ _ ⟨hexact, part, hbytes⟩ => ⟨part, hformat, hexact, hbytes⟩
  | written offset =>
      obtain ⟨hformat, hexact, hbytes⟩ : log.Holds format (bytes ++ data) := h
      refine tracks_next (settle_ends bytes data "flush") ⟨hexact, hbytes⟩
        (fun _ store h => ?_)
        fun _ _ ⟨hexact, part, hbytes⟩ => ⟨part, hformat, hexact, hbytes⟩
      have hholds : HistoryLog.Holds format (bytes ++ data)
        { log with store } := ⟨hformat, h.1, h.2⟩
      dsimp only
      split
      · exact hholds
      · exact hholds
  | flushed offset =>
      obtain ⟨hformat, hexact, hbytes⟩ : log.Holds format (bytes ++ data) := h
      exact tracks_next (settle_ends bytes data "sync") ⟨hexact, hbytes⟩
        (fun _ _ h => ⟨hformat, h.1, h.2⟩)
        fun _ _ ⟨hexact, part, hbytes⟩ => ⟨part, hformat, hexact, hbytes⟩
  | failed fault =>
      obtain ⟨part, hformat, hexact, hbytes⟩ :
        ∃ part, log.Holds format (bytes ++ part) := h
      exact tracks_next (truncate_ends bytes) ⟨hexact, part, hbytes⟩
        (fun _ _ h => ⟨⟨hformat, h.1, h.2⟩, fault, rfl⟩) fun _ _ h => h.elim
  | ended outcome => exact h

/-- Turning the switch keeps track. -/
theorem tracks_turn (h : Tracks format bytes data a) (f : Faults → Faults) :
    Tracks format bytes data (a.move bytes.length data (.turn f)) := by
  obtain ⟨log, stage⟩ := a
  cases stage with
  | begun => exact Holds.mapFaults h f
  | written offset => exact Holds.mapFaults h f
  | flushed offset => exact Holds.mapFaults h f
  | failed fault =>
      obtain ⟨part, h⟩ := h
      exact ⟨part, h.mapFaults f⟩
  | ended outcome =>
      cases outcome with
      | ok offset => exact Holds.mapFaults h f
      | error err => exact ⟨h.1.mapFaults f, h.2⟩

/-- Every run of an append is tracked. -/
theorem tracks_run {moves : List Move} (h : Tracks format bytes data a) :
    Tracks format bytes data (a.run bytes.length data moves) := by
  induction moves generalizing a with
  | nil => exact h
  | cons m ms ih =>
      cases m with
      | step => exact ih (tracks_step h)
      | turn f => exact ih (tracks_turn h f)

/-- However the switch is turned meanwhile, an append that fails leaves the
log as it was, and reports how the store has failed. -/
theorem run_error {log : HistoryLog} (h : log.Holds format bytes)
    {moves : List Move} {err : Error}
    (hended : (run log.size data ⟨log, .begun⟩ moves).stage
      = .ended (.error err)) :
    (run log.size data ⟨log, .begun⟩ moves).log.Holds format bytes
      ∧ ∃ fault, err = .storage fault := by
  have hsize : log.size = bytes.length := by
    rw [← h.bytes_eq]
    exact h.exact.size_eq
  have htracks : Tracks format bytes data
      (run bytes.length data ⟨log, .begun⟩ moves) := tracks_run h
  rw [hsize] at hended ⊢
  unfold Tracks at htracks
  rw [hended] at htracks
  exact htracks

end Appending

end Colonnade.HistoryLog
