/-
Every snapshot that an engine holds was reached by instructions: the current
one, and those that its transactions are shown, whatever their roles and
however they got there. `Wrought` says so. A handle carries out one
instruction at a time on the snapshot of its transaction, publishing numbers
one anew, and everything else hands a snapshot on as it is; so this outlasts
every event of a serial engine, with no bound on what is created and nothing
asked of the log.

What holds of every reached snapshot then holds wherever a handle reads or
writes.

Chain: `Engine.Misuse` uses it at every write, `Boundary.Served` carries it
to sessions.
-/
import Colonnade.Proofs.Engine.Stepped

namespace Colonnade.Engine

open Snapshot (Reached)

/-- Every snapshot that an engine holds was reached by instructions. -/
structure Wrought (e : Engine) : Prop where
  current : ∃ is, Reached is e.current
  shown : ∀ id t, e.transaction? id = some t →
    ∃ is, Reached is t.view.snapshot

variable {e e' : Engine} {id : TransactionId} {t : Transaction}

theorem wrought_starting {is : List Instruction} {s : Snapshot}
    (h : Reached is s) (log : Option HistoryLog) (limits : Limits) :
    (starting s log limits).Wrought := by
  refine ⟨⟨is, h⟩, fun id t ht => ?_⟩
  have hnone : (starting s log limits).transaction? id = none :=
    Std.TreeMap.getElem?_emptyc
  rw [hnone] at ht
  cases ht

namespace Wrought

theorem of_same (h : e'.Wrought) (hsame : Same e e') : e.Wrought where
  current := by
    rw [hsame.current_eq]
    exact h.current
  shown a u hu := h.shown a u ((hsame.transaction?_eq a).symm.trans hu)

/-- A transaction put in its place shows a reached snapshot. -/
theorem withTransaction (h : e.Wrought) (id : TransactionId)
    (ht : ∃ is, Reached is t.view.snapshot) :
    (e.withTransaction id t).Wrought where
  current := h.current
  shown a u hu := by
    rw [transaction?_withTransaction] at hu
    split at hu
    next =>
      cases hu
      exact ht
    next => exact h.shown a u hu

theorem opened (h : e.Wrought) (mode : ViewMode) (role : Role) :
    (e.opened mode role).Wrought where
  current := h.current
  shown := (h.withTransaction (t := ⟨{ mode, snapshot := e.current },
    e.version, role⟩) e.nextId h.current).shown

theorem begun (h : e.Wrought) : e.begun.Wrought :=
  have hopened := h.opened .writing (.writer .active true)
  ⟨hopened.current, hopened.shown⟩

theorem dropped (h : e.Wrought) (id : TransactionId) (t : Transaction) :
    (e.dropped id t).Wrought where
  current := h.current
  shown a u hu := by
    rw [transaction?_dropped] at hu
    split at hu
    next => cases hu
    next => exact h.shown a u hu

/-- A writer that is rolled back keeps its snapshot. -/
theorem aborted (h : e.Wrought) (ht : e.transaction? id = some t) :
    (e.aborted id t).Wrought :=
  have hclosed := h.withTransaction (t := t.rolledBack) id (h.shown id t ht)
  ⟨hclosed.current, hclosed.shown⟩

theorem nextOf (h : e.Wrought) (ht : e.transaction? id = some t) :
    ∃ is, Reached is (e.nextOf t) := by
  obtain ⟨is, his⟩ := h.shown id t ht
  exact ⟨is, his.renumber _⟩

/-- What a writer publishes is what it was shown, under another number. -/
theorem advanced (h : e.Wrought) (ht : e.transaction? id = some t)
    {u : Transaction} (hu : u.view.snapshot = e.nextOf t)
    (log : Option HistoryLog) (grown : Nat) :
    (e.advanced id t u log grown).Wrought := by
  have hnext := h.nextOf ht
  have hreplaced := h.withTransaction (t := u) id (hu ▸ hnext)
  exact ⟨hnext, hreplaced.shown⟩

theorem advancedTo (h : e.Wrought) (id : TransactionId) (t : Transaction) :
    (e.advancedTo id t).Wrought :=
  have hmoved := h.withTransaction (t := e.moved t) id h.current
  ⟨hmoved.current, hmoved.shown⟩

/-- The log plays no part in it. -/
theorem logged (h : e.Wrought) (log : Option HistoryLog) :
    ({ e with log } : Engine).Wrought :=
  ⟨h.current, h.shown⟩

end Wrought

/-- What a handle writes is one more instruction. -/
theorem lasting_wrought : Lasting Wrought := by
  intro e e' h hstep
  cases hstep with
  | counted => exact ⟨h.current, h.shown⟩
  | kept ht => exact h.withTransaction _ (h.shown _ _ ht)
  | wrote ht hwrote =>
      obtain ⟨is, his⟩ := h.shown _ _ ht
      exact h.withTransaction _
        ⟨_, his.step (Snapshot.apply_gives_iff.2 hwrote.applied)⟩

theorem Wrought.outcome (h : e.Wrought) {c : Call}
    {r : EStateM.Result Error Engine Unit} (houtcome : Outcome e c r)
    (hrun : c.run.run e = r) : (c.step e).Wrought := by
  cases houtcome with
  | handled hc hstar => exact lasting_wrought.star hstar h
  | idle =>
      rw [step_of_ok hrun]
      exact h
  | failed =>
      rw [step_of_error hrun]
      exact h
  | reading =>
      rw [step_of_ok hrun]
      have hopened := h.opened .reading .reader
      exact ⟨hopened.current, hopened.shown⟩
  | writing =>
      rw [step_of_ok hrun]
      exact h.begun
  | committed ht hrole hlog hsame =>
      rw [step_of_ok hrun]
      exact (h.advanced ht rfl _ _).of_same hsame
  | refused ht hrole hlog hsame =>
      rw [step_of_error hrun]
      exact ((h.aborted ht).logged _).of_same hsame
  | @handedOff id t log grown _ ht hrole hlog hsame =>
      rw [step_of_ok hrun]
      have hadvanced := h.advanced ht (u := e.reader t) rfl log grown
      -- a pin that moves is no part of what was wrought
      have hrepinned : ((e.advanced id t (e.reader t) log grown).repinned
          t.pinned (e.nextOf t).version).Wrought :=
        ⟨hadvanced.current, hadvanced.shown⟩
      exact hrepinned.of_same hsame
  | lost ht hrole hlog hsame =>
      rw [step_of_error hrun]
      exact (((h.aborted ht).dropped _ _).logged _).of_same hsame
  | consumed ht hidle =>
      rw [step_of_error hrun]
      exact h.dropped _ _
  | rolledBack ht hrole hsame =>
      rw [step_of_ok hrun]
      exact (h.aborted ht).of_same hsame
  | dropped ht hidle =>
      rw [step_of_ok hrun]
      exact h.dropped _ _
  | droppedWriter ht hrole hsame =>
      rw [step_of_ok hrun]
      exact ((h.aborted ht).dropped _ _).of_same hsame
  | moved ht hpinned =>
      rw [step_of_ok hrun]
      exact h.advancedTo _ _

/-- Every event leaves every snapshot reached. -/
theorem Wrought.step (h : e.Wrought) (hserial : e.Serial) (ev : Event) :
    (ev.step e).Wrought := by
  cases ev with
  | call c => exact h.outcome (hserial.outcome c) rfl
  | turn f => exact h.logged _

theorem Wrought.through (h : e.Wrought) (hserial : e.Serial)
    (events : List Event) : (e.through events).Wrought := by
  induction events generalizing e with
  | nil => exact h
  | cons ev evs ih =>
      exact ih (h.step hserial ev) ((hserial.step ev).serial hserial)

end Colonnade.Engine
