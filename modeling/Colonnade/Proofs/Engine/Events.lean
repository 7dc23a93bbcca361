/-
Events and what comes of them. An event is a call, whether it succeeds or
fails, or somebody turning the fault switch of the store behind the log.
Engines are looked at while they are `Serial`: ids are fresh, and the writer
slot is held by the one transaction that writes, which started from what is
current, or it is free and nobody writes.

`Outcome` is the table of what a call can come to in such an engine. Each
case says whether the call succeeds and writes out the engine that it
leaves, as `Engine.Outcomes` does for the operation behind the call. What
else is said of events splits on this table and runs no call again.

Chain: `Engine.Stepped` sums the table up in five cases for those who write,
`Engine.Turns` reads it for one transaction, and `Engine.Booked` for the pins.
-/
import Colonnade.Proofs.Engine.Handled
import Colonnade.Proofs.Engine.Outcomes
import Colonnade.Trial.Faults
import Mathlib.Logic.Relation

namespace Colonnade

/-- The transaction that a call is to commit. -/
def Call.commits? : Call → Option TransactionId
  | .commit id | .commitAndRead id => some id
  | _ => none

/-- A call that turns nothing over commits nothing. -/
theorem Call.commits?_of_handled {c : Call} (hc : c.turnsOver = false) :
    c.commits? = none := by
  cases c <;> first | rfl | cases hc

namespace Engine

-- ============================================================== events

/-- One thing that happens to an engine. -/
inductive Event where
  | call (c : Call)
  | turn (f : Faults → Faults)

/-- The engine with the switch of its store turned. -/
def turned (f : Faults → Faults) (e : Engine) : Engine :=
  { e with
    log := e.log.map fun log => { log with store := log.store.mapFaults f } }

/-- Turning the switches changes only the store. -/
theorem run_turn (f : Faults → Faults) (e : Engine) :
    (Trial.Faults.turn f).run e = .ok () (e.turned f) := rfl

namespace Event

/-- The engine after an event. -/
def step (e : Engine) : Event → Engine
  | call c => c.step e
  | turn f => e.turned f

/-- The record that an event commits, if it does commit one. -/
def record? (e : Engine) : Event → Option CommitRecord
  | call c =>
    match c.commits?, c.run.run e with
    | some id, .ok _ _ => (e.transaction? id).map e.recordOf
    | _, _ => none
  | turn _ => none

/-- Whether an event moves a transaction to another version. -/
def moves (e : Engine) (id : TransactionId) : Event → Bool
  | call (.advance a) =>
    a == id && match (advance a).run e with
      | .ok moved _ => moved
      | .error _ _ => false
  | _ => false

end Event

/-- The engine after a run of events. -/
def through (e : Engine) (events : List Event) : Engine :=
  events.foldl Event.step e

variable {e e' : Engine} {id : TransactionId} {t : Transaction}
  {log : Option HistoryLog} {grown : Nat} {err : Error}

-- ======================================================= the invariant

/-- Whether no transaction has an id that is yet to be handed out. -/
def Fresh (e : Engine) : Prop :=
  ∀ id t, e.transaction? id = some t → id.raw < e.nextId.raw

end Engine

/-- How a writer got from the current snapshot to its own. -/
structure Transaction.Based (current : Snapshot) (limits : Limits)
    (t : Transaction) : Prop where
  pinned_eq : t.pinned = current.version
  applied : Edit.Gives (Snapshot.applyAll limits t.view.changes.toList)
    current () t.view.snapshot

namespace Engine

variable {e e' : Engine} {id : TransactionId} {t : Transaction}
  {log : Option HistoryLog} {grown : Nat} {err : Error}

/-- The writer slot is free and nobody writes, or one transaction has it and
writes. -/
inductive Slot (e : Engine) : Prop
  | free (hbusy : e.writerBusy = false) (hnone : e.NoWriter)
  | held {id : TransactionId} {t : Transaction}
      (hbusy : e.writerBusy = true) (ht : e.transaction? id = some t)
      (hrole : t.role = .writer .active true) (hsole : Sole id e)
      (hbased : t.Based e.current e.limits)

/-- Writers come one after the other. -/
structure Serial (e : Engine) : Prop where
  fresh : e.Fresh
  slot : e.Slot

/-- Counters play no part in it. -/
theorem Slot.counted (h : e.Slot) (stats : Stats) :
    Slot { e with stats } := by
  cases h with
  | free hbusy hnone => exact .free hbusy hnone
  | held hbusy ht hrole hsole hbased =>
      exact .held hbusy ht hrole hsole hbased

/-- A starting engine is serial. -/
theorem serial_starting (s : Snapshot) (log : Option HistoryLog)
    (limits : Limits) : (starting s log limits).Serial := by
  have hnone (id : TransactionId) :
      (starting s log limits).transaction? id = none :=
    Std.TreeMap.getElem?_emptyc
  refine ⟨fun id t ht => ?_, .free rfl fun id t ht => ?_⟩
  · rw [hnone] at ht
    cases ht
  · rw [hnone] at ht
    cases ht

/-- Who writes has the slot, and nobody else writes. -/
theorem Serial.active (h : e.Serial) (ht : e.transaction? id = some t)
    (hw : t.IsWriting) :
    e.writerBusy = true ∧ t.role = .writer .active true ∧ Sole id e
      ∧ t.Based e.current e.limits := by
  cases h.slot with
  | free _ hnone => exact (hnone id t ht hw).elim
  | held hbusy hu hrole hsole hbased =>
      obtain rfl := hsole id t ht hw
      obtain rfl := Option.some.inj (ht.symm.trans hu)
      exact ⟨hbusy, hrole, hsole, hbased⟩

-- ================================================== what comes of a call

/-- A call whose outcome is left to its caller. -/
theorem run_done {α : Type} (x : Edit Engine α) (e : Engine) :
    (do let _ ← x : Edit Engine Unit).run e
      = match x.run e with
        | .ok _ e' => .ok () e'
        | .error err e' => .error err e' := by
  rw [EStateM.run_bind]
  cases x.run e <;> rfl

section Committing

variable {c : Call}

/-- A call that succeeds leaves the engine it gives. -/
theorem step_of_ok (hrun : c.run.run e = .ok () e') : c.step e = e' := by
  unfold Call.step
  rw [hrun]

/-- A call that fails leaves the engine it fails in. -/
theorem step_of_error (hrun : c.run.run e = .error err e') :
    c.step e = e' := by
  unfold Call.step
  rw [hrun]

/-- A commit that succeeds writes the record of its transaction. -/
theorem record?_of_ok (hc : c.commits? = some id)
    (hrun : c.run.run e = .ok () e') (ht : e.transaction? id = some t) :
    Event.record? e (.call c) = some (e.recordOf t) := by
  unfold Event.record?
  dsimp only
  rw [hc, hrun]
  dsimp only
  rw [ht]
  rfl

/-- A call that fails writes no record. -/
theorem record?_of_error (hrun : c.run.run e = .error err e') :
    Event.record? e (.call c) = none := by
  unfold Event.record?
  dsimp only
  rw [hrun]
  cases c.commits? <;> rfl

/-- A call that is no commit writes no record. -/
theorem record?_of_none (hc : c.commits? = none) :
    Event.record? e (.call c) = none := by
  unfold Event.record?
  dsimp only
  rw [hc]

end Committing

/-- What can come of a call: whether it succeeds, and the engine that it
leaves, up to what nobody can tell apart. -/
inductive Outcome (e : Engine) :
    Call → EStateM.Result Error Engine Unit → Prop
  | handled {c : Call} {r : EStateM.Result Error Engine Unit}
      (hc : c.turnsOver = false)
      (hstar : Relation.ReflTransGen Handled e (c.step e)) : Outcome e c r
  | idle {c : Call} (hc : c.commits? = none)
      (hstill : ∀ id, (Event.call c).moves e id = false) :
      Outcome e c (.ok () e)
  | failed {c : Call} {err : Error}
      (hstill : ∀ id, (Event.call c).moves e id = false) :
      Outcome e c (.error err e)
  | reading :
      Outcome e .beginRead (.ok () { e.opened .reading .reader with
        stats := { e.stats with
          readTransactions := e.stats.readTransactions + 1 } })
  | writing (hfree : e.writerBusy = false) :
      Outcome e .beginWrite (.ok () e.begun)
  | committed {id : TransactionId} {t : Transaction}
      {log : Option HistoryLog} {grown : Nat} {e' : Engine}
      (ht : e.transaction? id = some t)
      (hrole : t.role = .writer .active true)
      (hlog : appendTo (e.recordOf t) e.log = (.ok grown, log))
      (hsame : Same e' (e.advanced id t (e.shown t) log grown)) :
      Outcome e (.commit id) (.ok () e')
  | refused {id : TransactionId} {t : Transaction}
      {log : Option HistoryLog} {err : Error} {e' : Engine}
      (ht : e.transaction? id = some t)
      (hrole : t.role = .writer .active true)
      (hlog : appendTo (e.recordOf t) e.log = (.error err, log))
      (hsame : Same e' { e.aborted id t with log }) :
      Outcome e (.commit id) (.error err e')
  | handedOff {id : TransactionId} {t : Transaction}
      {log : Option HistoryLog} {grown : Nat} {e' : Engine}
      (ht : e.transaction? id = some t)
      (hrole : t.role = .writer .active true)
      (hlog : appendTo (e.recordOf t) e.log = (.ok grown, log))
      (hsame : Same e' ((e.advanced id t (e.reader t) log grown).repinned
        t.pinned (e.nextOf t).version)) :
      Outcome e (.commitAndRead id) (.ok () e')
  | lost {id : TransactionId} {t : Transaction}
      {log : Option HistoryLog} {err : Error} {e' : Engine}
      (ht : e.transaction? id = some t)
      (hrole : t.role = .writer .active true)
      (hlog : appendTo (e.recordOf t) e.log = (.error err, log))
      (hsame : Same e' { (e.aborted id t).dropped id t with log }) :
      Outcome e (.commitAndRead id) (.error err e')
  | consumed {id : TransactionId} {t : Transaction} {err : Error}
      (ht : e.transaction? id = some t) (hidle : ¬ t.IsWriting) :
      Outcome e (.commitAndRead id) (.error err (e.dropped id t))
  | rolledBack {id : TransactionId} {t : Transaction} {e' : Engine}
      (ht : e.transaction? id = some t)
      (hrole : t.role = .writer .active true)
      (hsame : Same e' (e.aborted id t)) :
      Outcome e (.rollback id) (.ok () e')
  | dropped {id : TransactionId} {t : Transaction}
      (ht : e.transaction? id = some t) (hidle : ¬ t.IsWriting) :
      Outcome e (.drop id) (.ok () (e.dropped id t))
  | droppedWriter {id : TransactionId} {t : Transaction} {e' : Engine}
      (ht : e.transaction? id = some t)
      (hrole : t.role = .writer .active true)
      (hsame : Same e' ((e.aborted id t).dropped id t)) :
      Outcome e (.drop id) (.ok () e')
  | moved {id : TransactionId} {t : Transaction}
      (ht : e.transaction? id = some t) (hpinned : e.version ≠ t.pinned) :
      Outcome e (.advance id) (.ok () (e.advancedTo id t))

theorem step_beginWrite_free (hfree : e.writerBusy = false) :
    Call.beginWrite.step e = e.begun := by
  have hdone : Call.beginWrite.run.run e = _ := run_done beginWrite? e
  rw [run_beginWrite_free hfree] at hdone
  exact step_of_ok hdone

/-- Beginning to write comes out by whether somebody writes. -/
theorem outcome_beginWrite (e : Engine) :
    Outcome e .beginWrite (Call.beginWrite.run.run e) := by
  have hdone : Call.beginWrite.run.run e = _ := run_done beginWrite? e
  cases hbusy : e.writerBusy with
  | true =>
      rw [hdone, run_beginWrite_busy hbusy]
      exact .idle rfl fun _ => rfl
  | false =>
      rw [hdone, run_beginWrite_free hbusy]
      exact .writing hbusy

/-- Advancing comes out by whether there is another version. -/
theorem outcome_advance (e : Engine) (id : TransactionId) :
    Outcome e (.advance id) ((Call.advance id).run.run e) := by
  have hdone : (Call.advance id).run.run e = _ := run_done (advance id) e
  have hstill {r : EStateM.Result Error Engine Bool}
      (hrun : (advance id).run e = r)
      (hr : ∀ e', r ≠ .ok true e') (a : TransactionId) :
      (Event.call (.advance id)).moves e a = false := by
    unfold Event.moves
    dsimp only
    rw [hrun]
    cases r with
    | ok moved e' =>
        cases moved with
        | true => exact (hr e' rfl).elim
        | false => exact Bool.and_false _
    | error err e' => exact Bool.and_false _
  cases ht : e.transaction? id with
  | none =>
      obtain ⟨err, hrun⟩ := run_advance_none ht
      rw [hdone, hrun]
      exact .failed (hstill hrun nofun)
  | some t =>
      by_cases hpinned : e.version = t.pinned
      · have hrun := run_advance_still ht hpinned
        rw [hdone, hrun]
        exact .idle rfl (hstill hrun nofun)
      · rw [hdone, run_advance_moved ht hpinned]
        exact .moved ht hpinned

section Serial

variable (h : e.Serial)

include h

/-- A commit comes out by what the log says. -/
theorem outcome_commit (id : TransactionId) :
    Outcome e (.commit id) ((Call.commit id).run.run e) := by
  have hdone : (Call.commit id).run.run e = _ := run_done (commit id) e
  by_cases hw : ∃ t, e.transaction? id = some t ∧ t.IsWriting
  · obtain ⟨t, ht, hw⟩ := hw
    obtain ⟨-, hrole, -, -⟩ := h.active ht hw
    cases hlog : appendTo (e.recordOf t) e.log with
    | mk outcome log =>
        cases outcome with
        | ok grown =>
            obtain ⟨e', hrun, hsame⟩ := run_commit_ok ht hrole hlog
            rw [hdone, hrun]
            exact .committed ht hrole hlog hsame
        | error err =>
            obtain ⟨e', hrun, hsame⟩ := run_commit_error ht hrole hlog
            rw [hdone, hrun]
            exact .refused ht hrole hlog hsame
  · have hnone (t : Transaction) (ht : e.transaction? id = some t) :
        ¬ t.IsWriting := fun hx => hw ⟨t, ht, hx⟩
    obtain ⟨err, hrun⟩ := run_commit_idle hnone
    rw [hdone, hrun]
    exact .failed fun _ => rfl

/-- A commit that goes on comes out by what the log says. -/
theorem outcome_commitAndRead (id : TransactionId) :
    Outcome e (.commitAndRead id) ((Call.commitAndRead id).run.run e) := by
  show Outcome e _ ((commitAndRead id).run e)
  cases ht : e.transaction? id with
  | none =>
      obtain ⟨err, hrun⟩ := run_commitAndRead_none ht
      rw [hrun]
      exact .failed fun _ => rfl
  | some t =>
      by_cases hw : t.IsWriting
      · obtain ⟨-, hrole, -, -⟩ := h.active ht hw
        cases hlog : appendTo (e.recordOf t) e.log with
        | mk outcome log =>
            cases outcome with
            | ok grown =>
                obtain ⟨e', hrun, hsame⟩ := run_commitAndRead_ok ht hrole hlog
                rw [hrun]
                exact .handedOff ht hrole hlog hsame
            | error err =>
                obtain ⟨e', hrun, hsame⟩ :=
                  run_commitAndRead_error ht hrole hlog
                rw [hrun]
                exact .lost ht hrole hlog hsame
      · obtain ⟨err, hrun⟩ := run_commitAndRead_idle ht hw
        rw [hrun]
        exact .consumed ht hw

/-- Rolling back comes out by whether the transaction writes. -/
theorem outcome_rollback (id : TransactionId) :
    Outcome e (.rollback id) ((Call.rollback id).run.run e) := by
  show Outcome e _ ((rollback id).run e)
  by_cases hw : ∃ t, e.transaction? id = some t ∧ t.IsWriting
  · obtain ⟨t, ht, hw⟩ := hw
    obtain ⟨-, hrole, -, -⟩ := h.active ht hw
    obtain ⟨e', hrun, hsame⟩ := run_rollback ht hrole
    rw [hrun]
    exact .rolledBack ht hrole hsame
  · have hnone (t : Transaction) (ht : e.transaction? id = some t) :
        ¬ t.IsWriting := fun hx => hw ⟨t, ht, hx⟩
    obtain ⟨err, hrun⟩ := run_rollback_idle hnone
    rw [hrun]
    exact .failed fun _ => rfl

/-- Dropping comes out by what is dropped. -/
theorem outcome_drop (id : TransactionId) :
    Outcome e (.drop id) ((Call.drop id).run.run e) := by
  show Outcome e _ ((drop id).run e)
  cases ht : e.transaction? id with
  | none =>
      rw [run_drop_none ht]
      exact .idle rfl fun _ => rfl
  | some t =>
      by_cases hw : t.IsWriting
      · obtain ⟨-, hrole, -, -⟩ := h.active ht hw
        obtain ⟨e', hrun, hsame⟩ := run_drop_active ht hrole
        rw [hrun]
        exact .droppedWriter ht hrole hsame
      · rw [run_drop_idle ht hw]
        exact .dropped ht hw

/-- Every call comes to one of these. -/
theorem Serial.outcome (c : Call) : Outcome e c (c.run.run e) := by
  have hhandled {c : Call} (hc : c.turnsOver = false) :
      Outcome e c (c.run.run e) :=
    .handled hc (Call.step_lasting (P := Relation.ReflTransGen Handled e)
      (fun _ _ hab hstep => hab.tail hstep) hc .refl)
  cases c with
  | beginRead =>
      have hdone : Call.beginRead.run.run e = _ := run_done beginRead e
      rw [hdone, run_beginRead]
      exact .reading
  | beginWrite => exact outcome_beginWrite e
  | commit id => exact outcome_commit h id
  | commitAndRead id => exact outcome_commitAndRead h id
  | rollback id => exact outcome_rollback h id
  | drop id => exact outcome_drop h id
  | advance id => exact outcome_advance e id
  | _ => exact hhandled rfl

end Serial

end Engine

end Colonnade
