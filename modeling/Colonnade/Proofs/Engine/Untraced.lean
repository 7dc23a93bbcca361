/-
A commit that fails leaves no trace. Whether the store gives out in the
middle of a frame or after it, and however its switch was turned before and
meanwhile, the engine is afterwards what a rollback would have made of it:
the log is cut back to what it held, nothing was published, the slot is
free, and no handle of the transaction works any more. All that is left is
what the switch has counted.

`NoTrace` says so of one failure by comparing two engines, the one after the
failing commit and the one after the rollback that could have been made in
its place. Both are written out in `Engine.Outcomes` as one and the same, up
to the log; that the logs hold the same bytes is a `Refusal`, and an exact
store gives no other kind.

Chain: `Engine.Ledger` follows the log along the runs in which this happens,
`Engine.Closures` takes the transactions apart that a closure is run in, and
`History.Appending` has what turns of the switch do to an append.
-/
import Colonnade.Proofs.Engine.Closures
import Colonnade.Proofs.Engine.Crash
import Colonnade.Proofs.History.Appending

namespace Colonnade

open History (Visited Written entries)
open Trial.Faults (stored)

-- ==================================================== why a log refuses

/-- Why a record was not appended: the store failed, or no frame is large
enough for it. -/
inductive CommitRecord.Refused (r : CommitRecord) (err : Error) : Prop
  | store {fault : StoreFault} (heq : err = .storage fault)
      (hkind : err.kind = .fileError)
  | frame (hencode : Wire.encode Wire.newestFormat r = .error err)
      (hkind : err.kind = .illegalArgument)

/-- A record that cannot be encoded is a bad argument. -/
theorem Wire.kind_of_encode_error {format : UInt16} {r : CommitRecord}
    {err : Error} (h : encode format r = .error err) :
    err.kind = .illegalArgument := by
  unfold encode at h
  split at h
  next => cases h; rfl
  next =>
    dsimp only at h
    split at h
    next => cases h; rfl
    next => cases h

namespace HistoryLog

variable {log after : HistoryLog} {bytes : Bytes} {r : CommitRecord}
  {err : Error}

/-- An exact store can always be cut back, so the failure that is reported
is the first one. -/
theorem Holds.refused (h : log.Holds Wire.newestFormat bytes)
    (hrun : (appendCommit r).run log = .error err after) : r.Refused err := by
  cases hencode : Wire.encode log.format r with
  | error err' =>
      unfold appendCommit at hrun
      rw [EStateM.run_bind, EStateM.run_get] at hrun
      dsimp only at hrun
      rw [hencode] at hrun
      cases hrun
      exact .frame (h.format_eq ▸ hencode) (Wire.kind_of_encode_error hencode)
  | ok data =>
      obtain ⟨ended, outcome, hsteps, happend⟩ :=
        Appending.run_uninterrupted hencode
      rw [happend] at hrun
      cases outcome with
      | ok offset => cases hrun
      | error err' =>
          cases hrun
          obtain ⟨-, fault, rfl⟩ :=
            Appending.run_error h (congrArg Appending.stage hsteps)
          exact .store rfl rfl

end HistoryLog

namespace Engine

variable {e e' : Engine} {id : TransactionId} {t : Transaction}
  {log : Option HistoryLog} {err : Error} {rs : List CommitRecord}

/-- What an engine has stored is what its log holds. -/
theorem stored_of_holds {format : UInt16} {bytes : Bytes} {log : HistoryLog}
    (hlog : e.log = some log) (hholds : log.Holds format bytes) :
    stored e = bytes := by
  unfold stored
  rw [hlog]
  exact hholds.bytes_eq

/-- What a ledger stores was written. -/
theorem Ledger.written (h : Ledger rs e) : Written rs (stored e) := by
  obtain ⟨bytes, ⟨-, log, hlog, hholds⟩, hwritten⟩ := h.holds
  rw [stored_of_holds hlog hholds]
  exact hwritten

/-- A record was not appended, and the log that is left holds what was
stored. -/
structure Refusal (e : Engine) (r : CommitRecord) (err : Error)
    (log : Option HistoryLog) : Prop where
  refused : r.Refused err
  left : ∃ after, log = some after ∧ after.store.bytes = stored e

/-- A log that does not take a record refuses it. -/
theorem Ledger.refusal {r : CommitRecord} (h : Ledger rs e)
    (hlog : appendTo r e.log = (.error err, log)) : Refusal e r err log := by
  obtain ⟨bytes, ⟨-, before, hbefore, hholds⟩, -⟩ := h.holds
  rw [hbefore] at hlog
  obtain ⟨after, rfl, hafter⟩ := appendTo_error hlog hholds
  refine ⟨?_, after, rfl, ?_⟩
  · unfold appendTo at hlog
    dsimp only at hlog
    cases hrun : (HistoryLog.appendCommit r).run before with
    | ok _ after =>
        rw [hrun] at hlog
        cases hlog
    | error err' after =>
        rw [hrun] at hlog
        cases hlog
        exact hholds.refused hrun
  · rw [stored_of_holds hbefore hholds]
    exact hafter.bytes_eq

/-- It is the same if the switch is turned while the frame goes in. -/
theorem Ledger.refusal_interrupted {r : CommitRecord} (h : Ledger rs e)
    {before : HistoryLog} (hbefore : e.log = some before) {data : Bytes}
    {moves : List HistoryLog.Appending.Move}
    (hended : (HistoryLog.Appending.run before.size data ⟨before, .begun⟩
      moves).stage = .ended (.error err)) :
    Refusal e r err (some (HistoryLog.Appending.run before.size data
      ⟨before, .begun⟩ moves).log) := by
  obtain ⟨bytes, ⟨-, log, hlog, hholds⟩, -⟩ := h.holds
  obtain rfl := Option.some.inj (hbefore.symm.trans hlog)
  obtain ⟨hafter, fault, rfl⟩ := HistoryLog.Appending.run_error hholds hended
  refine ⟨.store rfl rfl, _, rfl, ?_⟩
  rw [stored_of_holds hbefore hholds]
  exact hafter.bytes_eq

-- ========================================================== no handles

/-- No handle of a transaction works any more. -/
structure Detached (id : TransactionId) (e : Engine) : Prop where
  check : ∀ generation test, Anchor.check ⟨id, generation⟩ test e = false
  read : ∀ (α : Type) generation stale (f : Snapshot → Except Error α),
    ∃ e', (Anchor.read ⟨id, generation⟩ stale f).run e = .error stale e'
  write : ∀ generation stale build,
    ∃ e', (Anchor.write ⟨id, generation⟩ stale build).run e = .error stale e'

/-- Handles of what is gone are detached. -/
theorem detached_of_none (hnone : e.transaction? id = none) :
    Detached id e := by
  refine ⟨fun generation test => ?_, fun α generation stale f => ⟨e, ?_⟩,
    fun generation stale build => ⟨e, ?_⟩⟩
  · unfold Anchor.check
    dsimp only
    rw [hnone]
  · unfold Anchor.read
    rw [EStateM.run_bind, EStateM.run_get]
    dsimp only
    rw [hnone]
    rfl
  · unfold Anchor.write
    rw [EStateM.run_bind, EStateM.run_get]
    dsimp only
    rw [hnone]
    rfl

/-- Handles of a closed view are detached. -/
theorem detached_of_closed (ht : e.transaction? id = some t)
    (hclosed : t.view.mode = .closed) : Detached id e := by
  have hadmits (generation : UInt64) : t.view.admits generation = false := by
    unfold View.admits
    rw [hclosed]
    rfl
  refine ⟨fun generation test => ?_, fun α generation stale f => ?_,
    fun generation stale build => ?_⟩
  · unfold Anchor.check
    dsimp only
    rw [ht]
    dsimp only
    rw [hadmits, Bool.false_and]
  · unfold Anchor.read View.read
    rw [EStateM.run_bind, EStateM.run_get]
    dsimp only
    rw [ht]
    dsimp only
    rw [hadmits]
    exact ⟨_, rfl⟩
  · unfold Anchor.write View.write View.writeWithin
    rw [EStateM.run_bind, EStateM.run_get]
    dsimp only
    rw [ht]
    dsimp only
    rw [hadmits]
    exact ⟨_, rfl⟩

-- =========================================================== no trace

/-- The engines are the same but for how the stores behind their logs have
failed, and the stores hold the same bytes. -/
structure Alike (e e' : Engine) : Prop where
  same : Same { e with log := e'.log } e'
  stored_eq : stored e' = stored e

/-- A transaction was to be committed and was not. What is left is what is
left of a rollback, which has published nothing and stored nothing. -/
structure NoTrace (e : Engine) (id : TransactionId) (t : Transaction)
    (rolledBack : Engine) (err : Error) (e' : Engine) : Prop where
  alike : Alike rolledBack e'
  current_eq : e'.current = e.current
  stored_eq : stored e' = stored e
  writerBusy_eq : e'.writerBusy = false
  detached : Detached id e'
  refused : (e.recordOf t).Refused err

/-- Two ways of ending a transaction are compared by what both lead to, up
to the log. -/
theorem Refusal.noTrace (h : Refusal e (e.recordOf t) err log)
    {ended back : Engine} (hended : Ended e id ended)
    (hcurrent : ended.current = e.current) (hkept : ended.log = e.log)
    (hdetached : Detached id e') (hback : Same back ended)
    (hfailed : Same e' { ended with log }) :
    NoTrace e id t back err e' := by
  obtain ⟨hrefused, after, rfl, hafter⟩ := h
  have hstored : stored e' = stored e := by
    rw [← hafter]
    unfold stored
    rw [hfailed.log_eq]
    rfl
  have hback' : stored back = stored e := by
    unfold stored
    rw [hback.log_eq, hkept]
  have hsame : Same { back with log := some after }
      { ended with log := some after } := { hback with log_eq := rfl }
  refine ⟨⟨?_, hstored.trans hback'.symm⟩, hfailed.current_eq.trans hcurrent,
    hstored, hfailed.writerBusy_eq.trans hended.writerBusy_eq, hdetached,
    hrefused⟩
  rw [show e'.log = some after from hfailed.log_eq]
  exact hsame.trans hfailed.symm

/-- A refused record leaves no trace where its writer was aborted. -/
theorem Refusal.noTrace_aborted (h : Refusal e (e.recordOf t) err log)
    {back : Engine} (hback : Same back (e.aborted id t))
    (hfailed : Same e' { e.aborted id t with log }) :
    NoTrace e id t back err e' := by
  have hself : e'.transaction? id = some t.rolledBack :=
    (hfailed.transaction?_eq id).trans (transaction?_self e id _)
  exact h.noTrace (ended_aborted e id t e.log) rfl rfl
    (detached_of_closed hself rfl) hback hfailed

/-- A refused record leaves no trace where its writer was aborted and dropped.
-/
theorem Refusal.noTrace_dropped (h : Refusal e (e.recordOf t) err log)
    {back : Engine} (hback : Same back ((e.aborted id t).dropped id t))
    (hfailed : Same e' { (e.aborted id t).dropped id t with log }) :
    NoTrace e id t back err e' := by
  have hnone : ((e.aborted id t).dropped id t).transaction? id = none := by
    rw [transaction?_dropped, if_pos rfl]
  exact h.noTrace ((ended_aborted e id t e.log).dropped t) rfl rfl
    (detached_of_none ((hfailed.transaction?_eq id).trans hnone)) hback hfailed

-- ============================================== whatever it fails in

/-- Whatever a transaction is committed by, failing leaves no trace of it. A
`write` that fails so is like one whose closure fails in the end. And a
commit whose append is interrupted by turns of the switch, which leaves the
aborted engine over the log that the append has left, is no different. -/
structure FailsCleanly (e : Engine) : Prop where
  commit : ∀ id t err e', e.transaction? id = some t → t.IsWriting →
    (commit id).run e = .error err e' →
      e'.transaction? id = some t.rolledBack
      ∧ ∃ back, (rollback id).run e = .ok () back
        ∧ NoTrace e id t back err e'
  commitAndRead : ∀ id t err e', e.transaction? id = some t → t.IsWriting →
    (commitAndRead id).run e = .error err e' →
      ∃ back, (do rollback id; drop id : Edit Engine Unit).run e
          = .ok () back ∧ NoTrace e id t back err e'
  write : ∀ (α : Type) (f : TransactionId → Edit Engine α) a within t err e',
    e.writerBusy = false →
    (f e.nextId).run e.begun = .ok a (e.begun.through within) →
    (e.begun.through within).transaction? e.nextId = some t → t.IsWriting →
    (write f).run e = .error err e' →
      ∃ back, (write fun id => do
          let _ ← f id
          throw err : Edit Engine α).run e = .error err back
        ∧ NoTrace (e.begun.through within) e.nextId t back err e'
  interrupted : ∀ id t log data moves err, e.transaction? id = some t →
    t.IsWriting → e.log = some log →
    Wire.encode Wire.newestFormat (e.recordOf t) = .ok data →
    let a := HistoryLog.Appending.run log.size data ⟨log, .begun⟩ moves
    a.stage = .ended (.error err) →
      ∃ back, (rollback id).run e = .ok () back
        ∧ NoTrace e id t back err { e.aborted id t with log := some a.log }

/-- A commit that fails comes to a rollback. -/
theorem Ledger.commit_failsCleanly (h : Ledger rs e) (hserial : e.Serial)
    (ht : e.transaction? id = some t) (hw : t.IsWriting)
    (hrun : (commit id).run e = .error err e') :
    e'.transaction? id = some t.rolledBack
      ∧ ∃ back, (rollback id).run e = .ok () back
        ∧ NoTrace e id t back err e' := by
  obtain ⟨-, hrole, -, -⟩ := hserial.active ht hw
  cases hlog : appendTo (e.recordOf t) e.log with
  | mk outcome log =>
      cases outcome with
      | ok grown =>
          obtain ⟨made, hmade, -⟩ := run_commit_ok ht hrole hlog
          rw [hrun] at hmade
          cases hmade
      | error err' =>
          obtain ⟨kept, hkept, hsame⟩ := run_commit_error ht hrole hlog
          rw [hrun] at hkept
          cases hkept
          obtain ⟨back, hback, hsame'⟩ := run_rollback ht hrole
          exact ⟨(hsame.transaction?_eq id).trans (transaction?_self e id _),
            back, hback, (h.refusal hlog).noTrace_aborted hsame' hsame⟩

/-- A commit that was to go on and fails comes to a rollback and a drop. -/
theorem Ledger.commitAndRead_failsCleanly (h : Ledger rs e)
    (hserial : e.Serial) (ht : e.transaction? id = some t) (hw : t.IsWriting)
    (hrun : (commitAndRead id).run e = .error err e') :
    ∃ back, (do rollback id; drop id : Edit Engine Unit).run e = .ok () back
      ∧ NoTrace e id t back err e' := by
  obtain ⟨-, hrole, -, -⟩ := hserial.active ht hw
  cases hlog : appendTo (e.recordOf t) e.log with
  | mk outcome log =>
      cases outcome with
      | ok grown =>
          obtain ⟨made, hmade, -⟩ := run_commitAndRead_ok ht hrole hlog
          rw [hrun] at hmade
          cases hmade
      | error err' =>
          obtain ⟨kept, hkept, hsame⟩ := run_commitAndRead_error ht hrole hlog
          rw [hrun] at hkept
          cases hkept
          obtain ⟨back, hback, hsame'⟩ := run_rollback ht hrole
          have hself : back.transaction? id = some t.rolledBack :=
            (hsame'.transaction?_eq id).trans (transaction?_self e id _)
          refine ⟨back.dropped id t.rolledBack, ?_,
            (h.refusal hlog).noTrace_dropped (hsame'.dropped id t.rolledBack)
              hsame⟩
          rw [EStateM.run_bind, hback]
          exact run_drop_idle hself nofun

/-- A closure whose commit fails comes to one that fails itself. -/
theorem Ledger.write_failsCleanly {α : Type} {f : TransactionId → Edit Engine α}
    {a : α} {within : List Event} (hfree : e.writerBusy = false)
    (h : Ledger rs (e.begun.through within))
    (hserial : (e.begun.through within).Serial)
    (hf : (f e.nextId).run e.begun = .ok a (e.begun.through within))
    (ht : (e.begun.through within).transaction? e.nextId = some t)
    (hw : t.IsWriting) (hrun : (write f).run e = .error err e') :
    ∃ back, (write fun id => do
        let _ ← f id
        throw err : Edit Engine α).run e = .error err back
      ∧ NoTrace (e.begun.through within) e.nextId t back err e' := by
  obtain ⟨-, hrole, -, -⟩ := hserial.active ht hw
  have hok : (Edit.attempt (f e.nextId)).run e.begun
      = .ok (.ok a) (e.begun.through within) := by
    rw [Edit.run_attempt, hf]
  -- the closure that fails itself does the same up to its last step
  have hfails : (Edit.attempt (do
      let _ ← f e.nextId
      throw err : Edit Engine α)).run e.begun
      = .ok (.error err) (e.begun.through within) := by
    rw [Edit.run_attempt, EStateM.run_bind, hf]
    rfl
  rw [run_write_free hfree hok] at hrun
  cases hlog : appendTo ((e.begun.through within).recordOf t)
      (e.begun.through within).log with
  | mk outcome log =>
      cases outcome with
      | ok grown =>
          obtain ⟨made, hmade⟩ := run_settleWrite_ok a ht hrole hlog
          rw [hrun] at hmade
          cases hmade
      | error err' =>
          obtain ⟨kept, hkept, hsame⟩ :=
            run_settleWrite_refused a ht hrole hlog
          rw [hrun] at hkept
          cases hkept
          obtain ⟨back, hback, hsame'⟩ := run_settleWrite_error ht hrole
          refine ⟨back, ?_, (h.refusal hlog).noTrace_dropped hsame' hsame⟩
          rw [run_write_free hfree hfails]
          exact hback

/-- Along a run every commit that fails, fails cleanly. -/
theorem Ledger.failsCleanly (h : Ledger rs e) (hserial : e.Serial) :
    e.FailsCleanly where
  commit _ _ _ _ := h.commit_failsCleanly hserial
  commitAndRead _ _ _ _ := h.commitAndRead_failsCleanly hserial
  write _ _ _ within _ _ _ hfree hf ht hw hrun := by
    have hbegan : Ledger rs e.begun :=
      h.kept rfl fun bytes s => ofLog_rests bytes s e _ rfl rfl
    have hserial' : e.begun.Serial := hserial.begun hfree
    exact (hbegan.through hserial').write_failsCleanly hfree hserial'.through
      hf ht hw hrun
  interrupted _ _ _ _ _ _ ht hw hlog _ hended := by
    obtain ⟨-, hrole, -, -⟩ := hserial.active ht hw
    obtain ⟨back, hback, hsame⟩ := run_rollback ht hrole
    exact ⟨back, hback,
      (h.refusal_interrupted hlog hended).noTrace_aborted hsame (.refl _)⟩

-- ================================================== along a whole run

/-- What is stored opens to what is current. -/
theorem Ledger.reopens (h : Ledger rs e) (hsize : (stored e).length ≤ maxSize)
    (config : Config) :
    ∃ e', openOver (.memory (stored e)) config = (.ok e', .memory (stored e))
      ∧ e'.current = e.current := by
  have hkeys : History.KeysNonneg rs :=
    keysNonneg_of_written h.written hsize h.replays
  exact openOver_of_leadsTo ⟨rs, h.written.framed hkeys, h.replays⟩ config

/-- A database over a store that holds nothing starts with an empty
ledger. -/
theorem ledger_of_nil {store store' : Store} {config : Config}
    (hexact : store.Exact) (hbytes : store.bytes = [])
    (hformat : config.formatVersion = Wire.newestFormat)
    (hopen : openOver store config = (.ok e, store')) :
    e.Serial ∧ Ledger [] e := by
  obtain ⟨hserial, before, hledger, hkept⟩ := ledger_of_openOver .nil nofun
    (.nil _) (Nat.le_refl 0) hexact hbytes hformat hopen
  have hlength : before.length = 0 := by
    rw [← History.length_entries 0 before, ← hkept]
    rfl
  exact ⟨hserial, List.eq_nil_of_length_eq_zero hlength ▸ hledger⟩

/-- Over a store with a fault switch, whatever is called and however the
switch is turned: every commit that fails leaves no trace, also at the end of
a closure; every commit that succeeds is of the next version; and what is
stored are the frames of those that have succeeded, which opening leads to
what is current by. A `write` goes through events as well, so this holds of
the engine after it too. -/
theorem failed_commit_leaves_no_trace {faults : Faults} {config : Config}
    {start : Engine} {store : Store}
    (hformat : config.formatVersion = Wire.newestFormat)
    (hopen : openOver (.faulty (.memory []) faults) config
      = (.ok start, store)) (events : List Event) :
    let e := start.through events
    e.FailsCleanly
      ∧ (∀ (c : Call) id e', c.commits? = some id → c.run.run e = .ok () e' →
        e'.version = e.version.next)
      ∧ (∀ (α : Type) (f : TransactionId → Edit Engine α) outcome within,
        (e.writerBusy = false → (Edit.attempt (f e.nextId)).run e.begun
          = .ok outcome (e.begun.through within)) →
        ∃ (result : Except Error α) (after : List Event), (write f).run e
          = (liftM result : Edit Engine α).run
              (start.through (events ++ after)))
      ∧ Written (committed start events) (stored e)
      ∧ ((stored e).length ≤ maxSize → ∀ config', ∃ e',
        openOver (.memory (stored e)) config' = (.ok e', .memory (stored e))
          ∧ Visited Snapshot.Replays (committed start events) .empty e'.current
          ∧ e'.current = e.current) := by
  intro e
  have hexact : (Store.faulty (.memory []) faults).Exact := trivial
  obtain ⟨hstart, hempty⟩ := ledger_of_nil hexact rfl hformat hopen
  have hserial : e.Serial := hstart.through
  have hledger : Ledger (committed start events) e := hempty.through hstart
  refine ⟨hledger.failsCleanly hserial, fun c id e' hc hrun => ?_,
    fun α f outcome within hf => ?_, hledger.written,
    fun hsize config' => ?_⟩
  · obtain ⟨t, -, -, hpublishes⟩ := hserial.publishes hc hrun
    exact hpublishes.version_eq
  · obtain ⟨result, after, hrun⟩ := write_through hserial hf
    exact ⟨result, after, through_append start events after ▸ hrun⟩
  · obtain ⟨e', hopens, hcurrent⟩ := hledger.reopens hsize config'
    exact ⟨e', hopens, hcurrent ▸ hledger.replays, hcurrent⟩

/-- A new database over a store with a switch. -/
def switched : Engine :=
  starting .empty (some (.ofStore (.faulty (.memory []) {}) {}))
    ({} : Config).limits

theorem openOver_switched :
    openOver (.faulty (.memory []) {}) {}
      = (.ok switched, .faulty (.memory []) {}) := by
  have hexact : (HistoryLog.ofStore (.faulty (.memory []) {}) {}).store.Exact :=
    trivial
  have hrecover := HistoryLog.recover_of_leadsTo hexact HistoryLog.leadsTo_nil
  exact openOver_eq_ok.2 ⟨_, _, hrecover, rfl, rfl⟩

/-- One commit goes through; before the next the store is set to fail within
the frame. -/
def givesOut : List Event :=
  firstCommit.map .call
    ++ [.call .beginWrite, .call (.addTable ⟨2⟩ "u"),
      .turn (·.failAppendsAfter 5)]

/-- The second commit fails in the middle of its frame, and the first is
still there to be opened. -/
theorem failed_commit_leaves_no_trace_givesOut :
    ∃ t err e' back,
      (commit ⟨2⟩).run (switched.through givesOut) = .error err e'
      ∧ (rollback ⟨2⟩).run (switched.through givesOut) = .ok () back
      ∧ NoTrace (switched.through givesOut) ⟨2⟩ t back err e'
      ∧ err.kind = .fileError
      ∧ Written (committed switched givesOut)
        (stored (switched.through givesOut))
      ∧ (committed switched givesOut).length = 1 := by
  obtain ⟨hclean, -, -, hwritten, -⟩ :=
    failed_commit_leaves_no_trace rfl openOver_switched givesOut
  have hwriter : ((switched.through givesOut).transaction? ⟨2⟩).any
      (fun t => t.role = .writer .active true) = true := by decide +kernel
  obtain ⟨t, ht, hrole⟩ := (Option.any_eq_true _ _).1 hwriter
  have hkind : (match (commit ⟨2⟩).run (switched.through givesOut) with
      | .ok _ _ => none
      | .error err _ => some err.kind) = some .fileError := by decide +kernel
  cases hrun : (commit ⟨2⟩).run (switched.through givesOut) with
  | ok v e' =>
      rw [hrun] at hkind
      cases hkind
  | error err e' =>
      rw [hrun] at hkind
      obtain ⟨-, back, hback, hnone⟩ := hclean.commit ⟨2⟩ t err e' ht
        ⟨true, of_decide_eq_true hrole⟩ hrun
      exact ⟨t, err, e', back, rfl, hback, hnone, Option.some.inj hkind,
        hwritten, by decide +kernel⟩

end Engine

end Colonnade
