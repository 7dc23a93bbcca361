/-
What each operation on a transaction leaves behind, in full. The invariants
of an engine say what an operation keeps; here it is said what the engine is
afterwards, field by field, so that two ways of getting somewhere can be
compared. A commit that fails leaves what a rollback leaves, except in the
log, because both are written out as the same `aborted` engine.

The map of transactions is compared by what it is asked and not by how it is
built: `Same` engines answer alike, and putting a transaction twice under one
id is the same as putting the second.

What a commit does hangs on one thing, whether its record can be appended.
`appendTo` gives the answer together with the log that is left, and each of
the operations that publish has one lemma for either answer.

Chain: `Engine.Stepped` sums these up in five cases, and `Engine.Untraced`
compares two of them.
-/
import Colonnade.Proofs.Engine.Steps

namespace Colonnade

/-- A transaction that was rolled back. -/
def Transaction.rolledBack (t : Transaction) : Transaction :=
  { t with view := t.view.close, role := .writer .rolledBack false }

/-- A transaction that has ended as a writer and whose changes were taken. -/
def Transaction.ended (t : Transaction) : Transaction :=
  { t with
    view := { t.view with changes := #[] }
    role := .writer .committed false }

namespace Engine

variable {e e' : Engine} {id : TransactionId} {t : Transaction}
  {log : Option HistoryLog} {grown : Nat} {err : Error}

-- ======================================================== same engines

/-- Two engines that nobody can tell apart. -/
structure Same (e e' : Engine) : Prop where
  current_eq : e.current = e'.current
  log_eq : e.log = e'.log
  limits_eq : e.limits = e'.limits
  pins_eq : e.pins = e'.pins
  writerBusy_eq : e.writerBusy = e'.writerBusy
  nextId_eq : e.nextId = e'.nextId
  stats_eq : e.stats = e'.stats
  transaction?_eq : ∀ a, e.transaction? a = e'.transaction? a

theorem Same.refl (e : Engine) : Same e e :=
  ⟨rfl, rfl, rfl, rfl, rfl, rfl, rfl, fun _ => rfl⟩

theorem Same.trans {e'' : Engine} (h : Same e e') (h' : Same e' e'') :
    Same e e'' where
  current_eq := h.current_eq.trans h'.current_eq
  log_eq := h.log_eq.trans h'.log_eq
  limits_eq := h.limits_eq.trans h'.limits_eq
  pins_eq := h.pins_eq.trans h'.pins_eq
  writerBusy_eq := h.writerBusy_eq.trans h'.writerBusy_eq
  nextId_eq := h.nextId_eq.trans h'.nextId_eq
  stats_eq := h.stats_eq.trans h'.stats_eq
  transaction?_eq a := (h.transaction?_eq a).trans (h'.transaction?_eq a)

theorem Same.symm (h : Same e e') : Same e' e where
  current_eq := h.current_eq.symm
  log_eq := h.log_eq.symm
  limits_eq := h.limits_eq.symm
  pins_eq := h.pins_eq.symm
  writerBusy_eq := h.writerBusy_eq.symm
  nextId_eq := h.nextId_eq.symm
  stats_eq := h.stats_eq.symm
  transaction?_eq a := (h.transaction?_eq a).symm

/-- Engines that are the same stay so under the same change of a transaction.
-/
theorem Same.withTransaction (h : Same e e') (id : TransactionId)
    (t : Transaction) :
    Same (e.withTransaction id t) (e'.withTransaction id t) :=
  { h with
    transaction?_eq := fun a => by
      simp only [transaction?_withTransaction, h.transaction?_eq] }

/-- A transaction that was put in place is found. -/
theorem transaction?_self (e : Engine) (id : TransactionId)
    (t : Transaction) : (e.withTransaction id t).transaction? id = some t := by
  rw [transaction?_withTransaction, if_pos rfl]

/-- The transaction that was put last is the one that is there. -/
theorem transaction?_twice (e : Engine) (id : TransactionId)
    (t u : Transaction) (a : TransactionId) :
    ((e.withTransaction id t).withTransaction id u).transaction? a
      = (e.withTransaction id u).transaction? a := by
  simp only [transaction?_withTransaction]
  split <;> rfl

/-- Of two changes of one transaction the second counts. -/
theorem same_twice (e : Engine) (id : TransactionId) (t u : Transaction) :
    Same ((e.withTransaction id t).withTransaction id u)
      (e.withTransaction id u) :=
  ⟨rfl, rfl, rfl, rfl, rfl, rfl, rfl, transaction?_twice e id t u⟩

-- =========================================================== beginning

/-- The engine with a view of its current snapshot opened. -/
def opened (e : Engine) (mode : ViewMode) (role : Role) : Engine :=
  withTransaction
    { e with
      nextId := ⟨e.nextId.raw + 1⟩, pins := e.pins.pin e.version }
    e.nextId ⟨{ mode, snapshot := e.current }, e.version, role⟩

/-- Beginning to read opens a reading view on the current version. -/
theorem run_beginRead (e : Engine) :
    beginRead.run e
      = .ok e.nextId { e.opened .reading .reader with
          stats := { e.stats with
            readTransactions := e.stats.readTransactions + 1 } } := rfl

/-- While another writes nothing begins. -/
theorem run_beginWrite_busy (hbusy : e.writerBusy = true) :
    beginWrite?.run e = .ok none e := by
  unfold beginWrite? acquireWriter
  rw [EStateM.run_bind, EStateM.run_bind, EStateM.run_get]
  dsimp only
  rw [hbusy]
  rfl

/-- The engine with a writer begun. -/
def begun (e : Engine) : Engine :=
  { e.opened .writing (.writer .active true) with
    writerBusy := true
    stats := { e.stats with
      writeTransactions := e.stats.writeTransactions + 1 } }

/-- A writer begins if nobody writes. -/
theorem run_beginWrite_free (hfree : e.writerBusy = false) :
    beginWrite?.run e = .ok (some e.nextId) e.begun := by
  unfold beginWrite? acquireWriter
  rw [EStateM.run_bind, EStateM.run_bind, EStateM.run_get]
  dsimp only
  rw [hfree]
  rfl

-- ==================================================== one transaction

/-- The engine with a transaction put in its place and the writer slot
free. -/
def freed (e : Engine) (id : TransactionId) (t : Transaction) : Engine :=
  { e.withTransaction id t with writerBusy := false }

/-- Changing a view leaves the rest of the transaction. -/
theorem run_mapView (ht : e.transaction? id = some t) (f : View → View) :
    (mapView id f).run e
      = .ok () (e.withTransaction id { t with view := f t.view }) := by
  unfold mapView
  rw [EStateM.run_modify]
  dsimp only
  rw [ht]
  rfl

/-- Ending a writer frees the slot. -/
theorem run_finish (ht : e.transaction? id = some t)
    (hrole : t.role = .writer .active true) (state : TransactionState) :
    (finish id state).run e
      = .ok () (e.freed id { t with role := .writer state false }) := by
  have hfree : (e.writerBusy && !true) = false := Bool.and_false _
  unfold finish
  rw [EStateM.run_modify]
  dsimp only
  rw [ht]
  dsimp only
  rw [hrole]
  dsimp only
  rw [hfree]
  rfl

/-- The engine once a writer was rolled back. -/
def aborted (e : Engine) (id : TransactionId) (t : Transaction) : Engine :=
  { e.freed id t.rolledBack with
    stats := { e.stats with rollbacks := e.stats.rollbacks + 1 } }

/-- An aborted writer frees the slot and closes its view. -/
theorem run_abort (ht : e.transaction? id = some t)
    (hrole : t.role = .writer .active true) :
    ∃ e', (abort id).run e = .ok () e' ∧ Same e' (e.aborted id t) := by
  let closed : Transaction := { t with view := t.view.close }
  have hclosed := transaction?_self e id closed
  have hrun : (abort id).run e = .ok ()
      { (e.withTransaction id closed).freed id t.rolledBack with
        stats := { e.stats with rollbacks := e.stats.rollbacks + 1 } } := by
    unfold abort
    rw [EStateM.run_bind, run_mapView ht]
    dsimp only
    rw [EStateM.run_bind, run_finish hclosed hrole]
    rfl
  exact ⟨_, hrun, rfl, rfl, rfl, rfl, rfl, rfl, rfl,
    transaction?_twice e id closed t.rolledBack⟩

/-- Rolling back an active writer succeeds. -/
theorem run_rollback (ht : e.transaction? id = some t)
    (hrole : t.role = .writer .active true) :
    ∃ e', (rollback id).run e = .ok () e' ∧ Same e' (e.aborted id t) := by
  obtain ⟨e', habort, hsame⟩ := run_abort ht hrole
  have hactive : e.requireActive id = .ok t :=
    requireActive_eq_ok.2 ⟨ht, true, hrole⟩
  refine ⟨e', ?_, hsame⟩
  unfold rollback
  rw [EStateM.run_bind, EStateM.run_get]
  dsimp only
  rw [hactive]
  exact habort

/-- What asks for an active writer fails at once where there is none. -/
theorem requireActive_error (hnone : ∀ t, e.transaction? id = some t →
    ¬ t.IsWriting) : ∃ err, e.requireActive id = .error err := by
  cases hactive : e.requireActive id with
  | error err => exact ⟨err, rfl⟩
  | ok t =>
      obtain ⟨ht, hw⟩ := requireActive_eq_ok.1 hactive
      exact (hnone t ht hw).elim

/-- What does not write cannot be rolled back. -/
theorem run_rollback_idle (hnone : ∀ t, e.transaction? id = some t →
    ¬ t.IsWriting) : ∃ err, (rollback id).run e = .error err e := by
  obtain ⟨err, hactive⟩ := requireActive_error hnone
  refine ⟨err, ?_⟩
  unfold rollback
  rw [EStateM.run_bind, EStateM.run_get]
  dsimp only
  rw [hactive]
  rfl

/-- The engine without a transaction and without its pin. -/
def dropped (e : Engine) (id : TransactionId) (t : Transaction) : Engine :=
  { e with
    transactions := e.transactions.erase id
    pins := (e.pins.unpin t.pinned).1
    stats := { e.stats with
      versionsReclaimed :=
        e.stats.versionsReclaimed + (e.pins.unpin t.pinned).2 } }

/-- Dropping removes one transaction. -/
theorem transaction?_dropped (a : TransactionId) :
    (e.dropped id t).transaction? a
      = if a = id then none else e.transaction? a :=
  OrderedMap.getElem?_erase _ _ _

/-- Engines that are the same stay so when the same transaction is dropped. -/
theorem Same.dropped (h : Same e e') (id : TransactionId)
    (t : Transaction) : Same (e.dropped id t) (e'.dropped id t) where
  current_eq := h.current_eq
  log_eq := h.log_eq
  limits_eq := h.limits_eq
  pins_eq := by
    unfold Engine.dropped
    rw [h.pins_eq]
  writerBusy_eq := h.writerBusy_eq
  nextId_eq := h.nextId_eq
  stats_eq := by
    unfold Engine.dropped
    rw [h.pins_eq, h.stats_eq]
  transaction?_eq a := by
    simp only [transaction?_dropped, h.transaction?_eq]

/-- Dropping what is gone does nothing. -/
theorem run_drop_none (hnone : e.transaction? id = none) :
    (drop id).run e = .ok () e := by
  unfold drop
  rw [EStateM.run_bind, EStateM.run_get]
  dsimp only
  rw [hnone]
  rfl

/-- Dropping what does not write gives up its pin. -/
theorem run_drop_idle (ht : e.transaction? id = some t)
    (hidle : ¬ t.IsWriting) :
    (drop id).run e = .ok () (e.dropped id t) := by
  unfold drop
  rw [EStateM.run_bind, EStateM.run_get]
  dsimp only
  rw [ht]
  dsimp only
  split
  next holdsSlot hrole => exact (hidle ⟨holdsSlot, hrole⟩).elim
  next => rfl

/-- Dropping an active writer rolls it back first. -/
theorem run_drop_active (ht : e.transaction? id = some t)
    (hrole : t.role = .writer .active true) :
    ∃ e', (drop id).run e = .ok () e'
      ∧ Same e' ((e.aborted id t).dropped id t) := by
  obtain ⟨e', habort, hsame⟩ := run_abort ht hrole
  refine ⟨e'.dropped id t, ?_, hsame.dropped id t⟩
  unfold drop
  rw [EStateM.run_bind, EStateM.run_get]
  dsimp only
  rw [ht]
  dsimp only
  rw [hrole]
  dsimp only
  rw [EStateM.run_bind, habort]
  rfl

-- ========================================================= publishing

/-- The record that a transaction is committed by. -/
def recordOf (e : Engine) (t : Transaction) : CommitRecord :=
  ⟨e.version.next, t.view.changes.toList⟩

/-- The snapshot that a transaction is published as. -/
def nextOf (e : Engine) (t : Transaction) : Snapshot :=
  { t.view.snapshot with version := e.version.next }

/-- Whether a record can be appended to a log, if there is one, with the
number of bytes by which the log grows, and the log that is left. -/
def appendTo (r : CommitRecord) :
    Option HistoryLog → Except Error Nat × Option HistoryLog
  | none => (.ok 0, none)
  | some log =>
    match (HistoryLog.appendCommit r).run log with
    | .ok _ after => (.ok (after.size - log.size), some after)
    | .error err after => (.error err, some after)

/-- A record is appended to the log, and what the log says is passed on. -/
theorem run_logCommit (r : CommitRecord) :
    (logCommit r).run e
      = match appendTo r e.log with
        | (.ok grown, log) => .ok grown { e with log }
        | (.error err, log) => .error err { e with log } := by
  unfold logCommit appendTo
  rw [EStateM.run_bind, EStateM.run_get]
  dsimp only
  cases hlog : e.log with
  | none =>
      dsimp only
      rw [← hlog]
      rfl
  | some log =>
      dsimp only
      rw [EStateM.run_bind]
      unfold Edit.focus
      dsimp only [EStateM.run]
      cases HistoryLog.appendCommit r log <;> rfl

/-- A record that is appended to an exact store is in it as a whole. -/
theorem appendTo_ok {r : CommitRecord} {before : HistoryLog}
    {format : UInt16} {bytes : Bytes}
    (hlog : appendTo r (some before) = (.ok grown, log))
    (hholds : before.Holds format bytes) :
    ∃ data after, log = some after ∧ Wire.encode format r = .ok data
      ∧ after.Holds format (bytes ++ data) := by
  have hends := HistoryLog.appendCommit_ends format bytes r before hholds
  unfold appendTo at hlog
  dsimp only at hlog
  cases hrun : (HistoryLog.appendCommit r).run before with
  | ok _ after =>
      rw [hrun] at hlog hends
      cases hlog
      obtain ⟨data, hdata, hafter⟩ := hends
      exact ⟨data, after, rfl, hdata, hafter⟩
  | error err after =>
      rw [hrun] at hlog
      cases hlog

/-- A record that is not appended to an exact store has left nothing in
it. -/
theorem appendTo_error {r : CommitRecord} {before : HistoryLog}
    {format : UInt16} {bytes : Bytes}
    (hlog : appendTo r (some before) = (.error err, log))
    (hholds : before.Holds format bytes) :
    ∃ after, log = some after ∧ after.Holds format bytes := by
  have hends := HistoryLog.appendCommit_ends format bytes r before hholds
  unfold appendTo at hlog
  dsimp only at hlog
  cases hrun : (HistoryLog.appendCommit r).run before with
  | ok _ after =>
      rw [hrun] at hlog
      cases hlog
  | error err after =>
      rw [hrun] at hlog hends
      cases hlog
      exact ⟨after, rfl, hends⟩

/-- The engine with a snapshot made current and counted as a commit. -/
def published (e : Engine) (next : Snapshot) (count grown : Nat) : Engine :=
  { e with
    current := next
    pins := (e.pins.setCurrent next.version).1
    stats := { e.stats with
      commits := e.stats.commits + 1
      instructions := e.stats.instructions + count
      historyBytes := e.stats.historyBytes + grown
      versionsReclaimed :=
        e.stats.versionsReclaimed + (e.pins.setCurrent next.version).2 } }

section Publishing

variable {working : Snapshot} {changes : List Instruction}

/-- A record that is logged becomes the next version. -/
theorem run_publish_ok
    (hlog : appendTo ⟨e.version.next, changes⟩ e.log = (.ok grown, log)) :
    (publish working changes).run e
      = .ok { working with version := e.version.next }
        (published { e with log }
          { working with version := e.version.next } changes.length grown) := by
  unfold publish
  rw [EStateM.run_bind, EStateM.run_get]
  dsimp only
  rw [EStateM.run_bind, run_logCommit, hlog]
  rfl

/-- A record that is refused leaves the current version. -/
theorem run_publish_error
    (hlog : appendTo ⟨e.version.next, changes⟩ e.log = (.error err, log)) :
    (publish working changes).run e = .error err { e with log } := by
  unfold publish
  rw [EStateM.run_bind, EStateM.run_get]
  dsimp only
  rw [EStateM.run_bind, run_logCommit, hlog]

/-- A writer that has published is committed. -/
theorem run_conclude_ok {next : Snapshot} {made : Engine}
    (hrun : (publish working changes).run e = .ok next made)
    (ht : made.transaction? id = some t)
    (hrole : t.role = .writer .active true) :
    (conclude id working changes).run e
      = .ok next (made.freed id { t with role := .writer .committed false }) := by
  unfold conclude
  rw [EStateM.run_bind, Edit.run_attempt, hrun]
  dsimp only
  rw [EStateM.run_bind, run_finish ht hrole]
  rfl

/-- A writer that could not publish is aborted. -/
theorem run_conclude_error {kept : Engine}
    (hrun : (publish working changes).run e = .error err kept)
    (ht : kept.transaction? id = some t)
    (hrole : t.role = .writer .active true) :
    ∃ e', (conclude id working changes).run e = .error err e'
      ∧ Same e' (kept.aborted id t) := by
  obtain ⟨e', habort, hsame⟩ := run_abort ht hrole
  refine ⟨e', ?_, hsame⟩
  unfold conclude
  rw [EStateM.run_bind, Edit.run_attempt, hrun]
  dsimp only
  rw [EStateM.run_bind, habort]
  rfl

/-- The engine once the changes of a writer were published and the view is
still as it was. -/
def advanced (e : Engine) (id : TransactionId) (t u : Transaction)
    (log : Option HistoryLog) (grown : Nat) : Engine :=
  published { e.freed id u with log } (e.nextOf t) t.view.changes.size grown

/-- If the log takes the record the next version is current. -/
theorem run_publishChanges_ok (ht : e.transaction? id = some t)
    (hrole : t.role = .writer .active true)
    (hlog : appendTo (e.recordOf t) e.log = (.ok grown, log)) :
    ∃ e', (publishChanges id).run e = .ok (e.nextOf t) e'
      ∧ Same e' (e.advanced id t t.ended log grown) := by
  let taken : Transaction := { t with view := { t.view with changes := #[] } }
  have htaken : (takenFrom e id t).transaction? id = some taken :=
    transaction?_self e id taken
  have hpublish : (publish t.view.snapshot t.view.changes.toList).run
      (takenFrom e id t) = _ := run_publish_ok hlog
  rw [run_publishChanges ht ⟨true, hrole⟩]
  exact ⟨_, run_conclude_ok hpublish htaken hrole, rfl, rfl, rfl, rfl, rfl,
    rfl, rfl, transaction?_twice e id taken t.ended⟩

/-- If the log refuses the record the writer is rolled back. -/
theorem run_publishChanges_error (ht : e.transaction? id = some t)
    (hrole : t.role = .writer .active true)
    (hlog : appendTo (e.recordOf t) e.log = (.error err, log)) :
    ∃ e', (publishChanges id).run e = .error err e'
      ∧ Same e' { e.aborted id t with log } := by
  let taken : Transaction := { t with view := { t.view with changes := #[] } }
  have htaken : (takenFrom e id t).transaction? id = some taken :=
    transaction?_self e id taken
  have hpublish : (publish t.view.snapshot t.view.changes.toList).run
      (takenFrom e id t) = _ := run_publish_error hlog
  rw [run_publishChanges ht ⟨true, hrole⟩]
  obtain ⟨e', hrun, hsame⟩ := run_conclude_error hpublish htaken hrole
  -- closing the view forgets the changes, whether they were taken or not
  exact ⟨e', hrun, hsame.trans ⟨rfl, rfl, rfl, rfl, rfl, rfl, rfl,
    transaction?_twice e id taken t.rolledBack⟩⟩

/-- What does not write publishes nothing. -/
theorem run_publishChanges_idle (hnone : ∀ t, e.transaction? id = some t →
    ¬ t.IsWriting) : ∃ err, (publishChanges id).run e = .error err e := by
  obtain ⟨err, hactive⟩ := requireActive_error hnone
  refine ⟨err, ?_⟩
  unfold publishChanges
  rw [EStateM.run_bind, EStateM.run_get]
  dsimp only
  rw [hactive]
  rfl

-- ============================================================= commit

/-- The transaction after its commit: its view shows what was published, to
no handle. -/
def shown (e : Engine) (t : Transaction) : Transaction :=
  { t.ended with view := t.ended.view.replace (e.nextOf t) .closed true }

/-- A commit that is logged gives the next version. -/
theorem run_commit_ok (ht : e.transaction? id = some t)
    (hrole : t.role = .writer .active true)
    (hlog : appendTo (e.recordOf t) e.log = (.ok grown, log)) :
    ∃ e', (commit id).run e = .ok e.version.next e'
      ∧ Same e' (e.advanced id t (e.shown t) log grown) := by
  obtain ⟨made, hrun, hsame⟩ := run_publishChanges_ok ht hrole hlog
  have hended : made.transaction? id = some t.ended :=
    (hsame.transaction?_eq id).trans (transaction?_self e id t.ended)
  refine ⟨made.withTransaction id (e.shown t), ?_, ?_⟩
  · unfold commit
    rw [EStateM.run_bind, hrun]
    dsimp only
    rw [EStateM.run_bind, run_mapView hended]
    rfl
  · exact (hsame.withTransaction id (e.shown t)).trans ⟨rfl, rfl, rfl, rfl,
      rfl, rfl, rfl, transaction?_twice e id t.ended (e.shown t)⟩

/-- A commit that is not logged rolls back. -/
theorem run_commit_error (ht : e.transaction? id = some t)
    (hrole : t.role = .writer .active true)
    (hlog : appendTo (e.recordOf t) e.log = (.error err, log)) :
    ∃ e', (commit id).run e = .error err e'
      ∧ Same e' { e.aborted id t with log } := by
  obtain ⟨e', hrun, hsame⟩ := run_publishChanges_error ht hrole hlog
  refine ⟨e', ?_, hsame⟩
  unfold commit
  rw [EStateM.run_bind, hrun]

/-- What does not write cannot be committed. -/
theorem run_commit_idle (hnone : ∀ t, e.transaction? id = some t →
    ¬ t.IsWriting) : ∃ err, (commit id).run e = .error err e := by
  obtain ⟨err, hrun⟩ := run_publishChanges_idle hnone
  refine ⟨err, ?_⟩
  unfold commit
  rw [EStateM.run_bind, hrun]

-- =================================================== going on to read

/-- The engine with a pin moved from one version to another. -/
def repinned (e : Engine) (from_ to_ : Version) : Engine :=
  { e with
    pins := ((e.pins.pin to_).unpin from_).1
    stats := { e.stats with
      versionsReclaimed :=
        e.stats.versionsReclaimed + ((e.pins.pin to_).unpin from_).2 } }

theorem Same.repinned (h : Same e e') (from_ to_ : Version) :
    Same (e.repinned from_ to_) (e'.repinned from_ to_) where
  current_eq := h.current_eq
  log_eq := h.log_eq
  limits_eq := h.limits_eq
  pins_eq := by
    unfold Engine.repinned
    rw [h.pins_eq]
  writerBusy_eq := h.writerBusy_eq
  nextId_eq := h.nextId_eq
  stats_eq := by
    unfold Engine.repinned
    rw [h.pins_eq, h.stats_eq]
  transaction?_eq := h.transaction?_eq

/-- The transaction that goes on reading what it has committed, through the
same handles. -/
def reader (e : Engine) (t : Transaction) : Transaction where
  view := t.ended.view.replace (e.nextOf t) .reading false
  pinned := (e.nextOf t).version
  role := .reader

/-- A commit that goes on shows the new version and moves its pin there. -/
theorem run_commitAndRead_ok (ht : e.transaction? id = some t)
    (hrole : t.role = .writer .active true)
    (hlog : appendTo (e.recordOf t) e.log = (.ok grown, log)) :
    ∃ e', (commitAndRead id).run e = .ok () e'
      ∧ Same e' ((e.advanced id t (e.reader t) log grown).repinned t.pinned
        (e.nextOf t).version) := by
  obtain ⟨made, hrun, hsame⟩ := run_publishChanges_ok ht hrole hlog
  have hended : made.transaction? id = some t.ended :=
    (hsame.transaction?_eq id).trans (transaction?_self e id t.ended)
  let moved : Transaction :=
    { t.ended with view := t.ended.view.replace (e.nextOf t) .reading false }
  have hmoved : ({ made.withTransaction id moved with
      pins := made.pins.pin (e.nextOf t).version } : Engine).requireTransaction
        id = .ok moved :=
    requireTransaction_eq_ok.2 (transaction?_self made id moved)
  have hbase : e.requireTransaction id = .ok t :=
    requireTransaction_eq_ok.2 ht
  refine ⟨((made.withTransaction id moved).withTransaction id
    (e.reader t)).repinned t.pinned (e.nextOf t).version, ?_, ?_⟩
  · unfold commitAndRead
    rw [EStateM.run_bind, EStateM.run_get]
    dsimp only
    rw [hbase]
    show (Edit.attempt (publishChanges id) >>= _).run e = _
    rw [EStateM.run_bind, Edit.run_attempt, hrun]
    dsimp only
    rw [EStateM.run_bind, run_mapView hended]
    show (do
      let t ← liftM (({ made.withTransaction id moved with
        pins := made.pins.pin (e.nextOf t).version } : Engine).requireTransaction
          id)
      put id { t with pinned := (e.nextOf t).version, role := .reader }
      unpin _).run _ = _
    rw [hmoved]
    rfl
  · refine Same.repinned ?_ _ _
    refine ((hsame.withTransaction id moved).withTransaction id
      (e.reader t)).trans ⟨rfl, rfl, rfl, rfl, rfl, rfl, rfl, fun a => ?_⟩
    -- the transaction was put in place three times, and the last one counts
    rw [transaction?_twice]
    exact transaction?_twice e id t.ended (e.reader t) a

/-- A commit that was to go on and is not logged is rolled back and dropped.
-/
theorem run_commitAndRead_error (ht : e.transaction? id = some t)
    (hrole : t.role = .writer .active true)
    (hlog : appendTo (e.recordOf t) e.log = (.error err, log)) :
    ∃ e', (commitAndRead id).run e = .error err e'
      ∧ Same e' { (e.aborted id t).dropped id t with log } := by
  obtain ⟨kept, hrun, hsame⟩ := run_publishChanges_error ht hrole hlog
  have hback : kept.transaction? id = some t.rolledBack :=
    (hsame.transaction?_eq id).trans (transaction?_self e id t.rolledBack)
  have hidle : ¬ t.rolledBack.IsWriting := nofun
  have hbase : e.requireTransaction id = .ok t :=
    requireTransaction_eq_ok.2 ht
  refine ⟨kept.dropped id t.rolledBack, ?_, hsame.dropped id t.rolledBack⟩
  unfold commitAndRead
  rw [EStateM.run_bind, EStateM.run_get]
  dsimp only
  rw [hbase]
  show (Edit.attempt (publishChanges id) >>= _).run e = _
  rw [EStateM.run_bind, Edit.run_attempt, hrun]
  dsimp only
  rw [EStateM.run_bind, run_drop_idle hback hidle]
  rfl

/-- What is gone cannot be committed. -/
theorem run_commitAndRead_none (hnone : e.transaction? id = none) :
    ∃ err, (commitAndRead id).run e = .error err e := by
  unfold commitAndRead
  rw [EStateM.run_bind, EStateM.run_get]
  dsimp only
  unfold requireTransaction
  rw [hnone]
  exact ⟨_, rfl⟩

/-- What does not write is dropped, and the call fails. -/
theorem run_commitAndRead_idle (ht : e.transaction? id = some t)
    (hidle : ¬ t.IsWriting) :
    ∃ err, (commitAndRead id).run e = .error err (e.dropped id t) := by
  have hnone (u : Transaction) (hu : e.transaction? id = some u) :
      ¬ u.IsWriting := Option.some.inj (ht.symm.trans hu) ▸ hidle
  obtain ⟨err, hrun⟩ := run_publishChanges_idle hnone
  refine ⟨err, ?_⟩
  unfold commitAndRead
  rw [EStateM.run_bind, EStateM.run_get]
  dsimp only
  rw [requireTransaction_eq_ok.2 ht]
  show (Edit.attempt (publishChanges id) >>= _).run e = _
  rw [EStateM.run_bind, Edit.run_attempt, hrun]
  dsimp only
  rw [EStateM.run_bind, run_drop_idle ht hidle]
  rfl

end Publishing

-- ========================================================== moving on

/-- The transaction that reads what is current. -/
def moved (e : Engine) (t : Transaction) : Transaction :=
  { t with
    pinned := e.version
    view := t.view.replace e.current .reading true }

/-- The engine with a transaction moved to what is current. -/
def advancedTo (e : Engine) (id : TransactionId) (t : Transaction) : Engine :=
  let r := (e.withTransaction id (e.moved t)).repinned t.pinned e.version
  { r with stats := { r.stats with advances := r.stats.advances + 1 } }

/-- What is gone cannot be moved on. -/
theorem run_advance_none (hnone : e.transaction? id = none) :
    ∃ err, (advance id).run e = .error err e := by
  unfold advance
  rw [EStateM.run_bind, EStateM.run_get]
  dsimp only
  unfold requireTransaction
  rw [hnone]
  exact ⟨_, rfl⟩

/-- At the current version there is nothing to advance to. -/
theorem run_advance_still (ht : e.transaction? id = some t)
    (hpinned : e.version = t.pinned) :
    (advance id).run e = .ok false e := by
  unfold advance
  rw [EStateM.run_bind, EStateM.run_get]
  dsimp only
  rw [requireTransaction_eq_ok.2 ht]
  show (if e.version = t.pinned then pure false else _ : Edit Engine Bool).run
    e = _
  rw [if_pos hpinned]
  rfl

/-- Advancing moves the pin and the view to the current version. -/
theorem run_advance_moved (ht : e.transaction? id = some t)
    (hpinned : e.version ≠ t.pinned) :
    (advance id).run e = .ok true (e.advancedTo id t) := by
  unfold advance
  rw [EStateM.run_bind, EStateM.run_get]
  dsimp only
  rw [requireTransaction_eq_ok.2 ht]
  show (if e.version = t.pinned then pure false else _ : Edit Engine Bool).run
    e = _
  rw [if_neg hpinned]
  rfl

end Engine

end Colonnade
