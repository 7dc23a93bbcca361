/-
What one event can do to an engine, in five cases. `Stepped` sums up what it
does to those who write, to the log and to what is current: nobody who
writes takes part; handles write; a writer begins; a writer ends with
nothing published; or a writer ends and its record is published. Only the
last carries a record, and `Event.record?` tells beforehand which one.

The cases hold in engines that are `Serial`, and every case keeps an engine
serial, so they hold all along a run. Further invariants of a run split on
`Stepped` where the five cases are enough.

Chain: `Engine.Serial` states what this makes of commits, `Engine.Ledger`
follows the log by it, and `Engine.Closures` finds the events in a `write`.
-/
import Colonnade.Proofs.Engine.Events

namespace Colonnade

namespace Engine

variable {e e' : Engine} {id : TransactionId} {t : Transaction}
  {log : Option HistoryLog} {grown : Nat} {err : Error}

-- ================================================= the cases of a step

/-- A step that nobody who writes has a part in. -/
structure Aside (e e' : Engine) : Prop where
  current_eq : e'.current = e.current
  limits_eq : e'.limits = e.limits
  writerBusy_eq : e'.writerBusy = e.writerBusy
  rests : ∀ bytes s, Rests bytes s e → Rests bytes s e'
  nextId_le : e.nextId.raw ≤ e'.nextId.raw
  fresh : e.Fresh → e'.Fresh
  writers : ∀ a u, u.IsWriting →
    (e'.transaction? a = some u ↔ e.transaction? a = some u)

/-- A writer has ended and left the slot free. -/
structure Ended (e : Engine) (id : TransactionId) (e' : Engine) : Prop where
  limits_eq : e'.limits = e.limits
  writerBusy_eq : e'.writerBusy = false
  nextId_eq : e'.nextId = e.nextId
  idle : ∀ u, e'.transaction? id = some u → ¬ u.IsWriting
  others : ∀ a u, e'.transaction? a = some u → a ≠ id →
    e.transaction? a = some u

/-- What an event can do, with the record that it commits. -/
inductive Stepped (e : Engine) : Option CommitRecord → Engine → Prop
  | aside {e' : Engine} (h : Aside e e') : Stepped e none e'
  | handled {e' : Engine} (h : Relation.ReflTransGen Handled e e') :
      Stepped e none e'
  | began (hfree : e.writerBusy = false) : Stepped e none e.begun
  | discarded {id : TransactionId} {t : Transaction} {e' : Engine}
      (ht : e.transaction? id = some t)
      (hrole : t.role = .writer .active true) (hended : Ended e id e')
      (hcurrent : e'.current = e.current)
      (hrests : ∀ bytes s, Rests bytes s e → Rests bytes s e') :
      Stepped e none e'
  | committed {id : TransactionId} {t : Transaction} {e' : Engine}
      {grown : Nat} (ht : e.transaction? id = some t)
      (hrole : t.role = .writer .active true) (hended : Ended e id e')
      (hlog : appendTo (e.recordOf t) e.log = (.ok grown, e'.log))
      (hcurrent : e'.current = e.nextOf t) :
      Stepped e (some (e.recordOf t)) e'

-- ============================================ each keeps engines serial

theorem Aside.refl (e : Engine) : Aside e e :=
  ⟨rfl, rfl, rfl, fun _ _ h => h, Nat.le_refl _, fun h => h,
    fun _ _ _ => Iff.rfl⟩

/-- What happens aside keeps an engine serial. -/
theorem Aside.serial (h : Aside e e') (he : e.Serial) : e'.Serial := by
  refine ⟨h.fresh he.fresh, ?_⟩
  cases he.slot with
  | free hbusy hnone =>
      refine .free (h.writerBusy_eq.trans hbusy) fun a u hu hw => ?_
      exact hnone a u ((h.writers a u hw).1 hu) hw
  | held hbusy ht hrole hsole hbased =>
      refine .held (h.writerBusy_eq.trans hbusy)
        ((h.writers _ _ ⟨_, hrole⟩).2 ht) hrole (fun a u hu hw => ?_) ?_
      · exact hsole a u ((h.writers a u hw).1 hu) hw
      · rw [h.current_eq, h.limits_eq]
        exact hbased

/-- A transaction that is there can be replaced. -/
theorem Fresh.withTransaction (h : e.Fresh)
    (ht : e.transaction? id = some t) (u : Transaction) :
    (e.withTransaction id u).Fresh := by
  intro a v hv
  rw [transaction?_withTransaction] at hv
  split at hv
  next heq => exact heq ▸ h id t ht
  next => exact h a v hv

/-- A transaction that goes on in its role and on its base keeps the slot as
it is. -/
theorem Serial.withTransaction (h : e.Serial)
    (ht : e.transaction? id = some t) {u : Transaction}
    (hrole : u.role = t.role)
    (hbased : t.Based e.current e.limits → u.Based e.current e.limits) :
    (e.withTransaction id u).Serial := by
  refine ⟨h.fresh.withTransaction ht u, ?_⟩
  by_cases hw : t.IsWriting
  · obtain ⟨hbusy, hactive, hsole, hold⟩ := h.active ht hw
    exact .held hbusy (transaction?_self e id u) (hrole.trans hactive)
      (hsole.withTransaction u) (hbased hold)
  · have hidle : ¬ u.IsWriting := by
      unfold Transaction.IsWriting
      rw [hrole]
      exact hw
    cases h.slot with
    | free hbusy hnone =>
        refine .free hbusy fun a v hv hx => ?_
        exact hnone a v (writing_withTransaction hidle hv hx) hx
    | @held b v hbusy hv hactive hsole hbased =>
        have hne : b ≠ id := by
          rintro rfl
          obtain rfl := Option.some.inj (ht.symm.trans hv)
          exact hw ⟨true, hactive⟩
        refine @Slot.held _ b v hbusy ?_ hactive (fun a x hx hwx => ?_) hbased
        · rw [transaction?_withTransaction, if_neg hne]
          exact hv
        · exact hsole a x (writing_withTransaction hidle hx hwx) hwx

end Engine

namespace Transaction.Based

variable {current : Snapshot} {limits : Limits} {t : Transaction}

/-- A writer that begins has done nothing. -/
theorem begun (current : Snapshot) (limits : Limits) (role : Role) :
    Based current limits
      ⟨{ mode := .writing, snapshot := current }, current.version, role⟩ :=
  ⟨rfl, Edit.gives_pure.2 ⟨rfl, rfl⟩⟩

/-- A write adds one instruction to what a writer has done. -/
theorem wrote (h : t.Based current limits)
    {build : Snapshot → Except Error Instruction} {i : Instruction}
    {v : View} (hwrote : View.Wrote limits build t.view i v) :
    Based current limits { t with view := v } := by
  refine ⟨h.pinned_eq, ?_⟩
  show Edit.Gives (Snapshot.applyAll limits v.changes.toList) _ _ _
  rw [hwrote.changes_eq, Array.toList_push, Snapshot.gives_applyAll_append]
  exact ⟨_, h.applied, Snapshot.gives_applyAll_singleton.2
    (Snapshot.apply_gives_iff.2 hwrote.applied)⟩

end Transaction.Based

namespace Engine

variable {e e' : Engine} {id : TransactionId} {t : Transaction}
  {log : Option HistoryLog} {grown : Nat} {err : Error}
  {record? : Option CommitRecord}

/-- That an engine is serial outlasts what is done through transactions. -/
theorem lasting_serial : Lasting Serial := by
  intro e e' h hstep
  cases hstep with
  | counted => exact ⟨h.fresh, h.slot.counted _⟩
  | kept ht => exact h.withTransaction ht rfl fun hbased => hbased
  | wrote ht hwrote =>
      exact h.withTransaction ht rfl fun hbased => hbased.wrote hwrote

/-- What handles do keeps every lasting property. -/
theorem Lasting.star {P : Engine → Prop} (hP : Lasting P)
    (hstar : Relation.ReflTransGen Handled e e') (h : P e) : P e' := by
  induction hstar with
  | refl => exact h
  | tail _ hstep ih => exact hP _ _ ih hstep

/-- A writer that begins while nobody writes keeps an engine serial. -/
theorem Serial.begun (h : e.Serial) (hfree : e.writerBusy = false) :
    e.begun.Serial := by
  have hnone : e.NoWriter := by
    cases h.slot with
    | free _ hnone => exact hnone
    | held hbusy => rw [hfree] at hbusy; cases hbusy
  refine ⟨fun a u hu => ?_, .held rfl (transaction?_self _ e.nextId _) rfl
    (fun a u hu hw => ?_) (.begun e.current e.limits _)⟩
  · show a.raw < e.nextId.raw + 1
    have hu : (e.withTransaction e.nextId _).transaction? a = some u := hu
    rw [transaction?_withTransaction] at hu
    split at hu
    next heq => rw [heq]; omega
    next =>
      have := h.fresh a u hu
      omega
  · have hu : (e.withTransaction e.nextId _).transaction? a = some u := hu
    rw [transaction?_withTransaction] at hu
    split at hu
    next heq => exact heq
    next => exact (hnone a u hu hw).elim

/-- Once a writer has ended nobody writes. -/
theorem Ended.serial (hended : Ended e id e') (h : e.Serial)
    (ht : e.transaction? id = some t) (hrole : t.role = .writer .active true) :
    e'.Serial := by
  obtain ⟨-, -, hsole, -⟩ := h.active ht ⟨_, hrole⟩
  refine ⟨fun a u hu => ?_, .free hended.writerBusy_eq fun a u hu hw => ?_⟩
  · rw [hended.nextId_eq]
    by_cases heq : a = id
    · exact heq ▸ h.fresh id t ht
    · exact h.fresh a u (hended.others a u hu heq)
  · by_cases heq : a = id
    · exact hended.idle u (heq ▸ hu) hw
    · exact heq (hsole a u (hended.others a u hu heq) hw)

/-- Whatever happens, writers come one after the other. -/
theorem Stepped.serial (hstep : Stepped e record? e') (h : e.Serial) :
    e'.Serial := by
  cases hstep with
  | aside haside => exact haside.serial h
  | handled hstar => exact lasting_serial.star hstar h
  | began hfree => exact h.begun hfree
  | discarded ht hrole hended _ _ => exact hended.serial h ht hrole
  | committed ht hrole hended _ _ => exact hended.serial h ht hrole

theorem lasting_nextId (next : TransactionId) :
    Lasting fun e => e.nextId = next := by
  intro e e' h hstep
  cases hstep <;> exact h

/-- Ids are handed out upward. -/
theorem Stepped.nextId_le (hstep : Stepped e record? e') :
    e.nextId.raw ≤ e'.nextId.raw := by
  cases hstep with
  | aside haside => exact haside.nextId_le
  | handled hstar =>
      have hsame : e'.nextId = e.nextId :=
        (lasting_nextId e.nextId).star hstar rfl
      exact Nat.le_of_eq (congrArg TransactionId.raw hsame.symm)
  | began _ => exact Nat.le_succ _
  | discarded _ _ hended _ _ =>
      exact Nat.le_of_eq (congrArg TransactionId.raw hended.nextId_eq.symm)
  | committed _ _ hended _ _ =>
      exact Nat.le_of_eq (congrArg TransactionId.raw hended.nextId_eq.symm)

-- ================================================ asides, one by one

/-- Next to those who write a transaction can come, go and change that does
not. -/
theorem Aside.of_idle {pins : Pins} {nextId : TransactionId} {stats : Stats}
    {transactions : Std.TreeMap TransactionId Transaction}
    (hnext : e.nextId.raw ≤ nextId.raw)
    (hfresh : e.Fresh →
      ({ e with nextId, transactions } : Engine).Fresh)
    (hother : ∀ a, a ≠ id → transactions[a]? = e.transaction? a)
    (hbefore : ∀ u, e.transaction? id = some u → ¬ u.IsWriting)
    (hafter : ∀ u, transactions[id]? = some u → ¬ u.IsWriting) :
    Aside e { e with pins, nextId, stats, transactions } where
  current_eq := rfl
  limits_eq := rfl
  writerBusy_eq := rfl
  rests _ _ h := h
  nextId_le := hnext
  fresh := hfresh
  writers a u hw := by
    by_cases heq : a = id
    · subst heq
      exact ⟨fun hu => (hafter u hu hw).elim, fun hu => (hbefore u hu hw).elim⟩
    · show transactions[a]? = some u ↔ _
      rw [hother a heq]

/-- A reader is opened aside. -/
theorem aside_opened (hfresh : e.Fresh) (stats : Stats) :
    Aside e { e.opened .reading .reader with stats } := by
  have hnone (u : Transaction) : e.transaction? e.nextId ≠ some u := fun hu =>
    Nat.lt_irrefl _ (hfresh e.nextId u hu)
  refine @Aside.of_idle _ e.nextId _ _ _ _ (Nat.le_succ _)
    (fun _ a u hu => ?_) (fun a ha => ?_) (fun u hu => (hnone u hu).elim)
    fun u hu => ?_
  · show a.raw < e.nextId.raw + 1
    have hu : (e.withTransaction e.nextId _).transaction? a = some u := hu
    rw [transaction?_withTransaction] at hu
    split at hu
    next heq => rw [heq]; omega
    next =>
      have := hfresh a u hu
      omega
  · exact (transaction?_withTransaction (e := e) a).trans (if_neg ha)
  · have hu := (transaction?_self e e.nextId _).symm.trans hu
    cases hu
    exact nofun

/-- What does not write is dropped aside. -/
theorem aside_dropped (ht : e.transaction? id = some t)
    (hidle : ¬ t.IsWriting) : Aside e (e.dropped id t) := by
  refine @Aside.of_idle _ id _ _ _ _ (Nat.le_refl _)
    (fun hfresh a u hu => ?_) (fun a ha => ?_) (fun u hu => ?_) fun u hu => ?_
  · have hu : (e.dropped id t).transaction? a = some u := hu
    rw [transaction?_dropped] at hu
    split at hu
    next => cases hu
    next => exact hfresh a u hu
  · exact (transaction?_dropped (t := t) a).trans (if_neg ha)
  · exact Option.some.inj (ht.symm.trans hu) ▸ hidle
  · have hnone := (transaction?_dropped (e := e) (t := t) id).symm.trans hu
    rw [if_pos rfl] at hnone
    cases hnone

/-- A reader advances aside. -/
theorem aside_advancedTo (ht : e.transaction? id = some t)
    (hidle : ¬ t.IsWriting) : Aside e (e.advancedTo id t) := by
  have hself := transaction?_self e id (e.moved t)
  refine @Aside.of_idle _ id _ _ _ _ (Nat.le_refl _)
    (fun hfresh => hfresh.withTransaction ht _) (fun a ha => ?_)
    (fun u hu => ?_) fun u hu => ?_
  · exact (transaction?_withTransaction (e := e) a).trans (if_neg ha)
  · exact Option.some.inj (ht.symm.trans hu) ▸ hidle
  · exact Option.some.inj (hself.symm.trans hu) ▸ hidle

theorem aside_turned (f : Faults → Faults) : Aside e (e.turned f) := by
  refine ⟨rfl, rfl, rfl, fun bytes s h => ?_, Nat.le_refl _, fun h => h,
    fun _ _ _ => .rfl⟩
  obtain ⟨hcurrent, log, hlog, hholds⟩ := h
  refine ⟨hcurrent, { log with store := log.store.mapFaults f }, ?_, ?_⟩
  · show e.log.map _ = _
    rw [hlog]
    rfl
  · exact hholds.mapFaults f

-- ========================================== the end of a writer, by ends

/-- A writer has ended in an engine that is the same as one in which it has.
-/
theorem Ended.of_same (h : Ended e id e') {e'' : Engine}
    (hsame : Same e'' e') : Ended e id e'' where
  limits_eq := hsame.limits_eq.trans h.limits_eq
  writerBusy_eq := hsame.writerBusy_eq.trans h.writerBusy_eq
  nextId_eq := hsame.nextId_eq.trans h.nextId_eq
  idle u hu := h.idle u ((hsame.transaction?_eq id).symm.trans hu)
  others a u hu := h.others a u ((hsame.transaction?_eq a).symm.trans hu)

/-- A writer that ends stays as a transaction that does not write. -/
theorem ended_freed (e : Engine) (id : TransactionId) {u : Transaction}
    (hidle : ¬ u.IsWriting) : Ended e id (e.freed id u) where
  limits_eq := rfl
  writerBusy_eq := rfl
  nextId_eq := rfl
  idle v hv := Option.some.inj ((transaction?_self e id u).symm.trans hv) ▸ hidle
  others a v hv hne := by
    have hv : (e.withTransaction id u).transaction? a = some v := hv
    rw [transaction?_withTransaction, if_neg hne] at hv
    exact hv

/-- It may be dropped afterwards. -/
theorem Ended.dropped (h : Ended e id e') (t : Transaction) :
    Ended e id (e'.dropped id t) where
  limits_eq := h.limits_eq
  writerBusy_eq := h.writerBusy_eq
  nextId_eq := h.nextId_eq
  idle u hu := by
    rw [transaction?_dropped, if_pos rfl] at hu
    cases hu
  others a u hu hne := by
    rw [transaction?_dropped, if_neg hne] at hu
    exact h.others a u hu hne

/-- An aborted writer has ended. -/
theorem ended_aborted (e : Engine) (id : TransactionId) (t : Transaction)
    (log : Option HistoryLog) : Ended e id { e.aborted id t with log } :=
  { ended_freed e id (u := t.rolledBack) nofun with }

/-- A writer that has published has ended. -/
theorem ended_advanced (e : Engine) (id : TransactionId) (t : Transaction)
    {u : Transaction} (hidle : ¬ u.IsWriting) (log : Option HistoryLog)
    (grown : Nat) : Ended e id (e.advanced id t u log grown) :=
  { ended_freed e id hidle with }

theorem idle_shown (e : Engine) (t : Transaction) :
    ¬ (e.shown t).IsWriting := by
  rintro ⟨holdsSlot, hrole⟩
  cases hrole

theorem idle_reader (e : Engine) (t : Transaction) :
    ¬ (e.reader t).IsWriting := by
  rintro ⟨holdsSlot, hrole⟩
  cases hrole

/-- What a log left by a failing append holds is what it held. -/
theorem Rests.of_error {r : CommitRecord}
    (hlog : appendTo r e.log = (.error err, log)) (hcurrent : e'.current = e.current)
    (hlog' : e'.log = log) {bytes : Bytes} {s : Snapshot}
    (h : Rests bytes s e) : Rests bytes s e' := by
  obtain ⟨rfl, before, hbefore, hholds⟩ := h
  rw [hbefore] at hlog
  obtain ⟨after, rfl, hafter⟩ := appendTo_error hlog hholds
  exact ⟨hcurrent, after, hlog', hafter⟩

/-- A writer whose record is refused ends with nothing published. -/
theorem Stepped.of_error (ht : e.transaction? id = some t)
    (hrole : t.role = .writer .active true)
    (hlog : appendTo (e.recordOf t) e.log = (.error err, log))
    (hended : Ended e id e') (hcurrent : e'.current = e.current)
    (hlog' : e'.log = log) : Stepped e none e' :=
  .discarded ht hrole hended hcurrent fun _ _ h =>
    h.of_error hlog hcurrent hlog'

/-- A writer that is rolled back ends with nothing published. -/
theorem Stepped.of_aborted (ht : e.transaction? id = some t)
    (hrole : t.role = .writer .active true) (hended : Ended e id e')
    (hcurrent : e'.current = e.current) (hlog : e'.log = e.log) :
    Stepped e none e' :=
  .discarded ht hrole hended hcurrent fun _ _ h =>
    ofLog_rests _ _ e e' hlog hcurrent h
-- ======================================================== every event

/-- What comes of a call is one of the five things. -/
theorem Outcome.stepped {c : Call} {r : EStateM.Result Error Engine Unit}
    (houtcome : Outcome e c r) (h : e.Serial) (hrun : c.run.run e = r) :
    Stepped e (Event.record? e (.call c)) (c.step e) := by
  cases houtcome with
  | handled hc hstar =>
      rw [record?_of_none (Call.commits?_of_handled hc)]
      exact .handled hstar
  | idle hc _ =>
      rw [record?_of_none hc, step_of_ok hrun]
      exact .aside (.refl e)
  | failed _ =>
      rw [record?_of_error hrun, step_of_error hrun]
      exact .aside (.refl e)
  | reading =>
      rw [record?_of_none rfl, step_of_ok hrun]
      exact .aside (aside_opened h.fresh _)
  | writing hfree =>
      rw [record?_of_none rfl, step_of_ok hrun]
      exact .began hfree
  | @committed id t log grown e' ht hrole hlog hsame =>
      have hended := ended_advanced e id t (idle_shown e t) log grown
      have hlog' : e'.log = log := hsame.log_eq
      rw [record?_of_ok rfl hrun ht, step_of_ok hrun]
      exact .committed ht hrole (hended.of_same hsame) (hlog'.symm ▸ hlog)
        hsame.current_eq
  | @refused id t log err e' ht hrole hlog hsame =>
      rw [record?_of_error hrun, step_of_error hrun]
      exact .of_error ht hrole hlog
        ((ended_aborted e id t log).of_same hsame) hsame.current_eq
        hsame.log_eq
  | @handedOff id t log grown e' ht hrole hlog hsame =>
      have hended := ended_advanced e id t (idle_reader e t) log grown
      have hended : Ended e id ((e.advanced id t (e.reader t) log
          grown).repinned t.pinned (e.nextOf t).version) := { hended with }
      have hlog' : e'.log = log := hsame.log_eq
      rw [record?_of_ok rfl hrun ht, step_of_ok hrun]
      exact .committed ht hrole (hended.of_same hsame) (hlog'.symm ▸ hlog)
        hsame.current_eq
  | @lost id t log err e' ht hrole hlog hsame =>
      have hended : Ended e id { (e.aborted id t).dropped id t with log } :=
        { (ended_aborted e id t log).dropped t with }
      rw [record?_of_error hrun, step_of_error hrun]
      exact .of_error ht hrole hlog (hended.of_same hsame) hsame.current_eq
        hsame.log_eq
  | consumed ht hidle =>
      rw [record?_of_error hrun, step_of_error hrun]
      exact .aside (aside_dropped ht hidle)
  | @rolledBack id t e' ht hrole hsame =>
      rw [record?_of_none rfl, step_of_ok hrun]
      exact .of_aborted ht hrole ((ended_aborted e id t e.log).of_same hsame)
        hsame.current_eq hsame.log_eq
  | dropped ht hidle =>
      rw [record?_of_none rfl, step_of_ok hrun]
      exact .aside (aside_dropped ht hidle)
  | @droppedWriter id t e' ht hrole hsame =>
      rw [record?_of_none rfl, step_of_ok hrun]
      exact .of_aborted ht hrole
        (((ended_aborted e id t e.log).dropped t).of_same hsame)
        hsame.current_eq hsame.log_eq
  | moved ht hpinned =>
      -- A writer is on what is current and is not moved.
      rw [record?_of_none rfl, step_of_ok hrun]
      refine .aside (aside_advancedTo ht fun hw => hpinned ?_)
      obtain ⟨-, -, -, hbased⟩ := h.active ht hw
      exact hbased.pinned_eq.symm

/-- Every event does one of the five things. -/
theorem Serial.step (h : e.Serial) (ev : Event) :
    Stepped e (ev.record? e) (ev.step e) := by
  cases ev with
  | turn f => exact .aside (aside_turned f)
  | call c => exact (h.outcome c).stepped h rfl

/-- Every run keeps an engine serial. -/
theorem Serial.through {events : List Event} (h : e.Serial) :
    (e.through events).Serial := by
  induction events generalizing e with
  | nil => exact h
  | cons ev evs ih => exact ih ((h.step ev).serial h)

end Engine

end Colonnade
