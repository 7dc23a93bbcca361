/-
Which transactions an engine carries, ended or not. Each operation is given
what it makes of them, told in numbers: an id counts for one if it is carried
and for nothing if it is not. Beginning adds an id that was not there,
dropping takes one away, a writer that goes on to read stays or is gone, and
no other call makes a difference, commits and rollbacks included.

Numbers are used since whoever keeps books of what was begun can then settle
them by addition.

Chain: on `Engine.Posts` and the table of outcomes; `Host.Owned` follows the
numbers over all engines of a host.
-/
import Colonnade.Proofs.Engine.Posts

namespace Colonnade

/-- Whether a call leaves every transaction where it is, be it active or
ended. -/
def Call.lingers : Call → Bool
  | .beginRead | .beginWrite | .commitAndRead _ | .drop _ => false
  | _ => true

namespace Engine

variable {e e' : Engine} {id : TransactionId} {t : Transaction}
  {count : TransactionId → Nat}

-- ========================================================= what is carried

/-- One if there is a transaction with an id, and nothing otherwise. -/
def carried (e : Engine) (id : TransactionId) : Nat :=
  if (e.transaction? id).isSome then 1 else 0

theorem isSome_post? (e : Engine) (id : TransactionId) :
    (e.post? id).isSome = (e.transaction? id).isSome :=
  Option.isSome_map

/-- Whether a transaction is there is told by what is found under its number.
-/
theorem carried_congr (h : e'.transaction? id = e.transaction? id) :
    e'.carried id = e.carried id := by
  unfold carried
  rw [h]

theorem carried_of_some (ht : e.transaction? id = some t) :
    e.carried id = 1 := by
  unfold carried
  rw [ht]
  rfl

theorem carried_of_none (hnone : e.transaction? id = none) :
    e.carried id = 0 := by
  unfold carried
  rw [hnone]
  rfl

/-- A transaction is there at most once. -/
theorem carried_le (e : Engine) (id : TransactionId) : e.carried id ≤ 1 := by
  unfold carried
  split
  next => exact Nat.le_refl 1
  next => exact Nat.zero_le 1

/-- There are no transactions if none is there. -/
theorem isEmpty_iff_carried :
    e.transactions.isEmpty = true ↔ ∀ id, e.carried id = 0 := by
  rw [Std.TreeMap.isEmpty_iff_forall_not_mem]
  refine forall_congr' fun id => ?_
  rw [Std.TreeMap.mem_iff_isSome_getElem?]
  unfold carried transaction?
  split
  next hsome => exact iff_of_false (not_not_intro hsome) Nat.one_ne_zero
  next hnone => exact iff_of_true hnone rfl

/-- A transaction that is put in place is there. -/
theorem carried_withTransaction (e : Engine) (id : TransactionId)
    (t : Transaction) (a : TransactionId) :
    (e.withTransaction id t).carried a
      = if a = id then 1 else e.carried a := by
  unfold carried
  rw [transaction?_withTransaction]
  split <;> rfl

/-- A transaction that is replaced is carried as before. -/
theorem carried_replaced (ht : e.transaction? id = some t) (u : Transaction)
    (a : TransactionId) : (e.withTransaction id u).carried a = e.carried a := by
  rw [carried_withTransaction]
  split
  next heq => exact (carried_of_some (heq ▸ ht)).symm
  next => rfl

/-- A transaction that is opened is there under the next number. -/
theorem carried_opened (hfresh : e.Fresh) (mode : ViewMode) (role : Role)
    (a : TransactionId) :
    (e.opened mode role).carried a
      = e.carried a + if a = e.nextId then 1 else 0 := by
  refine (carried_withTransaction _ e.nextId _ a).trans ?_
  split
  next heq =>
    have hnone : e.transaction? a = none :=
      Option.eq_none_iff_forall_ne_some.2 fun t ht =>
        Nat.lt_irrefl _ (heq ▸ hfresh a t ht)
    rw [carried_of_none hnone]
  next => rfl

/-- A dropped transaction is there no more. -/
theorem carried_dropped (e : Engine) (id : TransactionId) (t : Transaction)
    (a : TransactionId) :
    (e.dropped id t).carried a = if a = id then 0 else e.carried a := by
  unfold carried
  rw [transaction?_dropped]
  split <;> rfl

/-- Which transactions are there outlasts what is done through them. -/
theorem lasting_carried (count : TransactionId → Nat) :
    Lasting fun e => ∀ a, e.carried a = count a := by
  intro e e' h hstep a
  cases hstep with
  | counted => exact h a
  | kept ht => exact (carried_replaced ht _ a).trans (h a)
  | wrote ht _ => exact (carried_replaced ht _ a).trans (h a)

-- ============================================ what becomes of it by calls

/-- An engine in which writers come one after the other, with what it
carries. -/
structure Carrying (count : TransactionId → Nat) (e : Engine) : Prop where
  serial : e.Serial
  carried_eq : ∀ a, e.carried a = count a

/-- The counts without one of the ids. -/
def without (count : TransactionId → Nat) (id : TransactionId) :
    TransactionId → Nat :=
  Function.update count id 0

/-- The counts with one id more, if there is one. -/
def withOne (count : TransactionId → Nat) (id? : Option TransactionId) :
    TransactionId → Nat :=
  fun a => count a + if id? = some a then 1 else 0

/-- Dropping a transaction carries one less. -/
theorem Carrying.dropped (h : e.Carrying count) (hserial : e'.Serial)
    (hsame : ∀ a, e'.transaction? a = (e.dropped id t).transaction? a) :
    e'.Carrying (without count id) where
  serial := hserial
  carried_eq a := by
    rw [carried_congr (hsame a), carried_dropped, h.carried_eq]
    exact (Function.update_apply count id 0 a).symm

/-- What is not there can be left out. -/
theorem Carrying.absent (h : e.Carrying count)
    (hnone : e.transaction? id = none) : e.Carrying (without count id) where
  serial := h.serial
  carried_eq a := by
    unfold without
    rw [h.carried_eq, Function.update_apply]
    split
    next heq => rw [heq, ← h.carried_eq, carried_of_none hnone]
    next => rfl

/-- Opening a transaction carries one more. -/
theorem Carrying.opened (h : e.Carrying count) {mode : ViewMode} {role : Role}
    (hserial : e'.Serial)
    (hsame : ∀ a, e'.transaction? a = (e.opened mode role).transaction? a) :
    e'.Carrying (withOne count (some e.nextId)) where
  serial := hserial
  carried_eq a := by
    unfold withOne
    rw [carried_congr (hsame a), carried_opened h.serial.fresh, h.carried_eq]
    simp only [Option.some.injEq, eq_comm]

/-- Beginning to read carries one more. -/
theorem ends_beginRead (count : TransactionId → Nat) :
    Edit.Ends (Carrying count) beginRead
      (fun id => Carrying (withOne count (some id))) (fun _ => False) := by
  intro e h
  rw [run_beginRead]
  exact h.opened ((aside_opened h.serial.fresh _).serial h.serial) fun _ => rfl

/-- Beginning to write carries one more if it succeeds. -/
theorem ends_beginWrite? (count : TransactionId → Nat) :
    Edit.Ends (Carrying count) beginWrite?
      (fun id? => Carrying (withOne count id?)) (fun _ => False) := by
  intro e h
  cases hbusy : e.writerBusy with
  | true =>
      rw [run_beginWrite_busy hbusy]
      exact h
  | false =>
      rw [run_beginWrite_free hbusy]
      exact h.opened (h.serial.begun hbusy) fun _ => rfl

/-- Dropping carries one less. -/
theorem ends_drop (count : TransactionId → Nat) (id : TransactionId) :
    Edit.Ends (Carrying count) (drop id)
      (fun _ => Carrying (without count id)) (fun _ => False) := by
  intro e h
  cases ht : e.transaction? id with
  | none =>
      rw [run_drop_none ht]
      exact h.absent ht
  | some t =>
      obtain ⟨e', hrun, hgone⟩ := h.serial.drops ht
      rw [hrun]
      refine ⟨hgone.serial, fun a => ?_⟩
      unfold without carried
      rw [Function.update_apply, ← h.carried_eq, ← isSome_post?,
        hgone.post?_eq]
      unfold carried
      rw [← isSome_post?]
      split <;> rfl

/-- A writer that goes on to read is still there, and one that cannot is
gone. -/
theorem ends_commitAndRead (count : TransactionId → Nat)
    (id : TransactionId) :
    Edit.Ends (Carrying count) (commitAndRead id)
      (fun _ => Carrying count) (Carrying (without count id)) := by
  intro e h
  have hserial := (h.serial.step (.call (.commitAndRead id))).serial h.serial
  have hdropped {t : Transaction} {err : Error} {e' : Engine}
      (hrun : (commitAndRead id).run e = .error err e')
      (hsame : ∀ a, e'.transaction? a = (e.dropped id t).transaction? a) :
      e'.Carrying (without count id) :=
    h.dropped (step_of_error (c := .commitAndRead id) hrun ▸ hserial) hsame
  cases ht : e.transaction? id with
  | none =>
      obtain ⟨err, hrun⟩ := run_commitAndRead_none ht
      rw [hrun]
      exact h.absent ht
  | some t =>
      by_cases hw : t.IsWriting
      · obtain ⟨-, hrole, -, -⟩ := h.serial.active ht hw
        cases hlog : appendTo (e.recordOf t) e.log with
        | mk outcome log =>
            cases outcome with
            | ok grown =>
                obtain ⟨e', hrun, hsame⟩ := run_commitAndRead_ok ht hrole hlog
                rw [hrun]
                refine ⟨step_of_ok (c := .commitAndRead id) hrun ▸ hserial,
                  fun a => ?_⟩
                rw [carried_congr (hsame.transaction?_eq a), ← h.carried_eq a]
                exact carried_replaced ht (e.reader t) a
            | error err =>
                obtain ⟨e', hrun, hsame⟩ :=
                  run_commitAndRead_error ht hrole hlog
                rw [hrun]
                exact hdropped hrun fun a => (hsame.transaction?_eq a).trans
                  (transaction?_aborted_dropped e id t t a)
      · obtain ⟨err, hrun⟩ := run_commitAndRead_idle ht hw
        rw [hrun]
        exact hdropped hrun fun _ => rfl

-- ======================================================= all other calls

/-- What comes of any other call carries the same. -/
theorem Outcome.lingers {c : Call} {r : EStateM.Result Error Engine Unit}
    (houtcome : Outcome e c r) (hc : c.lingers = true)
    (hrun : c.run.run e = r) (a : TransactionId) :
    (c.step e).carried a = e.carried a := by
  cases houtcome with
  | handled _ hstar =>
      exact (lasting_carried e.carried).star hstar (fun _ => rfl) a
  | idle _ _ => rw [step_of_ok hrun]
  | failed _ => rw [step_of_error hrun]
  | reading | writing | handedOff | lost | consumed | dropped
  | droppedWriter => cases hc
  | @committed id t log grown e' ht _ _ hsame =>
      rw [step_of_ok hrun, carried_congr (hsame.transaction?_eq a)]
      exact carried_replaced ht (e.shown t) a
  | @refused id t log err e' ht _ _ hsame =>
      rw [step_of_error hrun, carried_congr (hsame.transaction?_eq a)]
      exact carried_replaced ht t.rolledBack a
  | @rolledBack id t e' ht _ hsame =>
      rw [step_of_ok hrun, carried_congr (hsame.transaction?_eq a)]
      exact carried_replaced ht t.rolledBack a
  | @moved id t ht _ =>
      rw [step_of_ok hrun]
      exact carried_replaced ht (e.moved t) a

/-- A call that ends no transaction carries what was carried. -/
theorem preserves_lingering (count : TransactionId → Nat) {c : Call}
    (hc : c.lingers = true) : Edit.Preserves (Carrying count) c.run := by
  intro e h
  have hafter : (c.step e).Carrying count :=
    ⟨(h.serial.step (.call c)).serial h.serial, fun a =>
      ((h.serial.outcome c).lingers hc rfl a).trans (h.carried_eq a)⟩
  cases hrun : c.run.run e with
  | ok a e' => exact step_of_ok hrun ▸ hafter
  | error err e' => exact step_of_error hrun ▸ hafter

/-- What stands in the log makes no difference. -/
theorem Carrying.logged (h : e.Carrying count) (log : Option HistoryLog) :
    Carrying count { e with log } :=
  ⟨h.serial.logged log, h.carried_eq⟩

/-- A starting engine carries nothing. -/
theorem carrying_starting (s : Snapshot) (log : Option HistoryLog)
    (limits : Limits) : (starting s log limits).Carrying fun _ => 0 :=
  ⟨serial_starting s log limits, fun _ =>
    carried_of_none Std.TreeMap.getElem?_emptyc⟩

end Engine

end Colonnade
