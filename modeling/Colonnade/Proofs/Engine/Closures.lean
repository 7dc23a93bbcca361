/-
Transactions that a closure is run in. What `write` does before and after
the closure are calls that could as well be made one by one: a writer
begins, it is committed or rolled back as the outcome of the closure asks,
and it is dropped. So where the closure acts by events, a `write` is a run
of events, and what holds all along a run holds before, within and after
it.

Chain: `Engine.Untraced` tells what is left when the commit at the end of a
closure fails.
-/
import Colonnade.Proofs.Engine.Stepped

namespace Colonnade

-- =============================================================== calls

namespace Call

variable {c : Call} {e e' : Engine} {err : Error}

/-- How a call ends. -/
def outcome (e : Engine) (c : Call) : Except Error Unit :=
  match c.run.run e with
  | .ok _ _ => .ok ()
  | .error err _ => .error err

theorem outcome_of_ok (hrun : c.run.run e = .ok () e') :
    c.outcome e = .ok () := by
  unfold outcome
  rw [hrun]

theorem outcome_of_error (hrun : c.run.run e = .error err e') :
    c.outcome e = .error err := by
  unfold outcome
  rw [hrun]

theorem run_attempt (c : Call) (e : Engine) :
    (Edit.attempt c.run).run e = .ok (c.outcome e) (c.step e) := by
  rw [Edit.run_attempt]
  unfold outcome step
  cases c.run.run e <;> rfl

end Call

namespace Engine

variable {e e' : Engine} {id : TransactionId} {t : Transaction} {α : Type}

theorem through_append (e : Engine) (before after : List Event) :
    e.through (before ++ after) = (e.through before).through after :=
  List.foldl_append

/-- Dropping succeeds. -/
theorem Serial.run_drop (h : e.Serial) (id : TransactionId) :
    (drop id).run e = .ok () ((Call.drop id).step e) := by
  have hok {e' : Engine} (hrun : (drop id).run e = .ok () e') :
      (drop id).run e = .ok () ((Call.drop id).step e) := by
    rw [step_of_ok (c := .drop id) hrun]
    exact hrun
  cases ht : e.transaction? id with
  | none => exact hok (run_drop_none ht)
  | some t =>
      by_cases hw : t.IsWriting
      · obtain ⟨-, hrole, -, -⟩ := h.active ht hw
        obtain ⟨e', hrun, -⟩ := run_drop_active ht hrole
        exact hok hrun
      · exact hok (run_drop_idle ht hw)

-- ============================================================ settling

/-- What a closure is to be concluded by. -/
def closing (id : TransactionId) : Except Error α → Call
  | .ok _ => .commit id
  | .error _ => .rollback id

/-- The outcome of a closure, which stands if its transaction was concluded
as it asks. -/
def settled (outcome : Except Error α) (ended : Except Error Unit) :
    Except Error α := do
  let a ← outcome
  ended
  return a

theorem writerState_active :
    writerState t matches .ok .active ↔ t.IsWriting := by
  unfold writerState Transaction.IsWriting
  cases t.role with
  | reader => simp
  | writer state holdsSlot => cases state <;> simp

/-- A closure that has left its transaction active is concluded as it
asks. -/
theorem run_settleWrite_active (outcome : Except Error α)
    (ht : e.transaction? id = some t) (hw : t.IsWriting)
    (hdrop : (drop id).run ((closing id outcome).step e) = .ok () e') :
    (settleWrite id outcome).run e
      = (liftM (settled outcome ((closing id outcome).outcome e)) :
          Edit Engine α).run e' := by
  unfold settleWrite
  rw [EStateM.run_bind, EStateM.run_get]
  dsimp only
  rw [requireTransaction_eq_ok.2 ht]
  show (do
    let ended ← Edit.attempt (if writerState t matches .ok .active then _
      else _)
    drop id
    _ : Edit Engine α).run e = _
  rw [if_pos (writerState_active.2 hw), EStateM.run_bind]
  cases outcome with
  | ok a =>
      have hdrop : (drop id).run ((Call.commit id).step e) = .ok () e' := hdrop
      have hattempt : (Edit.attempt do let _ ← commit id).run e = _ :=
        (Call.commit id).run_attempt e
      dsimp only
      rw [hattempt]
      dsimp only
      rw [EStateM.run_bind, hdrop]
      show _ = (liftM (settled (.ok a) ((Call.commit id).outcome e)) :
        Edit Engine α).run e'
      cases (Call.commit id).outcome e <;> rfl
  | error err =>
      have hdrop : (drop id).run ((Call.rollback id).step e) = .ok () e' :=
        hdrop
      have hattempt : (Edit.attempt (rollback id)).run e = _ :=
        (Call.rollback id).run_attempt e
      dsimp only
      rw [hattempt]
      dsimp only
      rw [EStateM.run_bind, hdrop]
      rfl

/-- A closure that has ended its transaction itself is left at that. -/
theorem run_settleWrite_ended (outcome : Except Error α)
    (ht : e.transaction? id = some t) (hidle : ¬ t.IsWriting)
    (hdrop : (drop id).run e = .ok () e') :
    (settleWrite id outcome).run e
      = (liftM outcome : Edit Engine α).run e' := by
  unfold settleWrite
  rw [EStateM.run_bind, EStateM.run_get]
  dsimp only
  rw [requireTransaction_eq_ok.2 ht]
  show (do
    let ended ← Edit.attempt (if writerState t matches .ok .active then _
      else pure ())
    drop id
    _ : Edit Engine α).run e = _
  rw [if_neg fun h => hidle (writerState_active.1 h)]
  show (drop id >>= _).run e = _
  rw [EStateM.run_bind, hdrop]
  cases outcome <;> rfl

/-- Either way it is concluded by events. -/
theorem Serial.settleWrite_through (h : e.Serial) (id : TransactionId)
    (outcome : Except Error α) :
    ∃ (result : Except Error α) (events : List Event),
      (settleWrite id outcome).run e
        = (liftM result : Edit Engine α).run (e.through events) := by
  cases ht : e.transaction? id with
  | none =>
      refine ⟨.error (.illegalState .noSuchTransaction), [], ?_⟩
      unfold settleWrite
      rw [EStateM.run_bind, EStateM.run_get]
      dsimp only
      unfold requireTransaction
      rw [ht]
      rfl
  | some t =>
      by_cases hw : t.IsWriting
      · let c := closing id outcome
        have hended : (c.step e).Serial := (h.step (.call c)).serial h
        exact ⟨_, [.call c, .call (.drop id)],
          run_settleWrite_active outcome ht hw (hended.run_drop id)⟩
      · exact ⟨_, [.call (.drop id)],
          run_settleWrite_ended outcome ht hw (h.run_drop id)⟩

section Ending

variable {err : Error} {log : Option HistoryLog}

/-- Where the log takes the record, a closure that succeeds has its
result. -/
theorem run_settleWrite_ok (a : α) (ht : e.transaction? id = some t)
    (hrole : t.role = .writer .active true) {grown : Nat}
    (hlog : appendTo (e.recordOf t) e.log = (.ok grown, log)) :
    ∃ e', (settleWrite id (.ok a)).run e = .ok a e' := by
  obtain ⟨made, hrun, hsame⟩ := run_commit_ok ht hrole hlog
  have hshown : made.transaction? id = some (e.shown t) :=
    (hsame.transaction?_eq id).trans (transaction?_self e id (e.shown t))
  have hdone : (Call.commit id).run.run e = _ := run_done (commit id) e
  rw [hrun] at hdone
  have hsettle := run_settleWrite_active (.ok a) ht ⟨true, hrole⟩
    ((congrArg (drop id).run (step_of_ok hdone)).trans
      (run_drop_idle hshown (idle_shown e t)))
  rw [show (closing id (Except.ok a)).outcome e = .ok () from
    Call.outcome_of_ok hdone] at hsettle
  exact ⟨_, hsettle⟩

theorem run_settleWrite_refused (a : α) (ht : e.transaction? id = some t)
    (hrole : t.role = .writer .active true)
    (hlog : appendTo (e.recordOf t) e.log = (.error err, log)) :
    ∃ e', (settleWrite id (.ok a)).run e = .error err e'
      ∧ Same e' { (e.aborted id t).dropped id t with log } := by
  obtain ⟨kept, hrun, hsame⟩ := run_commit_error ht hrole hlog
  have hback : kept.transaction? id = some t.rolledBack :=
    (hsame.transaction?_eq id).trans (transaction?_self e id t.rolledBack)
  have hdone : (Call.commit id).run.run e = _ := run_done (commit id) e
  rw [hrun] at hdone
  have hsettle := run_settleWrite_active (.ok a) ht ⟨true, hrole⟩
    ((congrArg (drop id).run (step_of_error hdone)).trans
      (run_drop_idle hback nofun))
  rw [show (closing id (Except.ok a)).outcome e = .error err from
    Call.outcome_of_error hdone] at hsettle
  exact ⟨_, hsettle, hsame.dropped id t.rolledBack⟩

theorem run_settleWrite_error (ht : e.transaction? id = some t)
    (hrole : t.role = .writer .active true) :
    ∃ e', (settleWrite id (.error err : Except Error α)).run e = .error err e'
      ∧ Same e' ((e.aborted id t).dropped id t) := by
  obtain ⟨kept, hrun, hsame⟩ := run_rollback ht hrole
  have hback : kept.transaction? id = some t.rolledBack :=
    (hsame.transaction?_eq id).trans (transaction?_self e id t.rolledBack)
  have hsettle := run_settleWrite_active (.error err : Except Error α) ht
    ⟨true, hrole⟩ ((congrArg (drop id).run
      (step_of_ok (c := .rollback id) hrun)).trans (run_drop_idle hback nofun))
  exact ⟨_, hsettle, hsame.dropped id t.rolledBack⟩

end Ending

-- ============================================================= writing

variable {f : TransactionId → Edit Engine α} {outcome : Except Error α}

theorem run_write_busy (hbusy : e.writerBusy = true) :
    ∃ err, (write f).run e = .error err e := by
  unfold write write?
  rw [EStateM.run_bind, EStateM.run_bind, run_beginWrite_busy hbusy]
  exact ⟨_, rfl⟩

theorem run_write_free (hfree : e.writerBusy = false)
    (hf : (Edit.attempt (f e.nextId)).run e.begun = .ok outcome e') :
    (write f).run e = (settleWrite e.nextId outcome).run e' := by
  unfold write write?
  rw [EStateM.run_bind, EStateM.run_bind, run_beginWrite_free hfree]
  dsimp only
  rw [EStateM.run_bind, hf]
  dsimp only
  rw [← bind_pure_comp, EStateM.run_bind]
  cases (settleWrite e.nextId outcome).run e' <;> rfl

/-- A closure that acts by events makes events of the whole `write`. -/
theorem write_through (h : e.Serial) {within : List Event}
    (hf : e.writerBusy = false → (Edit.attempt (f e.nextId)).run e.begun
      = .ok outcome (e.begun.through within)) :
    ∃ (result : Except Error α) (events : List Event),
      (write f).run e
        = (liftM result : Edit Engine α).run (e.through events) := by
  cases hbusy : e.writerBusy with
  | true =>
      obtain ⟨err, hrun⟩ := @run_write_busy _ _ f hbusy
      exact ⟨.error err, [], hrun⟩
  | false =>
      have hbegun : Event.step e (.call .beginWrite) = e.begun :=
        step_beginWrite_free hbusy
      obtain ⟨result, after, hsettle⟩ :=
        (h.begun hbusy).through.settleWrite_through e.nextId outcome
      rw [← through_append, ← hbegun] at hsettle
      refine ⟨result, .call .beginWrite :: (within ++ after), ?_⟩
      rw [run_write_free hbusy (hf hbusy), ← hbegun]
      exact hsettle

end Engine

end Colonnade
