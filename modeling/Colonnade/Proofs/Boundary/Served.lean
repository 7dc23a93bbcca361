/-
What a session keeps of its engine. A property of engines that no handle and
no event ends (`Engine.Steady`) outlasts every operation of a session: an
operation looks its handles up, which does not touch the engine, and gives
the engine steps that handles or events consist of. So what holds of every
engine that events lead to holds of every engine behind a session too, and
nothing about events has to be shown again.

Every snapshot that is shown to a transaction of a session was therefore
reached by instructions.

Chain: `Boundary.Nulling` writes to such snapshots.
-/
import Colonnade.Proofs.Boundary.Writers
import Colonnade.Proofs.Engine.Wrought

namespace Colonnade

-- ================================================== steady properties

namespace Engine

/-- A property of engines that neither a handle nor a call ends, and in which
the log plays no part. -/
structure Steady (P : Engine → Prop) : Prop where
  lasting : Lasting P
  call : ∀ c : Call, Edit.Preserves P c.run
  logged : ∀ e log, P e → P { e with log }

/-- In a serial engine, that every snapshot was reached is steady. -/
theorem steady_wrought : Steady fun e => e.Serial ∧ e.Wrought where
  lasting e e' h hstep :=
    ⟨lasting_serial e e' h.1 hstep, lasting_wrought e e' h.2 hstep⟩
  call c e h := by
    have hstep : (c.step e).Serial ∧ (c.step e).Wrought :=
      ⟨(h.1.step (.call c)).serial h.1, h.2.step h.1 (.call c)⟩
    unfold Call.step at hstep
    cases hrun : c.run.run e with
    | ok a e' =>
        rw [hrun] at hstep
        exact hstep
    | error err e' =>
        rw [hrun] at hstep
        exact hstep
  logged _ log h := ⟨h.1.logged log, h.2.logged log⟩

end Engine

/-- Whether an answer is used does not matter for what is preserved. -/
theorem Edit.Preserves.of_done {σ ε α : Type} {P : σ → Prop}
    {x : EStateM ε σ α} (h : Preserves P (do let _ ← x)) : Preserves P x := by
  intro s hs
  have hends := h s hs
  rw [EStateM.run_bind] at hends
  cases hrun : x.run s with
  | ok a s' =>
      rw [hrun] at hends
      exact hends
  | error err s' =>
      rw [hrun] at hends
      exact hends

namespace Boundary.Session

open Engine (Steady)

variable {P : Engine → Prop} {s : Session} {α : Type}

-- ==================================================== one operation

/-- A call through handles keeps what lasts through handles. -/
theorem ThroughHandles.keeps {call : Call α} (h : ThroughHandles call)
    (hP : Steady P) : Edit.Preserves (fun s => P s.engine) call := by
  intro s hs
  have hends := h P hP.lasting s.transactions s ⟨hs, rfl⟩
  cases hrun : call.run s with
  | ok a s' =>
      rw [hrun] at hends
      exact hends.1
  | error f s' =>
      rw [hrun] at hends
      exact hends.1

theorem keeps_lendTransaction (id : TransactionId) (kind : TransactionKind) :
    Edit.Preserves (fun s => P s.engine) (lendTransaction id kind) :=
  fun _ hs => hs

theorem keeps_takeTransaction (h : Int64) :
    Edit.Preserves (fun s => P s.engine) (takeTransaction h) := by
  refine Edit.Ends.get_bind fun s hs => ?_
  rcases s.transactions.remove h with ⟨_ | t, transactions⟩
  · exact .throw fun _ heq => heq ▸ hs
  · exact Edit.Ends.bind (.modify fun _ heq => heq ▸ hs) fun _ =>
      .pure fun _ hs => hs

section Steady

variable (hP : Steady P)

include hP

/-- Ending a writer ends it as the engine does, and drops it. -/
theorem keeps_endWrite (txn : Int64) {finish : TransactionId → Edit Engine α}
    (hfinish : ∀ id, Edit.Preserves P (finish id)) :
    Edit.Preserves (fun s => P s.engine) (endWrite txn finish) := by
  refine Edit.Ends.bind
    ((throughHandles_transactionOf .write txn).keeps hP) fun _ => ?_
  refine Edit.Ends.bind (keeps_takeTransaction txn) fun t => ?_
  have hattempt : Edit.Preserves P (Edit.attempt (finish t.id)) := by
    refine Edit.Ends.weaken (Edit.Ends.attempt (hfinish t.id))
      (fun _ h => h) (fun r _ h => ?_) fun _ h => h
    cases r <;> exact h
  refine preserves_onEngine (Edit.Ends.bind hattempt fun r => ?_)
  refine Edit.Ends.bind (hP.call (.drop t.id)) fun _ => ?_
  cases r with
  | ok a => exact .pure fun _ h => h
  | error err => exact .throw fun _ h => h

/-- Every operation keeps what is steady. -/
theorem Operation.keeps (op : Operation) :
    Edit.Preserves (fun s => P s.engine) op.run := by
  have hdone {α : Type} {x : Call α}
      (h : Edit.Preserves (fun s : Session => P s.engine) x) :
      Edit.Preserves (fun s : Session => P s.engine) (do let _ ← x) :=
    Edit.Ends.bind h fun _ => .pure fun _ h => h
  cases hop : op.turnsOver with
  | false => exact (Operation.throughHandles hop).keeps hP
  | true =>
  cases op with
  | beginRead =>
      exact hdone (Edit.Ends.bind
        (preserves_onEngine (hP.call .beginRead).of_done) fun id =>
          keeps_lendTransaction id .read)
  | beginWrite =>
      refine hdone (Edit.Ends.bind
        (preserves_onEngine (hP.call .beginWrite).of_done) fun id? => ?_)
      cases id? with
      | none => exact .pure fun _ h => h
      | some id =>
          exact Edit.Ends.bind (keeps_lendTransaction id .write) fun _ =>
            .pure fun _ h => h
  | commit txn =>
      exact hdone (keeps_endWrite hP txn fun id =>
        (hP.call (.commit id)).of_done)
  | rollback txn =>
      exact keeps_endWrite hP txn fun id => hP.call (.rollback id)
  | close txn =>
      exact Edit.Ends.bind (keeps_takeTransaction txn) fun t =>
        preserves_onEngine (hP.call (.drop t.id))
  | advance txn =>
      exact hdone (Edit.Ends.bind
        ((throughHandles_transactionOf .read txn).keeps hP) fun t =>
          preserves_onEngine (hP.call (.advance t.id)).of_done)
  | _ => cases hop

theorem Event.keeps (ev : Event) (hs : P s.engine) :
    P (ev.step s).engine := by
  cases ev with
  | call op =>
      have hends := Operation.keeps hP op s hs
      show P (op.step s).engine
      unfold Operation.step
      cases hrun : op.run.run s with
      | ok a s' =>
          rw [hrun] at hends
          exact hends
      | error f s' =>
          rw [hrun] at hends
          exact hends
  | logged f => exact hP.logged s.engine _ hs

/-- A run of a session keeps what is steady. -/
theorem keeps_through (events : List Event) (hs : P s.engine) :
    P (s.through events).engine := by
  induction events generalizing s with
  | nil => exact hs
  | cons ev evs ih => exact ih (Event.keeps hP ev hs)

end Steady

/-- The engine behind a session holds reached snapshots only, at every point
of every run. -/
theorem wrought_through {is : List Instruction} {snapshot : Snapshot}
    (hreached : Snapshot.Reached is snapshot) (log : Option HistoryLog)
    (limits : Limits) (earlier : List Engine.Event) (config : Config)
    (path : Option String) (events : List Event) :
    let s := (serving ((Engine.starting snapshot log limits).through earlier)
      config path).through events
    s.engine.Serial ∧ s.engine.Wrought := by
  have hserial := Engine.serial_starting snapshot log limits
  have hwrought := Engine.wrought_starting hreached log limits
  exact keeps_through Engine.steady_wrought events
    ⟨hserial.through, hwrought.through hserial earlier⟩

end Boundary.Session

end Colonnade
