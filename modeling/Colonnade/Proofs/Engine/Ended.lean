/-
A write transaction after its end. It ends by a commit that succeeds, by one
that fails, or by being rolled back, and is kept until it is dropped.

Ending is final: whatever happens to the engine afterwards, the transaction
stays as its end has left it, down to the snapshot of its view. So it can be
settled at the end itself what it does with further work at any later time.
Everything that asks whether the transaction is active refuses, with the
reason that fits the end, and changes nothing. Getting or adding a table asks
that only when it is about to add one; a name that the transaction still
finds gives a handle, though one that was never valid.

Chain: `Engine.Lookups` has what such a transaction finds.
-/
import Colonnade.Proofs.Engine.Handed
import Colonnade.Proofs.Engine.Turns

namespace Colonnade

/-- The reason for which a write transaction that has come so far refuses
further work. -/
def TransactionState.refusal : TransactionState → BadState
  | .committed => .alreadyCommitted
  | _ => .alreadyRolledBack

namespace Engine

variable {e e' : Engine} {id : TransactionId} {t t' : Transaction}
  {ev : Event} {events : List Event} {state : TransactionState}
  {holdsSlot : Bool} {err : Error} {name : String}

-- ============================================================= the end

/-- How an event ends an active writer that stays to be looked at. -/
inductive Ending (e : Engine) (id : TransactionId) :
    Event → TransactionState → Prop
  | committed {v : Version} {e' : Engine}
      (hrun : (commit id).run e = .ok v e') :
      Ending e id (.call (.commit id)) .committed
  | refused {err : Error} {e' : Engine}
      (hrun : (commit id).run e = .error err e') :
      Ending e id (.call (.commit id)) .rolledBack
  | rolledBack : Ending e id (.call (.rollback id)) .rolledBack

/-- What ends a transaction leaves it in another state. -/
theorem Ending.ne_active (h : Ending e id ev state) : state ≠ .active := by
  cases h <;> nofun

theorem Ending.typed (h : Ending e id ev state) : ev.Typed e := by
  cases h <;> trivial

/-- The transaction that an end leaves. -/
def Ending.left (e : Engine) (t : Transaction) (state : TransactionState) :
    Transaction :=
  if state = .committed then e.shown t else t.rolledBack

/-- What ends a writer leaves it in the state it ends in. -/
theorem Ending.leaves (h : Ending e id ev state) (he : e.Serial)
    (ht : e.transaction? id = some t) (hw : t.IsWriting) :
    (ev.step e).transaction? id = some (left e t state) := by
  obtain ⟨-, hrole, -, -⟩ := he.active ht hw
  -- a commit succeeds exactly if it can be appended to the log
  have hdone : (Call.commit id).run.run e = _ := run_done (commit id) e
  cases h with
  | @committed v _ hrun =>
      cases hlog : appendTo (e.recordOf t) e.log with
      | mk outcome log =>
          cases outcome with
          | ok grown =>
              obtain ⟨e', hcommit, hsame⟩ := run_commit_ok ht hrole hlog
              rw [hcommit] at hdone
              show ((Call.commit id).step e).transaction? id = _
              rw [step_of_ok hdone, hsame.transaction?_eq]
              exact transaction?_self e id (e.shown t)
          | error err =>
              obtain ⟨e', hcommit, -⟩ := run_commit_error ht hrole hlog
              rw [hcommit] at hrun
              cases hrun
  | @refused err _ hrun =>
      cases hlog : appendTo (e.recordOf t) e.log with
      | mk outcome log =>
          cases outcome with
          | ok grown =>
              obtain ⟨e', hcommit, -⟩ := run_commit_ok ht hrole hlog
              rw [hcommit] at hrun
              cases hrun
          | error err =>
              obtain ⟨e', hcommit, hsame⟩ := run_commit_error ht hrole hlog
              rw [hcommit] at hdone
              show ((Call.commit id).step e).transaction? id = _
              rw [step_of_error hdone, hsame.transaction?_eq]
              exact transaction?_self e id t.rolledBack
  | rolledBack =>
      obtain ⟨e', hrun, hsame⟩ := run_rollback ht hrole
      have hcall : (Call.rollback id).run.run e = .ok () e' := hrun
      show ((Call.rollback id).step e).transaction? id = _
      rw [step_of_ok hcall, hsame.transaction?_eq]
      exact transaction?_self e id t.rolledBack

/-- What an end leaves has the state of that end. -/
theorem Ending.role (h : Ending e id ev state) (he : e.Serial)
    (ht : e.transaction? id = some t) (hw : t.IsWriting)
    (ht' : (ev.step e).transaction? id = some t') :
    t'.role = .writer state false := by
  rw [h.leaves he ht hw] at ht'
  obtain rfl := Option.some.inj ht'
  cases h <;> rfl

-- ==================================================== nothing comes after

/-- An event leaves a transaction that has ended as it is, or drops it. -/
theorem Orderly.ended_step (he : e.Orderly) (htyped : ev.Typed e)
    (ht : e.transaction? id = some t) (hended : t.HasEnded)
    (ht' : (ev.step e).transaction? id = some t') : t' = t := by
  have hturn := he.serial.turn htyped id
  have hclosed := (he.settled id t ht).closed_iff.2 hended
  obtain ⟨state, holdsSlot, hrole, hne⟩ := hended
  have hidle (hactive : t.role = .writer .active true) : False := by
    rw [hrole] at hactive
    cases hactive
    exact hne rfl
  rw [ht, ht'] at hturn
  cases hturn with
  | worked hstill hworked =>
      have hview : t'.view = t.view := hworked.view_eq (by simp [hclosed])
      have hkept := hworked.role_eq
      have hpinned := hworked.pinned_eq
      cases t
      cases t'
      simp_all
  | rolledBack hactive | committed hactive | handedOff hactive =>
      exact (hidle hactive).elim
  | moved hmoves hreads hpinned =>
      rw [hrole] at hreads
      cases hreads

/-- However much happens afterwards, a transaction that has ended stays as
it is, as long as it is there. -/
theorem Orderly.ended_through (he : e.Orderly) (htyped : TypedRun e events)
    (ht : e.transaction? id = some t) (hended : t.HasEnded)
    (ht' : (e.through events).transaction? id = some t') : t' = t := by
  induction events generalizing e with
  | nil => exact Option.some.inj (ht'.symm.trans ht)
  | cons ev evs ih =>
      obtain ⟨u, hu, -⟩ := he.serial.stays htyped ht ht'
      obtain rfl := he.ended_step htyped.1 ht hended hu
      exact ih (he.step htyped.1) htyped.2 hu ht'

/-- What an end leaves is there for as long as the transaction is. -/
theorem Ending.through (h : Ending e id ev state) (he : e.Orderly)
    (ht : e.transaction? id = some t) (hw : t.IsWriting)
    (htyped : TypedRun (ev.step e) events)
    (ht' : ((ev.step e).through events).transaction? id = some t') :
    (ev.step e).transaction? id = some t'
      ∧ t'.role = .writer state false := by
  have hleaves := h.leaves he.serial ht hw
  have hrole := h.role he.serial ht hw hleaves
  have hended : Transaction.HasEnded _ := ⟨_, _, hrole, h.ne_active⟩
  obtain rfl := (he.step h.typed).ended_through htyped hleaves hended ht'
  exact ⟨hleaves, hrole⟩

-- ============================================================= refusals

/-- What has ended is not active, and the reason says how it ended. -/
theorem requireActive_ended (ht : e.transaction? id = some t)
    (hrole : t.role = .writer state holdsSlot) (hne : state ≠ .active) :
    e.requireActive id = .error (.illegalState state.refusal) := by
  have hrequire : e.requireTransaction id = .ok t :=
    requireTransaction_eq_ok.2 ht
  have hstate : writerState t = .ok state := by simp [writerState, hrole]
  unfold requireActive
  rw [hrequire]
  show (writerState t >>= _) = _
  rw [hstate]
  cases state with
  | active => exact (hne rfl).elim
  | committed | rolledBack => rfl

section Refused

variable (h : e.requireActive id = .error err)

include h

/-- What asks first whether the transaction is active does nothing else. -/
theorem run_asking {α : Type} (f : Transaction → Edit Engine α) :
    (do let t ← (← get).requireActive id; f t : Edit Engine α).run e
      = .error err e := by
  rw [EStateM.run_bind, EStateM.run_get]
  dsimp only
  rw [h]
  rfl

theorem run_addTable_refused (name : String) :
    (addTable id name).run e = .error err e :=
  run_asking h _

theorem run_removeTable_refused (name : String) :
    (removeTable id name).run e = .error err e :=
  run_asking h _

theorem run_rollback_refused : (rollback id).run e = .error err e :=
  run_asking h _

/-- A transaction that has ended cannot be committed. -/
theorem run_commit_refused : (commit id).run e = .error err e := by
  have hpublish : (publishChanges id).run e = .error err e := run_asking h _
  unfold commit
  rw [EStateM.run_bind, hpublish]

/-- A transaction that has ended adds no table. -/
theorem run_getOrAddTable_refused (hnone : e.table? id name = .ok none) :
    (getOrAddTable id name).run e = .error err e := by
  unfold getOrAddTable
  rw [EStateM.run_bind, EStateM.run_get]
  dsimp only
  rw [hnone]
  exact run_addTable_refused h name

end Refused

/-- A transaction that has ended still gets a table that it has. -/
theorem run_getOrAddTable_found {h : TableHandle}
    (hfound : e.table? id name = .ok (some h)) :
    (getOrAddTable id name).run e = .ok h e := by
  unfold getOrAddTable
  rw [EStateM.run_bind, EStateM.run_get]
  dsimp only
  rw [hfound]
  rfl

-- ========================================================= further work

/-- What a lookup by name comes to. -/
theorem table?_of (ht : e.transaction? id = some t) (name : String) :
    e.table? id name = .ok ((t.view.snapshot.tableNamed? name).map
      fun u => ⟨⟨id, t.view.generation⟩, u.key⟩) :=
  lookup_of ht _

/-- A transaction has the tables of its view. -/
theorem hasTable_of (ht : e.transaction? id = some t) (name : String) :
    e.hasTable id name = .ok (t.view.snapshot.tableNamed? name).isSome := by
  rw [hasTable, snapshotOf_eq_ok.2 ⟨t, ht, rfl⟩]
  rfl

/-- No handle of a transaction that has ended is valid. -/
theorem Orderly.invalid_of_ended (he : e.Orderly)
    (ht : e.transaction? id = some t) (hended : t.HasEnded)
    {h : TableHandle} (hid : h.anchor.transaction = id) :
    h.isValid e = false := by
  subst hid
  have hclosed := (he.settled _ t ht).closed_iff.2 hended
  simp [TableHandle.isValid, Anchor.check, ht, View.admits, hclosed]

/-- A write transaction that has ended refuses all further work, however much
has happened since, and says how it ended. Nothing at all is changed by it.
The one exception is getting or adding a table that the transaction still
finds by its name: that succeeds, with a handle that is not valid. -/
theorem further_work_after_end (s : Snapshot) (log : Option HistoryLog)
    (limits : Limits) {before later : List Event} {ev : Event}
    {id : TransactionId} {state : TransactionState} {t t' : Transaction}
    (hbefore : TypedRun (starting s log limits) before) :
    let e := (starting s log limits).through before
    let e' := (ev.step e).through later
    e.transaction? id = some t → t.IsWriting → Ending e id ev state →
    TypedRun (ev.step e) later → e'.transaction? id = some t' →
    let why : Error := .illegalState state.refusal
    ∀ name,
      (addTable id name).run e' = .error why e'
      ∧ (removeTable id name).run e' = .error why e'
      ∧ (commit id).run e' = .error why e'
      ∧ (rollback id).run e' = .error why e'
      ∧ ∃ found, e'.hasTable id name = .ok found
        ∧ (found = false → (getOrAddTable id name).run e' = .error why e')
        ∧ (found = true → ∃ h, (getOrAddTable id name).run e' = .ok h e'
          ∧ h.isValid e' = false) := by
  intro e e' ht hw hending hlater ht' why name
  have he : e.Orderly := (orderly_starting s log limits).through hbefore
  have he' : e'.Orderly := (he.step hending.typed).through hlater
  obtain ⟨-, hrole⟩ := hending.through he ht hw hlater ht'
  have hrefused : e'.requireActive id = .error why :=
    requireActive_ended ht' hrole hending.ne_active
  refine ⟨run_addTable_refused hrefused name,
    run_removeTable_refused hrefused name, run_commit_refused hrefused,
    run_rollback_refused hrefused, _, hasTable_of ht' name,
    fun hnone => ?_, fun hsome => ?_⟩
  · have hmissing : e'.table? id name = .ok none := by
      rw [Option.isSome_eq_false_iff, Option.isNone_iff_eq_none] at hnone
      rw [table?_of ht', hnone]
      rfl
    exact run_getOrAddTable_refused hrefused hmissing
  · obtain ⟨u, hu⟩ := Option.isSome_iff_exists.1 hsome
    have hfound : e'.table? id name
        = .ok (some ⟨⟨id, t'.view.generation⟩, u.key⟩) := by
      rw [table?_of ht', hu]
      rfl
    -- the handle is of a view that is closed
    have hended : t'.HasEnded := ⟨_, _, hrole, hending.ne_active⟩
    exact ⟨_, run_getOrAddTable_found hfound,
      he'.invalid_of_ended ht' hended rfl⟩

/-- A writer that adds a table. -/
def addsTable : List Event := [.call .beginWrite, .call (.addTable ⟨1⟩ "a")]

/-- Another writer, at work after the first has committed. -/
def writesNext : List Event :=
  [.call .beginWrite, .call (.addTable ⟨2⟩ "b")]

/-- The first writer can do nothing to the second. -/
theorem further_work_after_end_committed :
    let e := (inMemory {}).through addsTable
    let e' := ((Event.call (.commit ⟨1⟩)).step e).through writesNext
    e'.writerBusy = true
      ∧ (rollback ⟨1⟩).run e' = .error (.illegalState .alreadyCommitted) e'
      ∧ (getOrAddTable ⟨1⟩ "b").run e'
        = .error (.illegalState .alreadyCommitted) e' := by
  intro e e'
  have hbefore : TypedRun (inMemory {}) addsTable := ⟨trivial, trivial, trivial⟩
  have hlater : TypedRun ((Event.call (.commit ⟨1⟩)).step e) writesNext :=
    ⟨trivial, trivial, trivial⟩
  have hrole : (e.transaction? ⟨1⟩).map (·.role)
      = some (.writer .active true) := by decide +kernel
  obtain ⟨t, ht, hactive⟩ := Option.map_eq_some_iff.1 hrole
  have hlog : appendTo (e.recordOf t) e.log = (.ok 0, none) := rfl
  obtain ⟨_, hcommit, -⟩ := run_commit_ok ht hactive hlog
  obtain ⟨t', ht'⟩ : ∃ t', e'.transaction? ⟨1⟩ = some t' :=
    Option.isSome_iff_exists.1 (by decide +kernel)
  obtain ⟨-, -, -, hrollback, found, hfound, hrefused, -⟩ :=
    further_work_after_end .empty none _ hbefore ht ⟨true, hactive⟩
      (.committed hcommit) hlater ht' "b"
  have hmissing : e'.hasTable ⟨1⟩ "b" = .ok false := by decide +kernel
  obtain rfl : found = false := Except.ok.inj (hfound.symm.trans hmissing)
  exact ⟨by decide +kernel, hrollback, hrefused rfl⟩

/-- But it gets the table that it has committed, as if it were still at
work. -/
theorem getOrAddTable_after_commit_succeeds :
    let e := (inMemory {}).through (addsTable ++ [.call (.commit ⟨1⟩)])
    (∃ t, e.transaction? ⟨1⟩ = some t ∧ t.HasEnded)
      ∧ ∃ h, (getOrAddTable ⟨1⟩ "a").run e = .ok h e := by
  intro e
  have hrole : (e.transaction? ⟨1⟩).map (·.role)
      = some (.writer .committed false) := by decide +kernel
  obtain ⟨t, ht, hended⟩ := Option.map_eq_some_iff.1 hrole
  have hfound : e.table? ⟨1⟩ "a" = .ok (some ⟨⟨⟨1⟩, 1⟩, ⟨0⟩⟩) := by
    decide +kernel
  exact ⟨⟨t, ht, _, _, hended, nofun⟩, _, run_getOrAddTable_found hfound⟩

end Engine

end Colonnade
