/-
Commits are serial. All along a run, whatever is called in whatever order
and however the store behind the log fails meanwhile, at most one
transaction writes, the writer slot is taken exactly while one does, and
what that one has done is based on what is current.

This is why committing can make the private snapshot of a writer current
without comparing it with anything: the slot has kept everybody else from
committing since the writer began. So each commit makes the next version of
the one before, by the instructions that its transaction recorded and by
nothing else, and no update is lost.

Chain: `Engine.Stepped` has what one event does.
-/
import Colonnade.Proofs.Engine.Stepped

namespace Colonnade.Engine

variable {e e' : Engine} {id : TransactionId} {t : Transaction}

-- ============================================================ one writer

/-- At most one transaction writes, and it has the slot and is up to date. -/
structure OneWriter (e : Engine) : Prop where
  single : ∀ a t b u, e.transaction? a = some t → t.IsWriting →
    e.transaction? b = some u → u.IsWriting → a = b
  busy_iff : e.writerBusy = true
    ↔ ∃ id t, e.transaction? id = some t ∧ t.IsWriting
  based : ∀ id t, e.transaction? id = some t → t.IsWriting →
    t.pinned = e.version
      ∧ Edit.Gives (Snapshot.applyAll e.limits t.view.changes.toList)
        e.current () t.view.snapshot

theorem Serial.oneWriter (h : e.Serial) : e.OneWriter where
  single a t b u ht hw hu hx := by
    obtain ⟨-, -, hsole, -⟩ := h.active hu hx
    exact hsole a t ht hw
  busy_iff := by
    constructor
    · intro hbusy
      cases h.slot with
      | free hfree _ => rw [hbusy] at hfree; cases hfree
      | held _ ht hrole _ _ => exact ⟨_, _, ht, true, hrole⟩
    · rintro ⟨id, t, ht, hw⟩
      exact (h.active ht hw).1
  based id t ht hw := by
    obtain ⟨-, -, -, hbased⟩ := h.active ht hw
    exact ⟨hbased.pinned_eq, hbased.applied⟩

-- ================================================ what an event publishes

/-- What a commit makes of what is current: the next version, which is the
one before with the recorded instructions carried out. -/
structure Publishes (e : Engine) (t : Transaction) (e' : Engine) : Prop where
  version_eq : e'.version = e.version.next
  number_eq : e'.version.raw.toNat = (e.version.raw.toNat + 1) % 2 ^ 64
  applied : ∃ s, Edit.Gives
      (Snapshot.applyAll e.limits t.view.changes.toList) e.current () s
    ∧ e'.current = { s with version := e'.version }

/-- A commit of what is based on the current snapshot publishes it. -/
theorem publishes_of_based (h : t.Based e.current e.limits)
    (hcurrent : e'.current = e.nextOf t) : Publishes e t e' := by
  have hversion : e'.version = e.version.next :=
    congrArg Snapshot.version hcurrent
  refine ⟨hversion, ?_, t.view.snapshot, h.applied, ?_⟩
  · rw [hversion]
    exact UInt64.toNat_add e.version.raw 1
  · rw [hversion, hcurrent]
    rfl

/-- Whether an event is a commit that succeeds. -/
def Event.Commits (e : Engine) (ev : Event) : Prop :=
  ∃ c id e', ev = .call c ∧ c.commits? = some id ∧ c.run.run e = .ok () e'

/-- A commit that succeeds publishes its transaction. -/
theorem Serial.publishes (h : e.Serial) {c : Call} (hc : c.commits? = some id)
    (hrun : c.run.run e = .ok () e') :
    ∃ t, e.transaction? id = some t ∧ t.IsWriting ∧ Publishes e t e' := by
  have hpublishes {t : Transaction} (ht : e.transaction? id = some t)
      (hrole : t.role = .writer .active true)
      (hcurrent : e'.current = e.nextOf t) :
      ∃ t, e.transaction? id = some t ∧ t.IsWriting ∧ Publishes e t e' := by
    obtain ⟨-, -, -, hbased⟩ := h.active ht ⟨_, hrole⟩
    exact ⟨t, ht, ⟨_, hrole⟩, publishes_of_based hbased hcurrent⟩
  have houtcome := h.outcome c
  rw [hrun] at houtcome
  cases houtcome with
  | committed ht hrole _ hsame =>
      cases hc
      exact hpublishes ht hrole hsame.current_eq
  | handedOff ht hrole _ hsame =>
      cases hc
      exact hpublishes ht hrole hsame.current_eq
  | handled hhandled =>
      rw [Call.commits?_of_handled hhandled] at hc
      cases hc
  | idle hnone => rw [hnone] at hc; cases hc
  | _ => cases hc

/-- The commit of a writer fails only where the log refuses its record. -/
theorem Serial.commits_or_refused (h : e.Serial) {c : Call}
    (hc : c.commits? = some id) (ht : e.transaction? id = some t)
    (hw : t.IsWriting) :
    (∃ e', c.run.run e = .ok () e')
      ∨ ∃ err log, appendTo (e.recordOf t) e.log = (.error err, log) := by
  obtain ⟨-, hrole, -, -⟩ := h.active ht hw
  cases hlog : appendTo (e.recordOf t) e.log with
  | mk outcome log =>
      cases outcome with
      | error err => exact .inr ⟨err, log, rfl⟩
      | ok grown =>
          left
          cases c with
          | commit a =>
              obtain rfl := Option.some.inj hc
              obtain ⟨e', hrun, -⟩ := run_commit_ok ht hrole hlog
              have hdone : (Call.commit a).run.run e = _ :=
                run_done (commit a) e
              rw [hrun] at hdone
              exact ⟨e', hdone⟩
          | commitAndRead a =>
              obtain rfl := Option.some.inj hc
              obtain ⟨e', hrun, -⟩ := run_commitAndRead_ok ht hrole hlog
              exact ⟨e', hrun⟩
          | _ => cases hc

/-- An event with a record commits. -/
theorem Event.commits_of_record? {ev : Event} {r : CommitRecord}
    (hr : ev.record? e = some r) : ev.Commits e := by
  cases ev with
  | turn f => cases hr
  | call c =>
      unfold Event.record? at hr
      dsimp only at hr
      split at hr
      next id _ e' hc hrun => exact ⟨c, id, e', rfl, hc, hrun⟩
      next => cases hr

theorem lasting_current (s : Snapshot) :
    Lasting fun e => e.current = s := by
  intro e e' h hstep
  cases hstep <;> exact h

/-- An event that commits nothing leaves what is current alone. -/
theorem Stepped.current_eq (hstep : Stepped e none e') :
    e'.current = e.current := by
  cases hstep with
  | aside h => exact h.current_eq
  | handled hstar => exact (lasting_current e.current).star hstar rfl
  | began _ => rfl
  | discarded _ _ _ hcurrent _ => exact hcurrent

-- ======================================================= the whole of it

/-- At every point of every run there is at most one writer. Each commit that
succeeds publishes the next version and exactly what its transaction
recorded, and it does succeed unless the log refuses the record. Nothing else
changes what is current. -/
theorem serial_through (s : Snapshot) (log : Option HistoryLog)
    (limits : Limits) (events : List Event) :
    let e := (starting s log limits).through events
    e.OneWriter
      ∧ (∀ (c : Call) id e', c.commits? = some id → c.run.run e = .ok () e' →
        ∃ t, e.transaction? id = some t ∧ t.IsWriting ∧ Publishes e t e')
      ∧ (∀ (c : Call) id t, c.commits? = some id → e.transaction? id = some t →
        t.IsWriting → (∃ e', c.run.run e = .ok () e')
          ∨ ∃ err log, appendTo (e.recordOf t) e.log = (.error err, log))
      ∧ ∀ ev : Event, ¬ ev.Commits e → (ev.step e).current = e.current := by
  intro e
  have h : e.Serial := (serial_starting s log limits).through
  refine ⟨h.oneWriter, fun c id e' hc hrun => h.publishes hc hrun,
    fun c id t hc ht hw => h.commits_or_refused hc ht hw,
    fun ev hcommits => ?_⟩
  have hstep := h.step ev
  cases hr : ev.record? e with
  | none =>
      rw [hr] at hstep
      exact hstep.current_eq
  | some r => exact (hcommits (Event.commits_of_record? hr)).elim

/-- Of two who want to write the second is let in once the first has
committed, and is based on that commit. -/
example :
    let e := (inMemory {}).through
      [.call .beginWrite, .call .beginWrite, .call (.addTable ⟨1⟩ "a"),
        .call (.commit ⟨1⟩), .call .beginWrite, .call (.commitAndRead ⟨2⟩)]
    e.version = ⟨2⟩ ∧ e.writerBusy = false
      ∧ e.current.names.keys = ["a"] := by
  decide +kernel

end Colonnade.Engine
