/-
Readers who look on while a database in memory is written to. An engine
`Hosts` transactions at a version when it holds the maps of that version and
has these transactions. There is one lemma for each thing that a reader or
a writer does, and it says what becomes of all three: a reader who begins,
moves on or goes changes its own transaction and nothing else, and a closure
that writes makes the next version and leaves every transaction as it was.

The second half of that is not in what the closure does to its draft. It is
that no step of a handle changes a transaction which is not open for writing
(`lasting_others`), whatever the closure consists of.

Chain: over `Engine.Maps`; `Trial.Ledger` follows a trial with readers by
these.
-/
import Colonnade.Proofs.Engine.Maps
import Colonnade.Proofs.Engine.Serial

namespace Colonnade.Engine

open Logical (update)

variable {e e' : Engine} {limits : Limits} {base d : Logical.Database}
  {v : Version} {ts : TransactionId → Option Transaction}
  {id : TransactionId} {t : Transaction} {α : Type} {x : α}

/-- An engine that holds maps at a version and has certain transactions. -/
structure Hosts (limits : Limits) (d : Logical.Database) (v : Version)
    (ts : TransactionId → Option Transaction) (e : Engine) : Prop
    extends Holds limits d e where
  version_eq : e.version = v
  transactions_eq : e.transaction? = ts

-- ============================================================== readers

namespace Holds

/-- A reader begins with what is current, under an id of its own. -/
theorem beginRead (h : Holds limits d e) :
    ∃ e', Edit.Gives beginRead e e.nextId e'
      ∧ e.transaction? e.nextId = none
      ∧ Hosts limits d e.version (update e.transaction? e.nextId
        (some ⟨{ mode := .reading, snapshot := e.current }, e.version,
          .reader⟩)) e' := by
  have hfresh : e.transaction? e.nextId = none := by
    refine Option.eq_none_iff_forall_ne_some.2 fun t ht => ?_
    exact Nat.lt_irrefl _ (h.serial.fresh e.nextId t ht)
  refine ⟨_, run_beginRead e, hfresh, ⟨⟨?_, h.log_eq, h.limits_eq,
    h.current⟩, h.writerBusy_eq⟩, rfl, funext fun a => ?_⟩
  · exact (aside_opened h.serial.fresh _).serial h.serial
  · exact transaction?_withTransaction a

/-- A reader who moves on, if there is anything to move to, pins what is
current. -/
theorem advance (h : Holds limits d e) (ht : e.transaction? id = some t)
    (hidle : ¬ t.IsWriting) :
    ∃ moved u e', Edit.Gives (advance id) e moved e'
      ∧ (u = t ∨ u = e.moved t) ∧ u.pinned = e.version
      ∧ Hosts limits d e.version (update e.transaction? id (some u)) e' := by
  by_cases hpinned : e.version = t.pinned
  · exact ⟨false, t, e, run_advance_still ht hpinned, .inl rfl,
      hpinned.symm, h, rfl, (Logical.update_self ht).symm⟩
  · refine ⟨true, e.moved t, _, run_advance_moved ht hpinned, .inr rfl, rfl,
      ⟨⟨?_, h.log_eq, h.limits_eq, h.current⟩, h.writerBusy_eq⟩, rfl,
      funext fun a => ?_⟩
    · exact (aside_advancedTo ht hidle).serial h.serial
    · exact transaction?_withTransaction a

/-- A reader goes. -/
theorem drop (h : Holds limits d e) (ht : e.transaction? id = some t)
    (hidle : ¬ t.IsWriting) :
    ∃ e', Edit.Gives (drop id) e () e'
      ∧ Hosts limits d e.version (update e.transaction? id none) e' :=
  ⟨_, run_drop_idle ht hidle, ⟨h.toKeeps.dropped ht hidle, h.writerBusy_eq⟩,
    rfl, funext transaction?_dropped⟩

end Holds

-- =============================================================== writer

/-- Among transactions of which one may write, handles leave the others as
they are. -/
theorem lasting_others (hothers : ∀ a t, ts a = some t →
    t.view.mode ≠ .writing) (id : TransactionId) :
    Lasting fun e => ∀ a, a ≠ id → e.transaction? a = ts a := by
  intro e e' h hstep a ha
  cases hstep with
  | counted => exact h a ha
  | kept ht =>
      rw [transaction?_withTransaction]
      split
      next heq => exact (heq ▸ ht).symm.trans (h a ha)
      next => exact h a ha
  | wrote ht hwrote =>
      rw [transaction?_withTransaction]
      split
      next heq =>
        have ht := (h a ha).symm.trans (heq ▸ ht)
        exact (hothers a _ ht hwrote.writing).elim
      next => exact h a ha

/-- A closure that drafts other maps makes them current, as the next version,
and everybody else has the transaction that they had. -/
theorem Holds.write (h : Holds limits base e)
    (hreading : ∀ a t, e.transaction? a = some t → t.view.mode ≠ .writing)
    {f : TransactionId → Edit Engine α}
    (hf : ∀ id, Edit.Yields (Drafts limits ⟨id, 0⟩ base base) (f id) x
      (Drafts limits ⟨id, 0⟩ base d))
    (hlasting : ∀ id P, Lasting P → Edit.Preserves P (f id)) :
    ∃ e', Edit.Gives (write f) e x e'
      ∧ Hosts limits d e.version.next e.transaction? e' := by
  obtain ⟨made, hgives, hmade⟩ := hf e.nextId e.begun h.begun
  have hkept {P : Engine → Prop} (hP : Lasting P) (hbegun : P e.begun) :
      P made := by
    have hends := hlasting e.nextId P hP e.begun hbegun
    rw [show (f e.nextId).run e.begun = .ok x made from hgives] at hends
    exact hends
  have hversion : made.version = e.version :=
    congrArg Snapshot.version (hkept (lasting_current e.current) rfl)
  have hothers : ∀ a, a ≠ e.nextId → made.transaction? a = e.transaction? a :=
    hkept (lasting_others hreading e.nextId) fun a ha =>
      (transaction?_withTransaction a).trans (if_neg ha)
  obtain ⟨e', hsettle, he', hnext, htransactions⟩ := hmade.settles x
  refine ⟨e', ?_, he', hversion ▸ hnext, funext fun a => ?_⟩
  · unfold Edit.Gives
    rw [run_write_free h.writerBusy_eq (Edit.gives_attempt_ok.2 hgives)]
    exact hsettle
  · rw [htransactions]
    split
    next ha =>
      obtain ⟨-, -, hfresh, -⟩ := h.beginRead
      rw [ha, hfresh]
    next ha => exact hothers a ha

end Colonnade.Engine
