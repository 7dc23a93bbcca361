/-
Every operation of an engine keeps it recoverable, whether it succeeds or
fails. Transactions begin, end and move on; in between a writer writes
through its view.

A write is the only operation that asks for something: it must not create an
object under a negative key. `CreatesNonneg` says so of what is to be
written, and it asks nothing of any other instruction.

Chain: `Engine.Run` puts the operations of the handles on top of these.
-/
import Colonnade.Proofs.Engine.Recoverable

namespace Colonnade.Engine

variable {e : Engine} {id : TransactionId} {t : Transaction}

-- ============================================================ beginning

/-- Opening a view pins the current version under the next number. -/
theorem run_openView (mode : ViewMode) (role : Role) (e : Engine) :
    (openView mode role).run e
      = .ok e.nextId
        (withTransaction
          { e with
            nextId := ⟨e.nextId.raw + 1⟩, pins := e.pins.pin e.version }
          e.nextId ⟨{ mode, snapshot := e.current }, e.version, role⟩) := rfl

theorem preserves_beginRead : Edit.Preserves Recoverable beginRead := by
  have hopen : Edit.Preserves Recoverable (openView .reading .reader) := by
    intro e he
    rw [run_openView]
    exact (uncounted_recoverable e _ _ e.stats he).withTransaction nofun
  exact hopen.bind fun id => (uncounted_recoverable.count _).bind fun _ =>
    .pure fun _ h => h

/-- The slot is free only if nobody writes. -/
theorem acquireWriter_ends :
    Edit.Ends Recoverable acquireWriter
      (fun got e => if got then e.Settled ∧ e.writerBusy = true
        else e.Recoverable) Recoverable := by
  refine Edit.Ends.get_bind fun e he => ?_
  cases hbusy : e.writerBusy with
  | true => exact .pure fun s hs => hs ▸ he
  | false =>
      refine Edit.Ends.bind (.set fun _ _ => ?_)
        fun _ => .pure fun _ h => h
      refine ⟨⟨he.logged, fun id t ht hw => ?_⟩, rfl⟩
      have := he.busy id t ht hw
      rw [hbusy] at this
      cases this

theorem preserves_beginWrite : Edit.Preserves Recoverable beginWrite? := by
  refine acquireWriter_ends.bind fun got => ?_
  cases got with
  | false => exact .pure fun _ h => h
  | true =>
      have hopen : Edit.Ends (fun e : Engine => e.Settled ∧ e.writerBusy = true)
          (openView .writing (.writer .active true)) (fun _ => Recoverable)
          Recoverable := by
        intro e he
        rw [run_openView]
        have hsettled := uncounted_settled e (e.pins.pin e.version)
          ⟨e.nextId.raw + 1⟩ e.stats he.1
        have hsole : Sole e.nextId _ := fun a u hu hw =>
          (hsettled.noWriter a u hu hw).elim
        exact hsole.recoverable hsettled.logged he.2
          (Transaction.pending_begin he.1.logged.keysNonneg _)
      exact hopen.bind fun id => (uncounted_recoverable.count _).bind fun _ =>
        .pure fun _ h => h

-- =============================================================== ending

/-- A change of a view leaves the roles alone. -/
theorem mapView_settled (f : View → View) {E : Engine → Prop} :
    Edit.Ends Settled (mapView id f) (fun _ => Settled) E := by
  refine Edit.Ends.modify fun e h => ?_
  cases ht : e.transaction? id with
  | none => exact h
  | some t =>
      exact h.withTransaction fun hw => h.noWriter id t ht hw

/-- A commit keeps an engine recoverable. -/
theorem preserves_commit : Edit.Preserves Recoverable (commit id) :=
  publishChanges_ends.bind fun _ => (mapView_settled _).bind fun _ =>
    .pure fun _ h => h.recoverable

theorem preserves_rollback : Edit.Preserves Recoverable (rollback id) := by
  refine Edit.Ends.get_bind fun e he => ?_
  refine Edit.Ends.lift_bind (fun t ht => ?_) fun s hs => hs ▸ he
  obtain ⟨ht, hw⟩ := requireActive_eq_ok.1 ht
  refine abort_ends.weaken (fun s hs => ?_) (fun _ _ h => h.recoverable)
    fun _ h => h.recoverable
  exact hs ▸ ⟨he.logged, he.sole ht hw⟩

/-- Without a transaction nobody writes who did not before. -/
theorem Recoverable.erased (h : e.Recoverable) (id : TransactionId) :
    Recoverable { e with transactions := e.transactions.erase id } := by
  have hold {a : TransactionId} {u : Transaction}
      (hu : (e.transactions.erase id)[a]? = some u) :
      e.transaction? a = some u := by
    rw [OrderedMap.getElem?_erase] at hu
    split at hu
    next => cases hu
    next => exact hu
  exact ⟨h.logged, fun _ _ hu hw => h.busy _ _ (hold hu) hw,
    fun _ _ _ _ hu hw hv hx => h.single _ _ _ _ (hold hu) hw (hold hv) hx,
    fun _ _ hu hw => h.pending _ _ (hold hu) hw⟩

theorem preserves_drop : Edit.Preserves Recoverable (drop id) := by
  refine Edit.Ends.get_bind fun e he => ?_
  split
  next => exact .pure fun s hs => hs ▸ he
  next t ht =>
    have hrest : Edit.Preserves Recoverable (do
        modify fun e => { e with transactions := e.transactions.erase id }
        unpin t.pinned) :=
      Edit.Ends.bind (.modify fun s hs => hs.erased id) fun _ =>
        uncounted_recoverable.unpin t.pinned
    dsimp only
    split
    next holdsSlot hrole =>
      have habort : Edit.Ends (· = e) (abort id) (fun _ => Recoverable)
          Recoverable := by
        refine abort_ends.weaken (fun s hs => ?_)
          (fun _ _ h => h.recoverable) fun _ h => h.recoverable
        exact hs ▸ ⟨he.logged, he.sole ht ⟨holdsSlot, hrole⟩⟩
      exact habort.bind fun _ => hrest
    next => exact hrest.of_eq he

/-- A commit that goes on keeps an engine recoverable. -/
theorem preserves_commitAndRead :
    Edit.Preserves Recoverable (commitAndRead id) := by
  refine Edit.Ends.get_bind fun e he => ?_
  refine Edit.Ends.lift_bind (fun base hbase => ?_) fun s hs => hs ▸ he
  have hpublish : Edit.Ends (· = e) (Edit.attempt (publishChanges id))
      (Edit.Handed (fun _ => Settled) Recoverable) Recoverable := by
    intro s hs
    exact publishChanges_ends.attempt s (hs ▸ he)
  refine hpublish.bind fun outcome => ?_
  cases outcome with
  | error err => exact preserves_drop.bind fun _ => .throw fun _ h => h
  | ok published =>
      have hread : Edit.Preserves Settled (do
          let t ← liftM ((← get).requireTransaction id)
          put id { t with pinned := published.version, role := .reader }
          unpin base.pinned) := by
        refine Edit.Ends.get_bind fun s hs => ?_
        refine Edit.Ends.lift_bind (fun t ht => ?_) fun u hu => hu ▸ hs
        refine Edit.Ends.bind (.modify fun u hu => ?_) fun _ =>
          uncounted_settled.unpin base.pinned
        exact (hu ▸ hs : u.Settled).withTransaction nofun
      have hsettled : Edit.Preserves Settled (do
          mapView id (View.replace published .reading false)
          pin published.version
          let t ← liftM ((← get).requireTransaction id)
          put id { t with pinned := published.version, role := .reader }
          unpin base.pinned) :=
        (mapView_settled _).bind fun _ => (uncounted_settled.pin _).bind
          fun _ => hread
      exact hsettled.weaken (fun _ h => h) (fun _ _ h => h.recoverable)
        fun _ h => h.recoverable

theorem preserves_advance : Edit.Preserves Recoverable (advance id) := by
  refine Edit.Ends.get_bind fun e he => ?_
  refine Edit.Ends.lift_bind (fun t ht => ?_) fun s hs => hs ▸ he
  split
  next => exact .pure fun s hs => hs ▸ he
  next hmoved =>
    rw [requireTransaction_eq_ok] at ht
    let moved : Transaction :=
      { t with
        pinned := e.version
        view := t.view.replace e.current .reading true }
    -- an active writer is on the current version and does not get here
    have hidle : ¬ moved.IsWriting := by
      intro hw
      exact hmoved (he.pending id t ht hw).pinned_eq.symm
    have hrest : Edit.Preserves Recoverable (do
        pin e.version
        put id moved
        unpin t.pinned
        count fun s => { s with advances := s.advances + 1 }
        return true) :=
      (uncounted_recoverable.pin _).bind fun _ =>
        Edit.Ends.bind (.modify fun s hs => hs.withTransaction hidle)
          fun _ => (uncounted_recoverable.unpin _).bind fun _ =>
            (uncounted_recoverable.count _).bind fun _ => .pure fun _ h => h
    exact hrest.of_eq he

-- ============================================================= writing

/-- Whether what would be written creates no object under a negative
key. -/
def CreatesNonneg (build : Snapshot → Except Error Instruction)
    (s : Snapshot) : Prop :=
  ∀ table key, build s = .ok (.createObject table key) → 0 ≤ key.raw

/-- Writing to the view of a transaction adds to its changes what it does
to its snapshot. -/
theorem Recoverable.written (h : e.Recoverable)
    (ht : e.transaction? id = some t)
    {build : Snapshot → Except Error Instruction} {generation : UInt64}
    {result : Option (Except Error Instruction)} {view : View}
    (hwrite : t.view.write e.limits generation build = (result, view))
    (hbuild : CreatesNonneg build t.view.snapshot) :
    (e.withTransaction id { t with view }).Recoverable := by
  by_cases hw : t.IsWriting
  · have hpending := h.pending id t ht hw
    refine (h.sole ht hw).recoverable h.logged (h.busy id t ht hw) ?_
    rcases View.write_cases hwrite with ⟨i, -, hwrote⟩ | ⟨heq, -⟩
    · refine hpending.wrote hwrote fun table key hi => ?_
      exact hbuild table key (hi ▸ hwrote.built)
    · rw [heq]
      exact hpending
  · have hidle : ¬ ({ t with view } : Transaction).IsWriting := hw
    exact h.withTransaction hidle

/-- The same as a step of its own, whatever comes after it. -/
theorem Recoverable.put_written (h : e.Recoverable)
    (ht : e.transaction? id = some t)
    {build : Snapshot → Except Error Instruction} {generation : UInt64}
    {result : Option (Except Error Instruction)} {view : View}
    (hwrite : t.view.write e.limits generation build = (result, view))
    (hbuild : CreatesNonneg build t.view.snapshot) :
    Edit.Ends (· = e) (put id { t with view }) (fun _ => Recoverable)
      Recoverable := by
  refine .modify fun s hs => ?_
  subst hs
  exact h.written ht hwrite hbuild

/-- Writing to a view keeps an engine recoverable, if it creates under keys
that can be written. -/
theorem writeView_ends (build : Snapshot → Except Error Instruction) :
    Edit.Ends
      (fun e => e.Recoverable ∧ ∀ t, e.transaction? id = some t →
        CreatesNonneg build t.view.snapshot)
      (writeView id build) (fun _ => Recoverable) Recoverable := by
  refine Edit.Ends.get_bind fun e he => ?_
  obtain ⟨he, hbuild⟩ := he
  refine Edit.Ends.lift_bind (fun t ht => ?_) fun s hs => hs ▸ he
  rw [requireTransaction_eq_ok] at ht
  cases hwrite : t.view.write e.limits t.view.generation build with
  | mk result view =>
      refine (he.put_written ht hwrite (hbuild t ht)).bind fun _ => ?_
      cases result with
      | none => exact .throw fun _ h => h
      | some result =>
          cases result with
          | ok i => exact .pure fun _ h => h
          | error err => exact .throw fun _ h => h

end Colonnade.Engine

namespace Colonnade.Anchor

open Engine

variable {α : Type}

theorem preserves_refuse (stale : Error) :
    Edit.Preserves Recoverable (refuse stale : Edit Engine α) :=
  (uncounted_recoverable.count _).bind fun _ => .throw fun _ h => h

/-- Reading through a handle at most counts a use that came too late. -/
theorem preserves_read (a : Anchor) (stale : Error)
    (f : Snapshot → Except Error α) :
    Edit.Preserves Recoverable (a.read stale f) := by
  refine Edit.Ends.get_bind fun e he => ?_
  split
  next => exact .throw fun s hs => hs ▸ he
  next t ht =>
    split
    next => exact (preserves_refuse stale).of_eq he
    next result hresult =>
      cases result with
      | ok x => exact .pure fun s hs => hs ▸ he
      | error err => exact .throw fun s hs => hs ▸ he

/-- Writing through an anchor keeps an engine recoverable, if it creates under
keys that can be written. -/
theorem write_ends (a : Anchor) (stale : Error)
    (build : Snapshot → Except Error Instruction) :
    Edit.Ends
      (fun e => e.Recoverable ∧ ∀ t, e.transaction? a.transaction = some t →
        CreatesNonneg build t.view.snapshot)
      (a.write stale build) (fun _ => Recoverable) Recoverable := by
  refine Edit.Ends.get_bind fun e he => ?_
  obtain ⟨he, hbuild⟩ := he
  split
  next => exact .throw fun s hs => hs ▸ he
  next t ht =>
    cases hwrite : t.view.write e.limits a.generation build with
    | mk result view =>
        refine (he.put_written ht hwrite (hbuild t ht)).bind fun _ => ?_
        cases result with
        | none => exact preserves_refuse stale
        | some result =>
            cases result with
            | ok i => exact .pure fun _ h => h
            | error err => exact .throw fun _ h => h

/-- Writing what is never a new object asks for nothing. -/
theorem preserves_write (a : Anchor) (stale : Error)
    {build : Snapshot → Except Error Instruction}
    (hbuild : ∀ s, CreatesNonneg build s) :
    Edit.Preserves Recoverable (a.write stale build) := by
  intro e he
  exact write_ends a stale build e ⟨he, fun t _ => hbuild t.view.snapshot⟩

end Colonnade.Anchor
