/-
Which rejected uses of handles are counted. A use is rejected for the sake of
its handle at one of three points: the transaction may be gone, its view may
have moved on or closed, or the table or object may be gone from the
snapshot. A use that comes to the second point is counted, once. One that
comes to the others is rejected in the same words and not counted, and
nothing else is counted either.

So the counter tells how many uses came too late for their view, and not how
many were rejected. `stale_uses_counted` says at which point a use is
rejected by what has happened to the transaction since the handle was handed
out, and that a use is counted as it is rejected exactly where that is the
second point or none.

Every operation begins with one read or write of its table (`LooksFirst`,
`WritesFirst`), and that is where it is rejected. On a valid handle it is
`Spared`, in all of its steps; this needs `Engine.Mild`, as what a snapshot
refuses must not look like a rejection.

Chain: over `Engine.Uses` and `Engine.Validity`, which say when a handle is
valid and what a use comes to.
-/
import Colonnade.Proofs.Engine.Mild
import Colonnade.Proofs.Engine.Misuse
import Colonnade.Proofs.Engine.Validity
import Colonnade.Proofs.Snapshot.Links

namespace Colonnade

/-- Whether an error says that a handle is no longer valid. -/
def Error.IsStale (err : Error) : Prop :=
  err = .tableDetached ∨ err = .objectDetached

/-- An error that does not speak of a wrong state is not about a stale handle.
-/
theorem Error.not_isStale_of_kind {err : Error}
    (hkind : err.kind ≠ .illegalState) : ¬ err.IsStale := by
  rintro (rfl | rfl) <;> exact hkind rfl

theorem Error.not_isStale_notWriting :
    ¬ (illegalState .notWriting).IsStale := by
  rintro (h | h) <;> cases h

/-- The error of a handle is about a stale handle. -/
theorem Handle.isStale_stale (h : Handle) : h.stale.IsStale := by
  cases h with
  | table h => exact .inl rfl
  | object h => exact .inr rfl

namespace Engine

variable {e e' : Engine} {α β : Type} {x : Edit Engine α}
  {f : α → Edit Engine β} {P : Error → Prop} {n : Nat}

-- ===================================================== counting a use

/-- How many uses of handles were counted as stale. -/
def staleUses (e : Engine) : Nat := e.stats.staleHandleUses

/-- What a use leaves of an engine, whether it succeeds or fails. -/
def leftBy (x : Edit Engine α) (e : Engine) : Engine :=
  match x.run e with
  | .ok _ e' => e'
  | .error _ e' => e'

/-- Whether a use is rejected because its handle is no longer valid. -/
def Rejects (x : Edit Engine α) (e : Engine) : Prop :=
  ∃ err e', x.run e = .error err e' ∧ err.IsStale

/-- Whether a use is counted once if it is rejected, and else not at all. -/
def Counts (x : Edit Engine α) (e : Engine) : Prop :=
  (Rejects x e → (leftBy x e).staleUses = e.staleUses + 1)
    ∧ (¬ Rejects x e → (leftBy x e).staleUses = e.staleUses)

/-- Whether a use fails with an error of some kind and adds so many to the
count. -/
def Failed (P : Error → Prop) (n : Nat) (x : Edit Engine α) (e : Engine) :
    Prop :=
  ∃ err e', x.run e = .error err e' ∧ P err ∧ e'.staleUses = e.staleUses + n

/-- Whether a use is not rejected for its handle, and adds nothing. -/
inductive Spared (x : Edit Engine α) (e : Engine) : Prop
  | ok {a : α} {e' : Engine} (hgives : Edit.Gives x e a e')
      (huses : e'.staleUses = e.staleUses)
  | failed (h : Failed (¬ ·.IsStale) 0 x e)

/-- What starts with a step that failed has failed so. -/
theorem Failed.bind (h : Failed P n x e) : Failed P n (x >>= f) e := by
  obtain ⟨err, e', hrun, hfailed⟩ := h
  refine ⟨err, e', ?_, hfailed⟩
  rw [EStateM.run_bind, hrun]

/-- A failure with n uses counts n. -/
theorem Failed.uses_eq (h : Failed P n x e) :
    (leftBy x e).staleUses = e.staleUses + n := by
  obtain ⟨err, e', hrun, -, huses⟩ := h
  rw [leftBy, hrun]
  exact huses

/-- A failure about a stale handle rejects. -/
theorem Failed.rejects (h : Failed Error.IsStale n x e) : Rejects x e := by
  obtain ⟨err, e', hrun, hstale, -⟩ := h
  exact ⟨err, e', hrun, hstale⟩

/-- What is spared counts nothing. -/
theorem Spared.uses_eq (h : Spared x e) :
    (leftBy x e).staleUses = e.staleUses := by
  cases h with
  | ok hgives huses =>
      rw [leftBy, show x.run e = _ from hgives]
      exact huses
  | failed h => exact h.uses_eq

/-- What is spared rejects nothing. -/
theorem Spared.not_rejects (h : Spared x e) : ¬ Rejects x e := by
  rintro ⟨err, e', hrun, hstale⟩
  cases h with
  | ok hgives huses =>
      rw [show x.run e = _ from hgives] at hrun
      cases hrun
  | failed h =>
      obtain ⟨err', e'', hfailed, hother, -⟩ := h
      rw [hfailed] at hrun
      cases hrun
      exact hother hstale

theorem Spared.pure (a : α) : Spared (Pure.pure a) e := .ok rfl rfl

theorem Spared.throw {err : Error} (hother : ¬ err.IsStale) :
    Spared (MonadExcept.throw err : Edit Engine α) e :=
  .failed ⟨err, e, rfl, hother, rfl⟩

/-- Steps that are spared one after the other are spared together. -/
theorem Spared.bind (h : Spared x e)
    (hf : ∀ a e', Edit.Gives x e a e' → Spared (f a) e') :
    Spared (x >>= f) e := by
  cases h with
  | @ok a e' hgives huses =>
      have hthen : (x >>= f).run e = (f a).run e' := by
        rw [EStateM.run_bind, show x.run e = _ from hgives]
      cases hf a e' hgives with
      | ok hgives' huses' =>
          exact .ok (hthen.trans hgives') (huses'.trans huses)
      | failed h =>
          obtain ⟨err, e'', hrun, hother, huses'⟩ := h
          exact .failed
            ⟨err, e'', hthen.trans hrun, hother, huses'.trans huses⟩
  | failed h => exact .failed h.bind

/-- What is answered is spared. -/
theorem Answered.spared (h : Answered x e) : Spared x e := by
  cases h with
  | ok hrun => exact .ok hrun rfl
  | failed hrun hkind =>
      exact .failed ⟨_, e, hrun, Error.not_isStale_of_kind hkind, rfl⟩

end Engine

open Engine

-- ======================================================= one table

/-- The table that an object is removed from is still there. -/
theorem Snapshot.Applied.table_removeObject {limits : Limits}
    {s s' : Snapshot} {table : TableKey} {key : ObjectKey}
    (h : Applied limits s (.removeObject table key) s') :
    ∃ t, s'.table? table = some t := by
  cases h with
  | removeObject ht hslot =>
      obtain ⟨u, hu, -⟩ := keeps_withoutObject ht ht
      exact ⟨u, hu⟩

/-- A view answers a write through a handle that it admits. -/
theorem View.answers_write {v v' : View} {limits : Limits}
    {generation : UInt64} {build : Snapshot → Except Error Instruction}
    (hadmits : v.admits generation = true) :
    v.write limits generation build ≠ (none, v') := by
  unfold write writeWithin
  rw [if_pos hadmits]
  split
  · nofun
  · split <;> nofun

/-- What a view refuses to write is not refused for the handle, if it could
be built or could not for another reason. -/
theorem View.not_isStale_write {v v' : View} {limits : Limits}
    {generation : UInt64} {build : Snapshot → Except Error Instruction}
    (hbuild : Check.Mild (build v.snapshot)) {err : Error}
    (hwrite : v.write limits generation build = (some (.error err), v')) :
    ¬ err.IsStale := by
  have hrecord : Edit.FailsAt (·.kind ≠ .illegalState)
      (record .ample limits build) v := by
    refine .get_bind (.lift_bind hbuild fun i _ => ?_)
    have happly : Edit.Mild (Snapshot.apply limits i) :=
      Snapshot.mild_apply limits i
    refine .bind (.focus (happly.at v.snapshot)) fun _ _ _ => ?_
    exact (Edit.Fails.bind (.modify _) fun _ => .pure i).at _
  unfold write writeWithin at hwrite
  split at hwrite
  next =>
    split at hwrite
    next =>
      cases hwrite
      exact Error.not_isStale_notWriting
    next =>
      cases hrun : (record .ample limits build).run v with
      | ok i w =>
          rw [hrun] at hwrite
          cases hwrite
      | error err' w =>
          rw [hrun] at hwrite
          cases hwrite
          exact Error.not_isStale_of_kind (hrecord err _ hrun)
  next => cases hwrite

namespace Handle

variable {h : Handle} {e e' : Engine} {t : Transaction} {α β : Type}
  {f : Table → Except Error α} {build : Table → Except Error Instruction}

/-- Reading through a handle whose time is over is counted. -/
theorem failed_read_late (ht : e.transaction? h.anchor.transaction = some t)
    (hlate : t.view.admits h.anchor.generation = false) :
    Failed Error.IsStale 1 (h.read f) e := by
  have hrun : (h.read f).run e = _ := Anchor.run_read ht
  rw [hlate] at hrun
  exact ⟨h.stale, _, hrun, h.isStale_stale, rfl⟩

/-- Writing through a handle whose time is over is counted. -/
theorem failed_write_late (ht : e.transaction? h.anchor.transaction = some t)
    (hlate : t.view.admits h.anchor.generation = false) :
    Failed Error.IsStale 1 (h.write build) e := by
  have hrun : (h.write build).run e = _ :=
    Anchor.run_write ht (View.write_late hlate _)
  exact ⟨h.stale, _, hrun, h.isStale_stale, rfl⟩

/-- Reading through a handle whose row or table is gone fails without being
counted. -/
theorem failed_read_lost (ht : e.transaction? h.anchor.transaction = some t)
    (hadmits : t.view.admits h.anchor.generation = true)
    (hlost : ¬ h.LivesIn t.view.snapshot) :
    Failed Error.IsStale 0 (h.read f) e := by
  refine ⟨h.stale, e, ?_, h.isStale_stale, rfl⟩
  unfold read
  rw [Anchor.run_read ht, if_pos hadmits, resolve_of_not_livesIn hlost]
  rfl

/-- Writing through a handle whose row or table is gone fails without being
counted. -/
theorem failed_write_lost (ht : e.transaction? h.anchor.transaction = some t)
    (hadmits : t.view.admits h.anchor.generation = true)
    (hlost : ¬ h.LivesIn t.view.snapshot) (hmode : t.view.mode = .writing) :
    Failed Error.IsStale 0 (h.write build) e := by
  have hrun : (h.write build).run e = _ :=
    Anchor.run_write ht (View.write_unbuilt hadmits hmode
      (build_of_unresolved (resolve_of_not_livesIn hlost)))
  exact ⟨h.stale, _, hrun, h.isStale_stale, rfl⟩

/-- Before a transaction that does not write, nothing is asked of the
snapshot. -/
theorem failed_write_idle (ht : e.transaction? h.anchor.transaction = some t)
    (hadmits : t.view.admits h.anchor.generation = true)
    (hmode : t.view.mode ≠ .writing) :
    Failed (¬ ·.IsStale) 0 (h.write build) e := by
  have hrun : (h.write build).run e = _ :=
    Anchor.run_write ht (View.write_idle hadmits hmode _)
  exact ⟨_, _, hrun, Error.not_isStale_notWriting, rfl⟩

/-- A write through a valid handle is not rejected. -/
theorem spared_write (hvalid : h.isValid e = true)
    (hbuild : ∀ table, Check.Mild (build table)) :
    Spared (h.write build) e := by
  obtain ⟨t, ht, hadmits, hlives⟩ := isValid_iff.1 hvalid
  obtain ⟨table, hresolve⟩ := resolve_of_livesIn hlives
  cases hwrite : t.view.write e.limits h.anchor.generation
      (fun s => do build (← h.resolve s)) with
  | mk result view =>
  have hrun : (h.write build).run e = _ := Anchor.run_write ht hwrite
  rcases result with _ | ⟨err | i⟩
  · exact absurd hwrite (View.answers_write hadmits)
  · have hother : ¬ err.IsStale := by
      refine View.not_isStale_write ?_ hwrite
      rw [hresolve]
      exact hbuild table
    exact .failed ⟨err, _, hrun, hother, rfl⟩
  · exact .ok hrun rfl

-- ==================================================== the first step

/-- Whether an operation begins by looking into the table of its handle. -/
def LooksFirst (h : Handle) (x : Edit Engine α) : Prop :=
  ∃ (β : Type) (f : Table → Except Error β) (k : β → Edit Engine α),
    x = h.read f >>= k

/-- Whether it begins by writing to it. -/
def WritesFirst (h : Handle) (x : Edit Engine α) : Prop :=
  ∃ (build : Table → Except Error Instruction)
    (k : Instruction → Edit Engine α), x = h.write build >>= k

variable {x : Edit Engine α}

/-- A read looks first. -/
theorem looksFirst_read (h : Handle) (f : Table → Except Error α) :
    h.LooksFirst (h.read f) :=
  ⟨α, f, pure, (bind_pure _).symm⟩

/-- What starts with a look looks first. -/
theorem LooksFirst.bind (hx : h.LooksFirst x) (k : α → Edit Engine β) :
    h.LooksFirst (x >>= k) := by
  obtain ⟨γ, f, k', rfl⟩ := hx
  exact ⟨γ, f, fun c => k' c >>= k, bind_assoc _ _ _⟩

/-- What is made of an answer comes after the look. -/
theorem LooksFirst.map (hx : h.LooksFirst x) (k : α → β) :
    h.LooksFirst (k <$> x) := by
  rw [← bind_pure_comp]
  exact hx.bind _

/-- Every read of the interface looks first. -/
theorem Reads.looksFirst (hx : h.Reads x) : h.LooksFirst x := by
  have htable {γ : Type} (h : TableHandle) (f : Table → Except Error γ) :
      (Handle.table h).LooksFirst (h.read f) := looksFirst_read _ f
  have hobject {γ : Type} (h : ObjectHandle) (f : Table → Except Error γ) :
      (Handle.object h).LooksFirst (h.read f) := looksFirst_read _ f
  cases hx with
  | linkTarget? h | object? h => exact (htable h _).bind _
  | object h => exact ((htable h _).bind _).bind _
  | isNull h | listLength h => exact (hobject h _).map _
  | name h | size h | isEmpty h | objectKeys h | columnKey? h | columnKeys h
  | columnSpec h | checkType h | checkNullable h | contains h
  | findFirst h => exact htable h _
  | get h | getTyped h | getLink? h | list h | listGet h =>
      exact hobject h _

/-- Every write of the interface begins with a look or with a write. -/
theorem Writes.begins (hx : h.Writes x) :
    h.LooksFirst x ∨ h.WritesFirst x := by
  cases hx with
  | clear h => exact .inl ((Reads.objectKeys h).looksFirst.bind _)
  | addColumn h spec | removeColumn h col | createObject h
  | removeObject h key => exact .inr ⟨_, _, rfl⟩
  | set h | setNull h | listInsert h | listPush h | listSet h | listRemove h
  | listClear h | remove h => exact .inr ⟨_, _, rfl⟩

-- ==================================================== whole operations

/-- Behind the end of its transaction a handle fails without being counted. -/
theorem failed_gone (hx : h.LooksFirst x ∨ h.WritesFirst x)
    (hnone : e.transaction? h.anchor.transaction = none) :
    Failed Error.IsStale 0 x e := by
  rcases hx with ⟨β, f, k, rfl⟩ | ⟨build, k, rfl⟩
  · have hrun : (h.read f).run e = _ := Anchor.run_read_none hnone
    exact Failed.bind ⟨_, e, hrun, h.isStale_stale, rfl⟩
  · have hrun : (h.write build).run e = _ := Anchor.run_write_none hnone
    exact Failed.bind ⟨_, e, hrun, h.isStale_stale, rfl⟩

/-- A handle whose view is closed or has moved on fails, and is counted once.
-/
theorem failed_late (hx : h.LooksFirst x ∨ h.WritesFirst x)
    (ht : e.transaction? h.anchor.transaction = some t)
    (hlate : t.view.admits h.anchor.generation = false) :
    Failed Error.IsStale 1 x e := by
  rcases hx with ⟨β, f, k, rfl⟩ | ⟨build, k, rfl⟩
  · exact (failed_read_late ht hlate).bind
  · exact (failed_write_late ht hlate).bind

/-- A handle that its view admits, and whose row or table is gone, fails
without being counted. -/
theorem failed_lost (hx : h.LooksFirst x ∨ h.WritesFirst x)
    (ht : e.transaction? h.anchor.transaction = some t)
    (hadmits : t.view.admits h.anchor.generation = true)
    (hlost : ¬ h.LivesIn t.view.snapshot)
    (hseen : h.LooksFirst x ∨ t.view.mode = .writing) :
    Failed Error.IsStale 0 x e := by
  by_cases hlooks : h.LooksFirst x
  · obtain ⟨β, f, k, rfl⟩ := hlooks
    exact (failed_read_lost ht hadmits hlost).bind
  · obtain ⟨build, k, rfl⟩ := hx.resolve_left hlooks
    have hmode := hseen.resolve_left hlooks
    exact (failed_write_lost ht hadmits hlost hmode).bind

/-- A write through a view that is not for writing is refused for that, and
nothing is counted. -/
theorem spared_idle (hx : h.WritesFirst x)
    (ht : e.transaction? h.anchor.transaction = some t)
    (hadmits : t.view.admits h.anchor.generation = true)
    (hmode : t.view.mode ≠ .writing) : Spared x e := by
  obtain ⟨build, k, rfl⟩ := hx
  exact .failed (failed_write_idle ht hadmits hmode).bind

/-- Removing an object leaves the handle to its table as valid as it was. -/
theorem isValid_removeObject {h : TableHandle} {key : ObjectKey}
    (hgives : Edit.Gives (h.removeObject key) e () e') :
    (table h).isValid e' = true := by
  obtain ⟨i, e₁, hwrite, hdone⟩ := Edit.gives_bind.1 hgives
  obtain ⟨-, rfl⟩ := Edit.gives_pure.1 hdone
  obtain ⟨t, view, ht, hwrote, rfl⟩ := gives_write (h := table h) hwrite
  obtain ⟨hopen, hsame⟩ := View.admits_iff.1 (View.admits_of_write hwrote)
  rcases View.write_cases hwrote with ⟨j, hj, hrecorded⟩ | ⟨-, hno⟩
  · cases hj
    have hadmits : view.admits h.anchor.generation = true :=
      View.admits_iff.2 ⟨hrecorded.mode_eq ▸ hopen,
        hrecorded.generation_eq.trans hsame⟩
    refine isValid_iff.2 ⟨_, transaction?_self e _ _, hadmits, ?_⟩
    obtain ⟨-, -, hbuilt⟩ := Check.bind_eq_ok.1 hrecorded.built
    cases hbuilt
    exact hrecorded.applied.table_removeObject
  · exact absurd rfl (hno i)

/-- Nor are removals one after the other, each through what the one before
has left. -/
theorem spared_removeObjects {h : TableHandle}
    (hvalid : (table h).isValid e = true) (keys : List ObjectKey) :
    Spared (keys.forM h.removeObject) e := by
  induction keys generalizing e with
  | nil => exact .pure ()
  | cons key keys ih =>
      have hone : Spared (h.removeObject key) e :=
        Spared.bind (spared_write hvalid fun _ => .pure _)
          fun _ _ _ => .pure ()
      exact hone.bind fun _ e₁ hgives => ih (isValid_removeObject hgives)

/-- No use of a valid handle is rejected for it. -/
theorem Writes.spared (hx : h.Writes x) (hvalid : h.isValid e = true) :
    Spared x e := by
  -- an instruction is built from the table, and a result from it
  have hmade (h : Handle) (hvalid : h.isValid e = true)
      {build : Table → Except Error Instruction}
      (hbuild : ∀ table, Check.Mild (build table)) {γ : Type}
      {k : Instruction → Edit Engine γ} (hk : ∀ i e', Spared (k i) e') :
      Spared (h.write build >>= k) e :=
    (spared_write hvalid hbuild).bind fun i e' _ => hk i e'
  cases hx with
  | clear h =>
      have hkeys : Spared h.objectKeys e :=
        ((Reads.objectKeys h).isRead.answered e hvalid).spared
      refine hkeys.bind fun keys e' hgives => ?_
      obtain ⟨rfl, -⟩ := gives_isRead (Reads.objectKeys h).isRead hgives
      exact spared_removeObjects hvalid keys
  | addColumn h spec =>
      refine hmade (.table h) hvalid (fun t => .pure _) fun i e' => ?_
      split
      · exact .pure _
      · exact .throw (Error.not_isStale_of_kind nofun)
  | createObject h =>
      refine hmade (.table h) hvalid (fun t => .pure _) fun i e' => ?_
      split
      · exact .pure _
      · exact .throw (Error.not_isStale_of_kind nofun)
  | removeColumn h | removeObject h =>
      exact hmade (.table h) hvalid (fun t => .pure _) fun _ _ => .pure ()
  | setNull h col =>
      exact hmade (.object h) hvalid
        (fun t => (t.mild_checkNullable col).bind fun _ => .pure _)
        fun _ _ => .pure ()
  | listPush h col =>
      exact hmade (.object h) hvalid
        (fun t => (t.mild_listOf h.key col).bind fun _ => .pure _)
        fun _ _ => .pure ()
  | set h | listInsert h | listSet h | listRemove h | listClear h
  | remove h =>
      exact hmade (.object h) hvalid (fun t => .pure _) fun _ _ => .pure ()

end Handle

-- ================================================================ runs

namespace Engine

variable {e : Engine} {id : TransactionId} {events : List Event}
  {h : Handle} {α : Type} {x : Edit Engine α}

/-- Whether a use of a handle, at the end of a run since it was handed out,
comes too late for the view: the transaction is there and has ended or been
moved to another version. -/
def IsLate (id : TransactionId) (e : Engine) (events : List Event) : Prop :=
  ∃ t, (e.through events).transaction? id = some t
    ∧ (t.HasEnded ∨ ¬ 2 ^ 64 ∣ moves id e events)

/-- Whether the handle is not late but what it is for is gone from the
snapshot, and the use comes to see that: an operation that only writes does
not if its transaction does not write. -/
def IsLost (id : TransactionId) (e : Engine) (events : List Event)
    (h : Handle) (x : Edit Engine α) : Prop :=
  ∃ t, (e.through events).transaction? id = some t
    ∧ ¬ t.HasEnded ∧ 2 ^ 64 ∣ moves id e events
    ∧ ¬ h.LivesIn t.view.snapshot
    ∧ (h.LooksFirst x ∨ t.view.mode = .writing)

/-- What is late is there, and is not asked what it still has. -/
theorem IsLate.not_missed (hlate : IsLate id e events) :
    ¬ ((e.through events).transaction? id = none
      ∨ IsLost id e events h x) := by
  obtain ⟨t, ht, hover⟩ := hlate
  rintro (hnone | ⟨u, hu, hlives, hstays, -⟩)
  · cases ht.symm.trans hnone
  · obtain rfl := Option.some.inj (ht.symm.trans hu)
    exact hover.elim hlives (· hstays)

/-- What a use of a handle comes to: it is late, and rejected and counted; it
misses what it is for, and is rejected and not counted; or it is spared. -/
inductive Met (id : TransactionId) (e : Engine) (events : List Event)
    (h : Handle) (x : Edit Engine α) : Prop
  | late (hlate : IsLate id e events)
      (hfailed : Failed Error.IsStale 1 x (e.through events))
  | missed (hmissed : (e.through events).transaction? id = none
        ∨ IsLost id e events h x)
      (hfailed : Failed Error.IsStale 0 x (e.through events))
  | spared (hprompt : ¬ IsLate id e events)
      (hthere : (e.through events).transaction? id ≠ none)
      (hkept : ¬ IsLost id e events h x)
      (hspared : Spared x (e.through events))

/-- What an operation meets is told by what has happened since the handle was
made. -/
theorem Orderly.met (he : e.Orderly) (hanchor : e.anchor id = .ok h.anchor)
    (htyped : TypedRun e events) (hx : h.Reads x ∨ h.Writes x) :
    Met id e events h x := by
  have hid := transaction_of_anchor hanchor
  have hbegins : h.LooksFirst x ∨ h.WritesFirst x :=
    hx.elim (fun hreads => .inl hreads.looksFirst) (·.begins)
  cases ht : (e.through events).transaction? id with
  | none => exact .missed (.inl ht) (Handle.failed_gone hbegins (hid ▸ ht))
  | some t =>
  have hhandle : (e.through events).transaction? h.anchor.transaction
      = some t := hid ▸ ht
  have hadmits := he.admits_iff hanchor htyped ht
  by_cases hopen : t.view.admits h.anchor.generation = true
  · obtain ⟨hlives, hstays⟩ := hadmits.1 hopen
    by_cases hlost : IsLost id e events h x
    · refine .missed (.inr hlost) ?_
      obtain ⟨u, hu, -, -, hgone, hseen⟩ := hlost
      obtain rfl := Option.some.inj (ht.symm.trans hu)
      exact Handle.failed_lost hbegins hhandle hopen hgone hseen
    have hprompt : ¬ IsLate id e events := by
      rintro ⟨u, hu, hover⟩
      obtain rfl := Option.some.inj (ht.symm.trans hu)
      exact hover.elim hlives (· hstays)
    refine .spared hprompt (by rw [ht]; nofun) hlost ?_
    by_cases hreached : h.LivesIn t.view.snapshot
    · have hvalid := Handle.isValid_iff.2 ⟨t, hhandle, hopen, hreached⟩
      rcases hx with hreads | hwrites
      · exact (hreads.isRead.answered _ hvalid).spared
      · exact hwrites.spared hvalid
    -- nothing is looked at, as nothing can be written
    · obtain ⟨hblind, hidle⟩ := not_or.1 fun hseen =>
        hlost ⟨t, ht, hlives, hstays, hreached, hseen⟩
      exact Handle.spared_idle (hbegins.resolve_left hblind) hhandle hopen
        hidle
  · have hover := not_and_or.1 (mt hadmits.2 hopen)
    refine .late ⟨t, ht, hover.imp_left not_not.1⟩ ?_
    exact Handle.failed_late hbegins hhandle (eq_false_of_ne_true hopen)

/-- How uses of handles are counted. A handle, or a copy of it, is used after
any run since it was handed out. If its transaction is still there and has
ended or been moved to another version since, the use is late: it is rejected
and counted, once. No other use is counted. But uses are also rejected if the
transaction is gone, and if it is not late but the table or object has been
lost from what it sees. So a use is counted as it is rejected exactly if
neither is the case. -/
theorem stale_uses_counted (s : Snapshot) (log : Option HistoryLog)
    (limits : Limits) {before after : List Event} {g h : Handle}
    {id : TransactionId} {e : Engine}
    (hbefore : TypedRun (starting s log limits) before)
    (hgrants : Grants id ((starting s log limits).through before) g e)
    (hcopy : h.anchor = g.anchor) (hafter : TypedRun e after) {α : Type}
    {x : Edit Engine α} (hx : h.Reads x ∨ h.Writes x) :
    let e' := e.through after
    let gone := e'.transaction? id = none
    (IsLate id e after → (leftBy x e').staleUses = e'.staleUses + 1)
      ∧ (¬ IsLate id e after → (leftBy x e').staleUses = e'.staleUses)
      ∧ (Rejects x e' ↔ IsLate id e after ∨ gone ∨ IsLost id e after h x)
      ∧ (Counts x e' ↔ ¬ gone ∧ ¬ IsLost id e after h x) := by
  intro e' gone
  have he : e.Orderly :=
    hgrants.orderly ((orderly_starting s log limits).through hbefore)
  have hanchor : e.anchor id = .ok h.anchor := hcopy ▸ hgrants.anchor_eq
  cases he.met hanchor hafter hx with
  | late hlate hfailed =>
      have hrejects : Rejects x e' := hfailed.rejects
      refine ⟨fun _ => hfailed.uses_eq, fun hprompt => absurd hlate hprompt,
        ⟨fun _ => .inl hlate, fun _ => hrejects⟩,
        ⟨fun _ => not_or.1 hlate.not_missed, fun _ =>
          ⟨fun _ => hfailed.uses_eq, fun hnot => absurd hrejects hnot⟩⟩⟩
  | missed hmissed hfailed =>
      have hrejects : Rejects x e' := hfailed.rejects
      refine ⟨fun hlate => absurd hmissed hlate.not_missed,
        fun _ => hfailed.uses_eq,
        ⟨fun _ => .inr hmissed, fun _ => hrejects⟩,
        ⟨fun hcounts => ?_, fun hnone => absurd hmissed (not_or.2 hnone)⟩⟩
      -- if it were counted the counter would have moved
      have hsame : e'.staleUses + 0 = e'.staleUses + 1 :=
        hfailed.uses_eq.symm.trans (hcounts.1 hrejects)
      exact absurd hsame.symm (Nat.succ_ne_self _)
  | spared hprompt hthere hkept hspared =>
      have hnot : ¬ Rejects x e' := hspared.not_rejects
      have hnone : ¬ (IsLate id e after ∨ gone ∨ IsLost id e after h x) :=
        not_or.2 ⟨hprompt, not_or.2 ⟨hthere, hkept⟩⟩
      exact ⟨fun hlate => absurd hlate hprompt, fun _ => hspared.uses_eq,
        ⟨fun hrejects => absurd hrejects hnot, fun hany => absurd hany hnone⟩,
        ⟨fun _ => ⟨hthere, hkept⟩, fun _ =>
          ⟨fun hrejects => absurd hrejects hnot, fun _ => hspared.uses_eq⟩⟩⟩

/-- A handle that is used after its transaction has moved on is counted; one
that is used after it was dropped is not. -/
theorem stale_uses_counted_dropped :
    let e := (inMemory {}).through addsAndLooks
    let h : TableHandle := ⟨⟨⟨1⟩, 0⟩, ⟨0⟩⟩
    let moved := e.through (readsOn ++ [.call (.advance ⟨1⟩)])
    let dropped := e.through (readsOn ++ [.call (.drop ⟨1⟩)])
    (Rejects h.size moved ∧ (leftBy h.size moved).staleUses = 1)
      ∧ Rejects h.size dropped ∧ (leftBy h.size dropped).staleUses = 0
      ∧ ¬ Counts h.size dropped := by
  intro e h moved dropped
  have hbefore : TypedRun (inMemory {}) addsAndLooks :=
    ⟨trivial, trivial, trivial⟩
  have hgrants : Grants ⟨1⟩ e (.table h) e := by
    refine @Grants.table? _ _ "t" _ ?_
    decide +kernel
  have hkept : TypedRun e readsOn := ⟨trivial, trivial, trivial, trivial⟩
  have hmoved : TypedRun e (readsOn ++ [.call (.advance ⟨1⟩)]) := by
    refine typedRun_append.2 ⟨hkept, fun t ht => ?_, trivial⟩
    have hrole : ((e.through readsOn).transaction? ⟨1⟩).map (·.role)
        = some .reader := by decide +kernel
    rw [ht] at hrole
    exact Option.some.inj hrole
  have hdropped : TypedRun e (readsOn ++ [.call (.drop ⟨1⟩)]) :=
    typedRun_append.2 ⟨hkept, trivial, trivial⟩
  -- a use behind a move is counted, one behind a drop is not
  obtain ⟨hcounted, -, hrejects, -⟩ := stale_uses_counted .empty none _
    hbefore hgrants rfl hmoved (.inl (.size h))
  obtain ⟨-, huncounted, hrejects', hcounts⟩ := stale_uses_counted .empty
    none _ hbefore hgrants rfl hdropped (.inl (.size h))
  have hlate : IsLate ⟨1⟩ e (readsOn ++ [.call (.advance ⟨1⟩)]) := by
    have hthere : (moved.transaction? ⟨1⟩).isSome = true := by
      decide +kernel
    obtain ⟨t, ht⟩ := Option.isSome_iff_exists.1 hthere
    exact ⟨t, ht, .inr (by decide +kernel)⟩
  have hgone : dropped.transaction? ⟨1⟩ = none := by
    rw [← Option.isNone_iff_eq_none]
    decide +kernel
  have hprompt : ¬ IsLate ⟨1⟩ e (readsOn ++ [.call (.drop ⟨1⟩)]) := by
    rintro ⟨t, ht, -⟩
    cases hgone.symm.trans ht
  have hnone : moved.staleUses = 0 := by decide +kernel
  have hnone' : dropped.staleUses = 0 := by decide +kernel
  refine ⟨⟨hrejects.2 (.inl hlate), ?_⟩, hrejects'.2 (.inr (.inl hgone)), ?_,
    fun h => (hcounts.1 h).1 hgone⟩
  · exact (hcounted hlate).trans (congrArg (· + 1) hnone)
  · exact (huncounted hprompt).trans hnone'

/-- A writer makes a table with a row. -/
def addsRow : List Event :=
  [.call .beginWrite, .call (.addTable ⟨1⟩ "t"),
    .call (.createObject ⟨⟨⟨1⟩, 0⟩, ⟨0⟩⟩)]

/-- It removes the row, and the handle to it is rejected from then on; that
is not counted, although the transaction is there to count it. -/
theorem removed_row_not_counted :
    let o : ObjectHandle := ⟨⟨⟨1⟩, 0⟩, ⟨0⟩, ⟨0⟩⟩
    let e := (inMemory {}).through addsRow
    let e' := e.through [.call (.remove o)]
    (Handle.object o).isValid e = true ∧ Rejects (o.get ⟨0⟩) e'
      ∧ (leftBy (o.get ⟨0⟩) e').staleUses = 0 ∧ ¬ Counts (o.get ⟨0⟩) e' := by
  intro o e e'
  have hvalid : (Handle.object o).isValid e = true := by decide +kernel
  have hverdict : Edit.verdict (o.get ⟨0⟩) e' = .error .objectDetached := by
    decide +kernel
  have hleft : (leftBy (o.get ⟨0⟩) e').staleUses = 0 := by decide +kernel
  obtain ⟨e₁, hrun⟩ := Edit.verdict_eq_error.1 hverdict
  have hrejects : Rejects (o.get ⟨0⟩) e' := ⟨_, e₁, hrun, .inr rfl⟩
  refine ⟨hvalid, hrejects, hleft, fun hcounts => ?_⟩
  rw [hcounts.1 hrejects] at hleft
  cases hleft

end Engine

end Colonnade
