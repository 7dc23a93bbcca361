/-
The posts of transactions: what each does and what its view is open for.
Handles change no post, and a reader that is moved keeps its own. Ending a
transaction is about that one alone: the posts of the others stay
(`Leaves`), and dropping it takes its own away (`Without`).

A writer that is refused something is told why. The log refuses a record,
and the snapshot a table, for reasons that are not about the state of the
transaction.

Chain: `Boundary.Writers` lends transactions out and knows their posts.
-/
import Colonnade.Proofs.Engine.Closures
import Colonnade.Proofs.Engine.Turns

namespace Colonnade

-- ======================================================= refused records

/-- What a log refuses it refuses for no reason that is about a
transaction. -/
theorem HistoryLog.fails_appendCommit (r : CommitRecord) :
    Edit.Fails (·.kind ≠ .illegalState) (appendCommit r) := by
  have hencode (format : UInt16) (err : Error)
      (herr : Wire.encode format r = .error err) :
      err.kind ≠ .illegalState := by
    unfold Wire.encode at herr
    split at herr
    · cases herr
      nofun
    · dsimp only at herr
      split at herr
      · cases herr
        nofun
      · cases herr
  have hstore {α : Type} (step : EStateM StoreFault Store α) :
      Edit.Fails (·.kind ≠ .illegalState) (onStore step) := by
    intro log err log' h
    unfold onStore at h
    dsimp only [EStateM.run] at h
    split at h <;> cases h
  refine .get_bind fun log => .bind (.lift (hencode log.format)) fun data =>
    .bind (hstore _) fun written => ?_
  cases written with
  | ok offset => exact .pure offset
  | error failed =>
      refine .bind (hstore _) fun restored => ?_
      cases restored with
      | ok => exact .throw nofun
      | error restore => exact .throw nofun

namespace Engine

variable {e e' : Engine} {id : TransactionId} {t : Transaction}

theorem appendTo_mild {r : CommitRecord} {log log' : Option HistoryLog}
    {err : Error} (hlog : appendTo r log = (.error err, log')) :
    err.kind ≠ .illegalState := by
  unfold appendTo at hlog
  cases log with
  | none => cases hlog
  | some log =>
      dsimp only at hlog
      split at hlog
      next => cases hlog
      next hrun =>
        cases hlog
        exact HistoryLog.fails_appendCommit r _ _ _ hrun

-- ================================================================ posts

/-- What a transaction does, and what its view is open for. -/
def post? (e : Engine) (id : TransactionId) : Option (Role × ViewMode) :=
  (e.transaction? id).map fun t => (t.role, t.view.mode)

theorem post?_eq_some {p : Role × ViewMode} :
    e.post? id = some p
      ↔ ∃ t, e.transaction? id = some t ∧ (t.role, t.view.mode) = p :=
  Option.map_eq_some_iff

theorem post?_of_eq {a : TransactionId}
    (h : e'.transaction? a = e.transaction? a) : e'.post? a = e.post? a :=
  congrArg _ h

theorem post?_withTransaction (t : Transaction) (a : TransactionId) :
    (e.withTransaction id t).post? a
      = if a = id then some (t.role, t.view.mode) else e.post? a := by
  unfold post?
  rw [transaction?_withTransaction]
  split <;> rfl

/-- A transaction that goes on in its role and its mode. -/
theorem post?_replaced (ht : e.transaction? id = some t) (u : Transaction)
    (hrole : u.role = t.role) (hmode : u.view.mode = t.view.mode)
    (a : TransactionId) : (e.withTransaction id u).post? a = e.post? a := by
  rw [post?_withTransaction, hrole, hmode]
  split
  next heq =>
    subst heq
    exact (post?_eq_some.2 ⟨t, ht, rfl⟩).symm
  next => rfl

/-- Handles change no post. -/
theorem lasting_posts (posts : TransactionId → Option (Role × ViewMode)) :
    Lasting fun e => ∀ a, e.post? a = posts a := by
  intro e e' h hstep a
  cases hstep with
  | counted => exact h a
  | @kept id t ht => exact (post?_replaced ht t rfl rfl a).trans (h a)
  | @wrote id t _ _ v ht hwrote =>
      exact (post?_replaced ht { t with view := v } rfl hwrote.mode_eq
        a).trans (h a)

theorem post?_opened (e : Engine) (mode : ViewMode) (role : Role)
    (a : TransactionId) :
    (e.opened mode role).post? a
      = if a = e.nextId then some (role, mode) else e.post? a :=
  post?_withTransaction _ a

theorem Serial.post?_nextId (h : e.Serial) : e.post? e.nextId = none := by
  unfold post?
  cases ht : e.transaction? e.nextId with
  | none => rfl
  | some t => exact absurd (h.fresh _ t ht) (Nat.lt_irrefl _)

/-- The log has no part in who writes. -/
theorem Serial.logged (h : e.Serial) (log : Option HistoryLog) :
    Serial { e with log } := by
  refine ⟨h.fresh, ?_⟩
  cases h.slot with
  | free hbusy hnone => exact .free hbusy hnone
  | held hbusy ht hrole hsole hbased =>
      exact .held hbusy ht hrole hsole hbased

/-- A reader that is moved stays at its post. -/
theorem Serial.advances (h : e.Serial) (ht : e.transaction? id = some t)
    (hrole : t.role = .reader) (hmode : t.view.mode = .reading) :
    ∃ moved e', (advance id).run e = .ok moved e' ∧ e'.Serial
      ∧ ∀ a, e'.post? a = e.post? a := by
  by_cases hpinned : e.version = t.pinned
  · exact ⟨false, e, run_advance_still ht hpinned, h, fun _ => rfl⟩
  · have hidle : ¬ t.IsWriting := by
      rintro ⟨holdsSlot, hwriter⟩
      rw [hrole] at hwriter
      cases hwriter
    exact ⟨true, e.advancedTo id t, run_advance_moved ht hpinned,
      (aside_advancedTo ht hidle).serial h,
      post?_replaced ht (e.moved t) rfl hmode.symm⟩

-- ========================================================= one that ends

/-- An engine that one transaction may have changed in, and no other. -/
structure Leaves (e : Engine) (id : TransactionId) (e' : Engine) : Prop where
  serial : e'.Serial
  others : ∀ a, a ≠ id → e'.transaction? a = e.transaction? a

theorem others_of_same {u : Transaction}
    (hsame : ∀ a, e'.transaction? a = (e.withTransaction id u).transaction? a)
    (a : TransactionId) (hne : a ≠ id) :
    e'.transaction? a = e.transaction? a :=
  (hsame a).trans ((transaction?_withTransaction a).trans (if_neg hne))

theorem Serial.commit_leaves (h : e.Serial) (ht : e.transaction? id = some t)
    (hrole : t.role = .writer .active true) :
    (∃ v e', (commit id).run e = .ok v e' ∧ e.Leaves id e')
      ∨ ∃ err e', (commit id).run e = .error err e'
        ∧ err.kind ≠ .illegalState ∧ e.Leaves id e' := by
  have hdone : (Call.commit id).run.run e = _ := run_done (commit id) e
  have hserial := (h.step (.call (.commit id))).serial h
  cases hlog : appendTo (e.recordOf t) e.log with
  | mk outcome log =>
      cases outcome with
      | ok grown =>
          obtain ⟨e', hrun, hsame⟩ := run_commit_ok ht hrole hlog
          rw [hrun] at hdone
          exact .inl ⟨_, e', hrun, step_of_ok hdone ▸ hserial,
            others_of_same hsame.transaction?_eq⟩
      | error err =>
          obtain ⟨e', hrun, hsame⟩ := run_commit_error ht hrole hlog
          rw [hrun] at hdone
          exact .inr ⟨err, e', hrun, appendTo_mild hlog,
            step_of_error hdone ▸ hserial,
            others_of_same hsame.transaction?_eq⟩

theorem Serial.rollback_leaves (h : e.Serial)
    (ht : e.transaction? id = some t)
    (hrole : t.role = .writer .active true) :
    ∃ e', (rollback id).run e = .ok () e' ∧ e.Leaves id e' := by
  obtain ⟨e', hrun, hsame⟩ := run_rollback ht hrole
  have hserial := (h.step (.call (.rollback id))).serial h
  exact ⟨e', hrun, step_of_ok (c := .rollback id) hrun ▸ hserial,
    others_of_same hsame.transaction?_eq⟩

/-- An engine without a transaction, and with the others as before. -/
structure Without (e : Engine) (id : TransactionId) (e' : Engine) :
    Prop where
  serial : e'.Serial
  post?_eq : ∀ a, e'.post? a = if a = id then none else e.post? a

/-- Dropping takes a transaction out. -/
theorem Serial.drops (h : e.Serial) (ht : e.transaction? id = some t) :
    ∃ e', (drop id).run e = .ok () e' ∧ e.Without id e' := by
  have hserial := (h.step (.call (.drop id))).serial h
  have hgone {e' : Engine} (u : Transaction)
      (heq : ∀ a, e'.transaction? a = (e.dropped id u).transaction? a)
      (a : TransactionId) :
      e'.post? a = if a = id then none else e.post? a := by
    unfold post?
    rw [heq, transaction?_dropped]
    split <;> rfl
  by_cases hw : t.IsWriting
  · obtain ⟨-, hrole, -, -⟩ := h.active ht hw
    obtain ⟨e', hrun, hsame⟩ := run_drop_active ht hrole
    refine ⟨e', hrun, step_of_ok (c := .drop id) hrun ▸ hserial,
      hgone t fun a => ?_⟩
    exact (hsame.transaction?_eq a).trans
      (transaction?_aborted_dropped e id t t a)
  · have hrun := run_drop_idle ht hw
    exact ⟨_, hrun, step_of_ok (c := .drop id) hrun ▸ hserial,
      hgone t fun _ => rfl⟩

/-- So does dropping a writer that was ended before. -/
theorem Leaves.drops (h : e.Leaves id e') :
    ∃ e'', (drop id).run e' = .ok () e'' ∧ e.Without id e'' := by
  cases ht : e'.transaction? id with
  | none =>
      refine ⟨e', run_drop_none ht, h.serial, fun a => ?_⟩
      split
      next heq =>
        unfold post?
        rw [heq, ht]
        rfl
      next hne => exact post?_of_eq (h.others a hne)
  | some t =>
      obtain ⟨e'', hrun, hserial, hposts⟩ := h.serial.drops ht
      refine ⟨e'', hrun, hserial, fun a => (hposts a).trans ?_⟩
      split
      next => rfl
      next hne => exact post?_of_eq (h.others a hne)

-- ======================================================= adding a table

/-- A name is refused for what it is. -/
theorem fails_addTable (key : TableKey) (name : String) :
    Edit.Fails (·.kind ≠ .illegalState) (Snapshot.addTable key name) := by
  have hargument (why : BadArgument) :
      (Error.illegalArgument why).kind ≠ .illegalState := nofun
  have hfatal (what : Contradiction) :
      (Error.fatal what).kind ≠ .illegalState := nofun
  simp only [Snapshot.addTable, Edit.throw_bind]
  exact .get_bind fun s => .guard (hargument _) (.guard (hargument _)
    (.guard (hfatal _) (.set _)))

/-- What is written to the view of an open writer. -/
theorem run_writeView (ht : e.transaction? id = some t)
    (hmode : t.view.mode = .writing)
    (build : Snapshot → Except Error Instruction) :
    (writeView id build).run e
      = match (View.record .ample e.limits build).run t.view with
        | .ok i v => .ok i (e.withTransaction id { t with view := v })
        | .error err v =>
          .error err (e.withTransaction id { t with view := v }) := by
  have hadmits : t.view.admits t.view.generation = true := by
    simp [View.admits, hmode]
  have hfound : (liftM (Except.ok t : Except Error Transaction)
      : Edit Engine Transaction).run e = .ok t e := rfl
  have hrun {result : Except Error Instruction} {view : View}
      (hwrite : t.view.write e.limits t.view.generation build
        = (some result, view)) :
      (writeView id build).run e
        = (liftM result : Edit Engine Instruction).run
          (e.withTransaction id { t with view }) := by
    unfold writeView
    rw [EStateM.run_bind, EStateM.run_get]
    dsimp only
    rw [requireTransaction_eq_ok.2 ht, EStateM.run_bind, hfound]
    dsimp only
    rw [hwrite]
    rfl
  cases hrecord : (View.record .ample e.limits build).run t.view with
  | ok i v =>
      have hwrite : t.view.write e.limits t.view.generation build
          = (some (.ok i), v) := by
        unfold View.write View.writeWithin
        rw [if_pos hadmits, if_neg (not_not.2 hmode), hrecord]
      exact hrun hwrite
  | error err v =>
      have hwrite : t.view.write e.limits t.view.generation build
          = (some (.error err), v) := by
        unfold View.write View.writeWithin
        rw [if_pos hadmits, if_neg (not_not.2 hmode), hrecord]
      exact hrun hwrite

/-- An open writer is refused a table for no reason that is about the
writer. -/
theorem addTable_mild (ht : e.transaction? id = some t)
    (hrole : t.role = .writer .active true) (hmode : t.view.mode = .writing)
    {name : String} {err : Error}
    (hrun : (addTable id name).run e = .error err e') :
    err.kind ≠ .illegalState := by
  have hactive : e.requireActive id = .ok t :=
    requireActive_eq_ok.2 ⟨ht, true, hrole⟩
  have hrecord : Edit.Fails (·.kind ≠ .illegalState)
      (View.record .ample e.limits fun s =>
        return .addTable s.nextTable name) := by
    refine .get_bind fun v => ?_
    show Edit.Fails _ (do
      Edit.focus _ _ (Snapshot.addTable v.snapshot.nextTable name)
      modify _
      return _)
    exact .bind (.focus (fails_addTable _ name)) fun _ =>
      .bind (.modify _) fun _ => .pure _
  unfold addTable at hrun
  rw [EStateM.run_bind, EStateM.run_get] at hrun
  dsimp only at hrun
  rw [hactive] at hrun
  change (writeView id _ >>= _).run e = _ at hrun
  rw [EStateM.run_bind, run_writeView ht hmode] at hrun
  cases hmade : (View.record .ample e.limits fun s =>
      return .addTable s.nextTable name).run t.view with
  | ok i v =>
      -- the table was added, and the handle to it can be made
      obtain rfl := Except.ok.inj (View.gives_record hmode hmade).built
      have hanchor : (e.withTransaction id { t with view := v }).anchor id
          = .ok ⟨id, v.generation⟩ := by
        unfold anchor
        rw [requireTransaction_eq_ok.2 (transaction?_self e id _)]
        rfl
      rw [hmade] at hrun
      dsimp only at hrun
      rw [EStateM.run_bind, EStateM.run_get] at hrun
      dsimp only at hrun
      rw [hanchor] at hrun
      cases hrun
  | error err' v =>
      rw [hmade] at hrun
      cases hrun
      exact hrecord _ _ _ hmade

end Engine

end Colonnade
