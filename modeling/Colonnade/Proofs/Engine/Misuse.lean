/-
No contradiction is ever met by writing. Whatever is asked of a write
transaction, or of a handle to a table or an object, in whatever state and
with whatever arguments, it is done or it is refused, and what is refused is
the caller's: a name, a key, a value, an index or a moment that does not do.

Everything that writes builds an instruction from the very snapshot on which
the instruction is then carried out, so the keys that it gives are those that
the counters of that snapshot ask for (`View.Proper`). Every snapshot of an
engine was reached (`Engine.Wrought`), and there such an instruction fails by
misuse or not at all. What is recorded is the instruction that was built,
which is why a handle to a new table, column or object can be made from it.

Chain: over `Snapshot.Misuse`, which goes through the instructions.
-/
import Colonnade.Proofs.Engine.Handed
import Colonnade.Proofs.Engine.Wrought
import Colonnade.Proofs.Snapshot.Misuse

namespace Colonnade

open Error Snapshot

-- ================================================================= views

namespace View

/-- Whether an instruction is built with keys that were drawn from the
counters, or by misuse cannot be. -/
structure Proper (build : Snapshot → Except Error Instruction) : Prop where
  fails : ∀ s, Check.Fails IsMisuse (build s)
  drawn : ∀ s i, build s = .ok i → i.Drawn s

variable {build : Snapshot → Except Error Instruction} {limits : Limits}
  {v v' : View}

/-- Recording a proper instruction fails only so, on a snapshot that was
reached. -/
theorem misuse_record (hbuild : Proper build)
    (hreached : ∃ is, Reached is v.snapshot) :
    Edit.FailsAt IsMisuse (record .ample limits build) v := by
  obtain ⟨is, his⟩ := hreached
  refine .get_bind (.lift_bind (hbuild.fails _) fun i hi => ?_)
  have happly : Edit.FailsAt IsMisuse (Snapshot.apply limits i) v.snapshot :=
    misuse_apply his.formed his.seated (hbuild.drawn _ i hi)
  refine .bind (.focus happly) fun _ _ _ => ?_
  exact (Edit.Fails.bind (.modify _) fun _ => .pure i).at _

/-- Writing a proper instruction to a view fails only so. -/
theorem misuse_write (hbuild : Proper build)
    (hreached : ∃ is, Reached is v.snapshot) {generation : UInt64}
    {err : Error}
    (hwrite : v.write limits generation build = (some (.error err), v')) :
    err.IsMisuse := by
  unfold write writeWithin at hwrite
  split at hwrite
  next =>
    split at hwrite
    next =>
      cases hwrite
      exact isMisuse_illegalState _
    next =>
      cases hrun : (record .ample limits build).run v with
      | ok i w =>
          rw [hrun] at hwrite
          cases hwrite
      | error err' w =>
          rw [hrun] at hwrite
          cases hwrite
          exact misuse_record hbuild hreached err _ hrun
  next => cases hwrite

end View

open View (Proper)

-- =============================================================== engines

namespace Edit

variable {σ α : Type} {P : Error → Prop} {Q : σ → Prop} {x : Edit σ α}

/-- What is preserved is left by a success. -/
theorem Preserves.gives (h : Preserves Q x) {s s' : σ} (hs : Q s) {a : α}
    (hgives : Gives x s a s') : Q s' := by
  have hends := h s hs
  rw [show x.run s = _ from hgives] at hends
  exact hends

/-- The verdict is an error where the step fails with it. -/
theorem verdict_eq_error {s : σ} {err : Error} :
    verdict x s = .error err ↔ ∃ s', x.run s = .error err s' := by
  unfold verdict
  cases x.run s <;> simp

/-- A list of edits, each of which keeps what the others need. -/
theorem FailsAt.forM {f : α → Edit σ Unit} (hkeeps : ∀ a, Preserves Q (f a))
    (hfails : ∀ a s, Q s → FailsAt P (f a) s) (l : List α) {s : σ}
    (hs : Q s) : FailsAt P (l.forM f) s := by
  induction l generalizing s with
  | nil => exact .pure ()
  | cons a l ih =>
      exact .bind (hfails a s hs) fun _ s' hgives =>
        ih ((hkeeps a).gives hs hgives)

end Edit

namespace Engine.Wrought

variable {e : Engine} {id : TransactionId} {α : Type}
  {build : Snapshot → Except Error Instruction}

theorem misuse_refuse {stale : Error} (hstale : stale.IsMisuse) :
    Edit.Fails IsMisuse (Anchor.refuse stale : Edit Engine α) :=
  .bind (.modify _) fun _ => .throw hstale

/-- A transaction that is gone is the caller's fault. -/
theorem misuse_requireTransaction (e : Engine) (id : TransactionId) :
    Check.Fails IsMisuse (e.requireTransaction id) := by
  unfold requireTransaction
  split
  · exact .ok _
  · exact .error (isMisuse_illegalState _)

theorem misuse_requireActive (e : Engine) (id : TransactionId) :
    Check.Fails IsMisuse (e.requireActive id) := by
  refine .bind (misuse_requireTransaction e id) fun t _ => ?_
  refine .bind ?_ fun state _ => ?_
  · unfold writerState
    split
    · exact .ok _
    · exact .error (isMisuse_illegalState _)
  · split
    · exact .ok t
    · exact .error (isMisuse_illegalState _)
    · exact .error (isMisuse_illegalState _)

theorem misuse_anchor (e : Engine) (id : TransactionId) :
    Check.Fails IsMisuse (e.anchor id) :=
  .bind (misuse_requireTransaction e id) fun _ _ => .ok _

theorem misuse_table? (e : Engine) (id : TransactionId) (name : String) :
    Check.Fails IsMisuse (e.table? id name) :=
  .bind (.bind (misuse_requireTransaction e id) fun _ _ => .ok _)
    fun _ _ => .bind (misuse_anchor e id) fun _ _ => .ok _

/-- A name that no table has is the caller's fault. -/
theorem misuse_requireTableNamed (e : Engine) (id : TransactionId)
    (name : String) : Check.Fails IsMisuse (e.requireTable id name) := by
  refine .bind (misuse_table? e id name) fun found _ => ?_
  split
  · exact .ok _
  · exact .error (isMisuse_classNotFound name)

/-- A handle that stands for nothing is the caller's fault. -/
theorem misuse_stale (handle : Handle) : handle.stale.IsMisuse := by
  cases handle <;> exact isMisuse_illegalState _

/-- A handle is not resolved only if what it is for is gone. -/
theorem misuse_resolve (handle : Handle) (s : Snapshot) :
    Check.Fails IsMisuse (handle.resolve s) := by
  by_cases hlives : handle.LivesIn s
  · obtain ⟨t, ht⟩ := Handle.resolve_of_livesIn hlives
    rw [ht]
    exact .ok t
  · rw [Handle.resolve_of_not_livesIn hlives]
    exact .error (misuse_stale handle)

/-- Reading through an anchor fails as what is read does, or because the
handle is stale. -/
theorem misuse_read (a : Anchor) {stale : Error} (hstale : stale.IsMisuse)
    {f : Snapshot → Except Error α}
    (hf : ∀ s, Check.Fails IsMisuse (f s)) :
    Edit.Fails IsMisuse (a.read stale f) := by
  refine .get_bind fun e => ?_
  split
  · exact .throw hstale
  next t ht =>
    unfold View.read
    split
    next hread => exact misuse_refuse hstale
    next result hread =>
      split at hread
      · cases hread
        exact .lift (hf _)
      · cases hread

/-- What comes of a write is told once the view was put back. -/
theorem misuse_told {result : Option (Except Error Instruction)}
    {none? : Edit Engine Instruction} (hnone : Edit.Fails IsMisuse none?)
    (hresult : ∀ err, result = some (.error err) → err.IsMisuse)
    (t : Transaction) : Edit.Fails IsMisuse (do
      put id t
      match result with
      | none => none?
      | some result => liftM result : Edit Engine Instruction) := by
  refine .bind (.modify _) fun _ => ?_
  rcases result with _ | ⟨err | i⟩
  · exact hnone
  · exact .throw (hresult err rfl)
  · exact .pure i

/-- Writing through an anchor fails only so. -/
theorem misuse_write (h : e.Wrought) (hbuild : Proper build) (a : Anchor)
    {stale : Error} (hstale : stale.IsMisuse) :
    Edit.FailsAt IsMisuse (a.write stale build) e := by
  refine .get_bind ?_
  cases ht : e.transaction? a.transaction with
  | none => exact .throw hstale
  | some t =>
      dsimp only
      cases hwrite : t.view.write e.limits a.generation build with
      | mk result view =>
          refine (misuse_told (misuse_refuse hstale) (fun err herr => ?_)
            { t with view }).at e
          subst herr
          exact View.misuse_write hbuild (h.shown _ t ht) hwrite

/-- Writing to a transaction fails only so. -/
theorem misuse_writeView (h : e.Wrought) (hbuild : Proper build) :
    Edit.FailsAt IsMisuse (writeView id build) e := by
  refine .get_bind (.lift_bind (misuse_requireTransaction e id)
    fun t ht => ?_)
  cases hwrite : t.view.write e.limits t.view.generation build with
  | mk result view =>
      refine (misuse_told (.throw (isMisuse_illegalState _))
        (fun err herr => ?_) { t with view }).at e
      subst herr
      exact View.misuse_write hbuild
        (h.shown id t (requireTransaction_eq_ok.1 ht)) hwrite

/-- What is written through a handle is built from its table. -/
theorem misuse_writeTo (h : e.Wrought) (handle : Handle)
    {build : Table → Except Error Instruction}
    (hfails : ∀ t, Check.Fails IsMisuse (build t))
    (hdrawn : ∀ s t i, handle.resolve s = .ok t → build t = .ok i →
      i.Drawn s) : Edit.FailsAt IsMisuse (handle.write build) e := by
  refine h.misuse_write ⟨fun s => ?_, fun s i hi => ?_⟩ handle.anchor
    (misuse_stale handle)
  · exact .bind (misuse_resolve handle s) fun t _ => hfails t
  · obtain ⟨t, ht, hi⟩ := Check.bind_eq_ok.1 hi
    exact hdrawn s t i ht hi

/-- An instruction that gives out no key is built from any table. -/
theorem misuse_writeKeyless (h : e.Wrought) (handle : Handle)
    {build : Table → Except Error Instruction}
    (hfails : ∀ t, Check.Fails IsMisuse (build t))
    (hkeyless : ∀ s t i, build t = .ok i → i.Drawn s) :
    Edit.FailsAt IsMisuse (handle.write build) e :=
  h.misuse_writeTo handle hfails fun s t i _ => hkeyless s t i

-- ====================================================== the operations

theorem misuse_addTable (h : e.Wrought) (name : String) :
    Edit.FailsAt IsMisuse (addTable id name) e := by
  have hbuild : Proper fun s => return .addTable s.nextTable name := by
    refine ⟨fun s => .ok _, fun s i hi => ?_⟩
    cases hi
    rfl
  refine .get_bind (.lift_bind (misuse_requireActive e id) fun _ _ => ?_)
  refine .bind (h.misuse_writeView hbuild) fun i e' hgives => ?_
  obtain ⟨t, v, hwrote, -⟩ := gives_writeView hgives
  obtain rfl := Except.ok.inj hwrote.built
  exact .get_bind (.lift_bind (misuse_anchor e' id) fun _ _ => .pure _)

theorem misuse_getOrAddTable (h : e.Wrought) (name : String) :
    Edit.FailsAt IsMisuse (getOrAddTable id name) e := by
  refine .get_bind (.lift_bind (misuse_table? e id name) fun found _ => ?_)
  cases found with
  | some h => exact .pure h
  | none => exact h.misuse_addTable name

theorem misuse_removeTable (h : e.Wrought) (name : String) :
    Edit.FailsAt IsMisuse (removeTable id name) e := by
  refine .get_bind (.lift_bind (misuse_requireActive e id) fun _ _ => ?_)
  refine .get_bind (.lift_bind (misuse_requireTableNamed e id name)
    fun table _ => ?_)
  have hbuild : Proper fun _ => return .removeTable table.key := by
    refine ⟨fun s => .ok _, fun s i hi => ?_⟩
    cases hi
    trivial
  exact .bind (h.misuse_writeView hbuild) fun _ _ _ => .pure ()

/-- What a handle has recorded was built from a table that it reached. -/
theorem built_of_write (handle : Handle)
    {build : Table → Except Error Instruction} {i : Instruction} {e' : Engine}
    (hgives : Edit.Gives (handle.write build) e i e') :
    ∃ s t, handle.resolve s = .ok t ∧ build t = .ok i := by
  obtain ⟨t, view, -, hwrite, -⟩ := Handle.gives_write hgives
  rcases View.write_cases hwrite with ⟨j, hj, hwrote⟩ | ⟨-, hno⟩
  · cases hj
    obtain ⟨table, htable, hbuilt⟩ := Check.bind_eq_ok.1 hwrote.built
    exact ⟨_, table, htable, hbuilt⟩
  · exact absurd rfl (hno i)

/-- What a table is to make is recorded as it was asked for, and so a handle
can be made from the record. -/
theorem misuse_make (h : e.Wrought) (handle : TableHandle)
    {make : Table → Instruction}
    (hdrawn : ∀ s t, s.table? handle.key = some t → (make t).Drawn s)
    {f : Instruction → Edit Engine α}
    (hf : ∀ t, Edit.Fails IsMisuse (f (make t))) :
    Edit.FailsAt IsMisuse
      ((handle.write fun t => return make t) >>= f) e := by
  have hwrite : Edit.FailsAt IsMisuse
      ((Handle.table handle).write fun t => return make t) e := by
    refine h.misuse_writeTo _ (fun t => .ok _) fun s t i ht hi => ?_
    cases hi
    exact hdrawn s t (Handle.resolve_table_eq_ok.1 ht)
  refine Edit.FailsAt.bind hwrite fun i e' hgives => ?_
  obtain ⟨-, t, -, hi⟩ := built_of_write (.table handle) hgives
  cases hi
  exact (hf t).at e'

theorem misuse_addColumn (h : e.Wrought) (handle : TableHandle)
    (spec : ColumnSpec) :
    Edit.FailsAt IsMisuse (handle.addColumn spec) e := by
  refine h.misuse_make handle ?_ fun t => .pure _
  intro s t ht u hu
  rw [Option.some.inj (hu.symm.trans ht)]

theorem misuse_createObject (h : e.Wrought) (handle : TableHandle) :
    Edit.FailsAt IsMisuse handle.createObject e := by
  refine h.misuse_make handle ?_ fun t => .pure _
  intro s t ht u hu
  rw [Option.some.inj (hu.symm.trans ht)]

theorem misuse_removeObject (h : e.Wrought) (handle : TableHandle)
    (key : ObjectKey) :
    Edit.FailsAt IsMisuse (handle.removeObject key) e := by
  have hwrite : Edit.FailsAt IsMisuse ((Handle.table handle).write fun _ =>
      return .removeObject handle.key key) e := by
    refine h.misuse_writeKeyless _ (fun t => .ok _) fun s t i hi => ?_
    cases hi
    trivial
  exact Edit.FailsAt.bind hwrite fun _ _ _ => .pure ()

/-- Objects are removed one by one, each from what the one before left. -/
theorem misuse_clear (h : e.Wrought) (handle : TableHandle) :
    Edit.FailsAt IsMisuse handle.clear e := by
  have hkeys : Edit.Fails IsMisuse handle.objectKeys :=
    misuse_read handle.anchor (isMisuse_illegalState _) fun s =>
      .bind (misuse_resolve (.table handle) s) fun t _ => .ok _
  refine .bind (hkeys.at e) fun keys e' hgives => ?_
  have hleft := Edit.Preserves.gives (lasting_wrought.read _ _ _) h hgives
  exact .forM (fun key => lasting_wrought.removeObject handle key)
    (fun key s hs => hs.misuse_removeObject handle key) keys hleft

end Engine.Wrought

-- ================================================================= calls

/-- Whether a call is to change what a transaction is shown. -/
def Call.mutates : Call → Bool
  | addTable .. | getOrAddTable .. | removeTable .. | addColumn ..
  | removeColumn .. | createObject .. | removeObject .. | clear .. | set ..
  | setNull .. | listInsert .. | listPush .. | listSet .. | listRemove ..
  | listClear .. | remove .. => true
  | _ => false

namespace Engine

variable {e : Engine}

/-- A call that is to change something fails by misuse. -/
theorem Wrought.misuse_run (h : e.Wrought) {c : Call}
    (hc : c.mutates = true) : Edit.FailsAt IsMisuse c.run e := by
  -- a write whose instruction gives out no key, whatever is left of it
  have hwrite (handle : Handle) {build : Table → Except Error Instruction}
      (hfails : ∀ t, Check.Fails IsMisuse (build t))
      (hkeyless : ∀ s t i, build t = .ok i → i.Drawn s) :
      Edit.FailsAt IsMisuse (do let _ ← handle.write build) e :=
    .bind (h.misuse_writeKeyless handle hfails hkeyless)
      fun _ _ _ => .pure ()
  have hmade (handle : Handle) {i : Instruction}
      (hdrawn : ∀ s, i.Drawn s) :
      Edit.FailsAt IsMisuse (do let _ ← handle.write fun _ => return i) e := by
    refine hwrite handle (fun _ => .ok i) fun s t j hj => ?_
    cases hj
    exact hdrawn s
  cases c with
  | beginRead | beginWrite | commit | commitAndRead | rollback | drop
  | advance | readTable | readObject => cases hc
  | addTable id name =>
      exact .bind (h.misuse_addTable name) fun _ _ _ => .pure ()
  | getOrAddTable id name =>
      exact .bind (h.misuse_getOrAddTable name) fun _ _ _ => .pure ()
  | removeTable id name => exact h.misuse_removeTable name
  | addColumn handle spec =>
      exact .bind (h.misuse_addColumn handle spec) fun _ _ _ => .pure ()
  | removeColumn handle col => exact hmade (.table handle) fun _ => trivial
  | createObject handle =>
      exact .bind (h.misuse_createObject handle) fun _ _ _ => .pure ()
  | removeObject handle key => exact h.misuse_removeObject handle key
  | clear handle => exact h.misuse_clear handle
  | setNull handle col =>
      refine hwrite (.object handle) (fun t => ?_) fun s t i hi => ?_
      · exact .bind (t.misuse_checkNullable col) fun _ _ => .ok _
      · obtain ⟨-, -, hi⟩ := Check.bind_eq_ok.1 hi
        cases hi
        trivial
  | listPush handle col v =>
      refine hwrite (.object handle) (fun t => ?_) fun s t i hi => ?_
      · exact .bind (t.misuse_listOf handle.key col) fun _ _ => .ok _
      · obtain ⟨vs, -, hi⟩ := Check.bind_eq_ok.1 hi
        cases hi
        trivial
  | set handle | listInsert handle | listSet handle | listRemove handle
  | listClear handle | remove handle =>
      exact hmade (.object handle) fun _ => trivial

/-- No mutator meets a contradiction. In every engine that events lead to,
from whatever was reached before and over whatever log, a call that is to
change something, through any handle and with any arguments, is carried out
or is refused for a reason that lies with the caller. -/
theorem mutators_meet_no_contradiction {is : List Instruction}
    {s : Snapshot} (hreached : Reached is s) (log : Option HistoryLog)
    (limits : Limits) (events : List Event) {c : Call}
    (hc : c.mutates = true) {err : Error} {e' : Engine}
    (hrun : c.run.run ((starting s log limits).through events)
      = .error err e') :
    err.kind ∈ [.illegalArgument, .indexOutOfBounds, .classNotFound,
        .illegalState]
      ∧ ∀ what, err ≠ .fatal what := by
  have hwrought := (wrought_starting hreached log limits).through
    (serial_starting s log limits) events
  have hmisuse : err.IsMisuse := hwrought.misuse_run hc err e' hrun
  refine ⟨hmisuse, ?_⟩
  rintro what rfl
  simp [IsMisuse, kind] at hmisuse

/-- A writer makes a table with a list of numbers in each row, adds a row,
and takes it away again. -/
def rowGone : List Event :=
  [.call .beginWrite, .call (.addTable ⟨1⟩ "t"),
    .call (.addColumn ⟨⟨⟨1⟩, 0⟩, ⟨0⟩⟩ (.list "n" .int false)),
    .call (.createObject ⟨⟨⟨1⟩, 0⟩, ⟨0⟩⟩),
    .call (.createObject ⟨⟨⟨1⟩, 0⟩, ⟨0⟩⟩),
    .call (.remove ⟨⟨⟨1⟩, 0⟩, ⟨0⟩, ⟨0⟩⟩)]

/-- The row that is left has nothing in its list to replace, and the list of
the other is out of reach. -/
theorem mutators_meet_no_contradiction_rowGone :
    let e := (starting .empty none ({} : Config).limits).through rowGone
    let replace (key : ObjectKey) : Call :=
      .listSet ⟨⟨⟨1⟩, 0⟩, ⟨0⟩, key⟩ ⟨1⟩ 0 (.int 5)
    ∃ err err' e' e'', (replace ⟨1⟩).run.run e = .error err e'
      ∧ (replace ⟨0⟩).run.run e = .error err' e''
      ∧ err.kind = .indexOutOfBounds ∧ err'.kind = .illegalState
      ∧ (∀ what, err ≠ .fatal what) ∧ ∀ what, err' ≠ .fatal what := by
  intro e replace
  have hempty : Edit.verdict (replace ⟨1⟩).run e
      = .error (.indexOutOfBounds "list" 0 0) := by decide +kernel
  have hgone : Edit.verdict (replace ⟨0⟩).run e = .error .objectDetached := by
    decide +kernel
  obtain ⟨e', hrun⟩ := Edit.verdict_eq_error.1 hempty
  obtain ⟨e'', hrun'⟩ := Edit.verdict_eq_error.1 hgone
  exact ⟨_, _, e', e'', hrun, hrun', rfl, rfl,
    (mutators_meet_no_contradiction .empty none _ rowGone rfl hrun).2,
    (mutators_meet_no_contradiction .empty none _ rowGone rfl hrun').2⟩

end Engine

end Colonnade
