/-
What comes of using a handle. A handle reaches its table or object if the
transaction is there, its view admits the generation of the handle, and the
snapshot of the view has the table, or the object in it
(`Handle.isValid_iff`). What asks a handle whether it is valid and what
carries out an operation through it are written apart; here they are shown
to agree.

A use that does not reach anything is `Refused`: it fails, for a reason that
is about the handle, and leaves nothing behind but what is counted. A read
that reaches its table is `Answered`: it changes nothing at all, and if it
fails the reason is not the state of a handle. Both are closed under doing
one thing after the other, and the operations are put together from reads
and writes of one table, so they are gone through once, in `Reads` and
`Writes`.

Chain: `Engine.Validity` says which handles are valid, and when;
`Engine.Isolation` has what handles do to a reader.
-/
import Colonnade.Handle.Object
import Colonnade.Proofs.Engine.Outcomes

namespace Colonnade

-- ====================================================== mild failures

/-- Whether a check never fails for the state of a handle or of a
transaction. -/
def Check.Mild {α : Type} (x : Except Error α) : Prop :=
  ∀ err, x = .error err → err.kind ≠ .illegalState

namespace Check.Mild

variable {α β : Type}

theorem pure (a : α) : Mild (.ok a) := nofun

/-- An error that does not speak of a wrong state is mild. -/
theorem throw {err : Error} (h : err.kind ≠ .illegalState) :
    Mild (.error err : Except Error α) := by
  intro err' herr
  cases herr
  exact h

/-- Checks that are mild one after the other are mild together. -/
theorem bind {x : Except Error α} {f : α → Except Error β} (hx : Mild x)
    (hf : ∀ a, Mild (f a)) : Mild (x >>= f) := by
  cases x with
  | ok a => exact hf a
  | error err => exact .throw (hx err rfl)

end Check.Mild

namespace Table

open Check

variable (t : Table)

theorem mild_requireColumn (col : ColumnKey) :
    Mild (t.requireColumn col) := by
  unfold requireColumn
  split
  · exact .pure _
  · exact .throw nofun

theorem mild_requireSlot (key : ObjectKey) : Mild (t.requireSlot key) := by
  unfold requireSlot
  split
  · exact .pure _
  · exact .throw nofun

theorem mild_valueOf (key : ObjectKey) (col : ColumnKey) :
    Mild (t.valueOf key col) := by
  refine .bind (t.mild_requireColumn col) fun c => ?_
  split
  · exact .throw nofun
  · exact .bind (t.mild_requireSlot key) fun slot => .pure _

theorem mild_listOf (key : ObjectKey) (col : ColumnKey) :
    Mild (t.listOf key col) := by
  refine .bind (t.mild_requireColumn col) fun c => ?_
  refine .bind (t.mild_requireSlot key) fun slot => ?_
  split
  · exact .pure _
  · exact .throw nofun

theorem mild_findFirst (col : ColumnKey) (v : Value) :
    Mild (t.findFirst col v) := by
  refine .bind (t.mild_requireColumn col) fun c => ?_
  split
  · exact .throw nofun
  · exact .pure _

theorem mild_checkType (col : ColumnKey) (expected : ColumnType) :
    Mild (t.checkType col expected) := by
  refine .bind (t.mild_requireColumn col) fun c => ?_
  split
  · exact .throw nofun
  · exact .pure _

theorem mild_checkNullable (col : ColumnKey) :
    Mild (t.checkNullable col) := by
  refine .bind (t.mild_requireColumn col) fun c => ?_
  split
  · exact .pure _
  dsimp only
  split
  · exact .throw nofun
  split
  · exact .throw nofun
  · exact .pure _

end Table

namespace Engine

variable {e e' e'' : Engine} {id : TransactionId} {t : Transaction}
  {α β : Type}

-- ============================================== what is left behind

/-- Whether nothing has happened to an engine but that something was
counted. -/
def Untouched (e e' : Engine) : Prop :=
  Same e' { e with stats := e'.stats }

theorem Untouched.refl (e : Engine) : e.Untouched e := Same.refl e

/-- Two steps that leave an engine untouched do so together. -/
theorem Untouched.trans (h : e.Untouched e') (h' : e'.Untouched e'') :
    e.Untouched e'' where
  current_eq := h'.current_eq.trans h.current_eq
  log_eq := h'.log_eq.trans h.log_eq
  limits_eq := h'.limits_eq.trans h.limits_eq
  pins_eq := h'.pins_eq.trans h.pins_eq
  writerBusy_eq := h'.writerBusy_eq.trans h.writerBusy_eq
  nextId_eq := h'.nextId_eq.trans h.nextId_eq
  stats_eq := rfl
  transaction?_eq a := (h'.transaction?_eq a).trans (h.transaction?_eq a)

/-- A transaction put back and a use counted. -/
theorem untouched_kept (ht : e.transaction? id = some t) (stats : Stats) :
    e.Untouched { e.withTransaction id t with stats } where
  current_eq := rfl
  log_eq := rfl
  limits_eq := rfl
  pins_eq := rfl
  writerBusy_eq := rfl
  nextId_eq := rfl
  stats_eq := rfl
  transaction?_eq a := by
    show (e.withTransaction id t).transaction? a = e.transaction? a
    rw [transaction?_withTransaction]
    split
    next heq => rw [heq, ht]
    next => rfl

/-- Whether an edit fails with an error of some kind and leaves nothing
behind but what is counted. -/
def Refused (P : Error → Prop) (x : Edit Engine α) (e : Engine) : Prop :=
  ∃ err e', x.run e = .error err e' ∧ P err ∧ e.Untouched e'

/-- Whether an edit changes nothing and fails at most for reasons of its
own. -/
inductive Answered (x : Edit Engine α) (e : Engine) : Prop
  | ok {a : α} (hrun : x.run e = .ok a e)
  | failed {err : Error} (hrun : x.run e = .error err e)
      (hkind : err.kind ≠ .illegalState)

variable {P Q : Error → Prop} {x : Edit Engine α} {f : α → Edit Engine β}

/-- What starts with a step that is refused is refused. -/
theorem Refused.bind (h : Refused P x e) : Refused P (x >>= f) e := by
  obtain ⟨err, e', hrun, herr, hleft⟩ := h
  refine ⟨err, e', ?_, herr, hleft⟩
  rw [EStateM.run_bind, hrun]

/-- A refusal may be known less exactly. -/
theorem Refused.mono (h : Refused P x e) (hPQ : ∀ err, P err → Q err) :
    Refused Q x e := by
  obtain ⟨err, e', hrun, herr, hleft⟩ := h
  exact ⟨err, e', hrun, hPQ err herr, hleft⟩

theorem Answered.pure (a : α) : Answered (Pure.pure a) e := .ok rfl

theorem Answered.throw {err : Error} (h : err.kind ≠ .illegalState) :
    Answered (MonadExcept.throw err : Edit Engine α) e := .failed rfl h

/-- Steps that are answered one after the other are answered together. -/
theorem Answered.bind (h : Answered x e) (hf : ∀ a, Answered (f a) e) :
    Answered (x >>= f) e := by
  cases h with
  | @ok a hrun =>
      have hthen : (x >>= f).run e = (f a).run e := by
        rw [EStateM.run_bind, hrun]
      cases hf a with
      | ok hrun' => exact .ok (hthen.trans hrun')
      | failed hrun' hkind => exact .failed (hthen.trans hrun') hkind
  | failed hrun hkind =>
      refine .failed ?_ hkind
      rw [EStateM.run_bind, hrun]

/-- A mild check is answered without a look at the engine. -/
theorem Answered.lift {y : Except Error α} (h : Check.Mild y) :
    Answered (liftM y) e := by
  cases y with
  | ok a => exact .ok rfl
  | error err => exact .failed rfl (h err rfl)

end Engine

open Engine

-- =========================================================== anchors

namespace View

variable {limits : Limits} {generation : UInt64} {v : View}

/-- A view admits the handles of its own generation while it is open. -/
theorem admits_iff :
    v.admits generation = true
      ↔ v.mode ≠ .closed ∧ v.generation = generation := by
  unfold admits
  rw [Bool.and_eq_true, bne_iff_ne, beq_iff_eq]

/-- A view that answers a write admits the handle. -/
theorem admits_of_write {build : Snapshot → Except Error Instruction}
    {outcome : Except Error Instruction} {v' : View}
    (h : v.write limits generation build = (some outcome, v')) :
    v.admits generation = true := by
  unfold write writeWithin at h
  split at h
  next hadmits => exact hadmits
  next => cases h

/-- A view does not answer a write that comes too late. -/
theorem write_late (hlate : v.admits generation = false)
    (build : Snapshot → Except Error Instruction) :
    v.write limits generation build = (none, v) := by
  unfold write writeWithin
  rw [hlate]
  rfl

/-- Nothing is written to a view that does not write. -/
theorem write_idle (hadmits : v.admits generation = true)
    (hmode : v.mode ≠ .writing)
    (build : Snapshot → Except Error Instruction) :
    v.write limits generation build
      = (some (.error (.illegalState .notWriting)), v) := by
  unfold write writeWithin
  rw [if_pos hadmits, if_pos hmode]

/-- A write of what cannot be built fails for that reason. -/
theorem write_unbuilt (hadmits : v.admits generation = true)
    (hmode : v.mode = .writing)
    {build : Snapshot → Except Error Instruction} {err : Error}
    (hbuild : build v.snapshot = .error err) :
    v.write limits generation build = (some (.error err), v) := by
  have hrecord : (record .ample limits build).run v = .error err v := by
    unfold record
    rw [EStateM.run_bind, EStateM.run_get]
    dsimp only
    rw [hbuild]
    rfl
  unfold write writeWithin
  rw [if_pos hadmits, if_neg (not_not.2 hmode), hrecord]

end View

namespace Anchor

variable {a : Anchor} {e : Engine} {t : Transaction} {stale : Error}
  {α : Type} {f : Snapshot → Except Error α}
  {build : Snapshot → Except Error Instruction}

/-- Reading through an anchor whose transaction is gone fails. -/
theorem run_read_none (hnone : e.transaction? a.transaction = none) :
    (a.read stale f).run e = .error stale e := by
  unfold read
  rw [EStateM.run_bind, EStateM.run_get]
  dsimp only
  rw [hnone]
  rfl

/-- Reading through an anchor asks the view of its transaction. -/
theorem run_read (ht : e.transaction? a.transaction = some t) :
    (a.read stale f).run e
      = if t.view.admits a.generation then
          (liftM (f t.view.snapshot) : Edit Engine α).run e
        else (refuse stale : Edit Engine α).run e := by
  unfold read
  rw [EStateM.run_bind, EStateM.run_get]
  dsimp only
  rw [ht]
  dsimp only
  unfold View.read
  by_cases hadmits : t.view.admits a.generation = true
  · rw [if_pos hadmits, if_pos hadmits]
  · rw [if_neg hadmits, if_neg hadmits]

/-- Writing through an anchor whose transaction is gone fails. -/
theorem run_write_none (hnone : e.transaction? a.transaction = none) :
    (a.write stale build).run e = .error stale e := by
  unfold write
  rw [EStateM.run_bind, EStateM.run_get]
  dsimp only
  rw [hnone]
  rfl

/-- Writing through an anchor comes out as the write of its transaction's
view. -/
theorem run_write (ht : e.transaction? a.transaction = some t)
    {result : Option (Except Error Instruction)} {view : View}
    (hwrite : t.view.write e.limits a.generation build = (result, view)) :
    (a.write stale build).run e
      = (result.elim (refuse stale) liftM : Edit Engine Instruction).run
        (e.withTransaction a.transaction { t with view }) := by
  unfold write
  rw [EStateM.run_bind, EStateM.run_get]
  dsimp only
  rw [ht]
  dsimp only
  rw [hwrite]
  cases result <;> rfl

/-- A write that the view can record is made. -/
theorem gives_write (ht : e.transaction? a.transaction = some t)
    (hadmits : t.view.admits a.generation = true)
    (hmode : t.view.mode = .writing) {i : Instruction} {view : View}
    (hrecord : Edit.Gives (View.record .ample e.limits build) t.view i view) :
    Edit.Gives (a.write stale build) e i
      (e.withTransaction a.transaction { t with view }) := by
  have hwrite : t.view.write e.limits a.generation build
      = (some (.ok i), view) := by
    unfold View.write View.writeWithin
    rw [if_pos hadmits, if_neg (not_not.2 hmode), hrecord]
  unfold Edit.Gives
  rw [run_write ht hwrite]
  rfl

/-- What is refused fails with the error for it. -/
theorem refused_refuse (e : Engine) :
    Refused (· = stale) (refuse stale : Edit Engine α) e :=
  ⟨stale, _, rfl, rfl, Same.refl _⟩

end Anchor

-- ============================================================ handles

/-- A handle of either kind. -/
inductive Handle where
  | table (h : TableHandle)
  | object (h : ObjectHandle)

namespace Handle

def anchor : Handle → Anchor
  | table h => h.anchor
  | object h => h.anchor

def isValid : Handle → Engine → Bool
  | table h => h.isValid
  | object h => h.isValid

/-- Why a use of the handle is refused that does not reach anything. -/
def stale : Handle → Error
  | table _ => .tableDetached
  | object _ => .objectDetached

/-- What the caller is told of it. -/
def staleText : Handle → String
  | table _ => "Table is no longer valid to operate on."
  | object _ => "Object is no longer valid to operate on. " ++
      "Was it deleted by another thread?"

/-- Whether a snapshot has the table of the handle, and the object in it. -/
def LivesIn : Handle → Snapshot → Prop
  | table h, s => ∃ t, s.table? h.key = some t
  | object h, s => ∃ t, s.table? h.table = some t ∧ t.contains h.key = true

/-- The table in a snapshot that the handle is for. -/
def resolve : Handle → Snapshot → Except Error Table
  | table h => h.resolve
  | object h => h.resolve

/-- Reads from that table. -/
def read {α : Type} (h : Handle) (f : Table → Except Error α) :
    Edit Engine α :=
  h.anchor.read h.stale fun s => do f (← h.resolve s)

/-- Writes the instruction that the table calls for. -/
def write (h : Handle) (build : Table → Except Error Instruction) :
    Edit Engine Instruction :=
  h.anchor.write h.stale fun s => do build (← h.resolve s)

variable {h : Handle} {e : Engine} {s : Snapshot} {α : Type}

/-- A handle that stands for nothing speaks of a wrong state. -/
theorem kind_stale (h : Handle) : h.stale.kind = .illegalState := by
  cases h <;> rfl

/-- The error of a handle that stands for nothing says what it stood for. -/
theorem message_stale (h : Handle) : h.stale.message = h.staleText := by
  cases h <;> rfl

/-- A handle of a table is resolved where its table is. -/
theorem resolve_table_eq_ok {h : TableHandle} {t : Table} :
    (table h).resolve s = .ok t ↔ s.table? h.key = some t := by
  show TableHandle.resolve h s = _ ↔ _
  unfold TableHandle.resolve
  cases s.table? h.key <;> simp

/-- A handle of an object is resolved where its row is. -/
theorem resolve_object_eq_ok {h : ObjectHandle} {t : Table} :
    (object h).resolve s = .ok t
      ↔ s.table? h.table = some t ∧ t.contains h.key = true := by
  show ObjectHandle.resolve h s = _ ↔ _
  unfold ObjectHandle.resolve
  cases s.table? h.table with
  | none => simp
  | some u => by_cases hcontains : u.contains h.key = true <;> grind

/-- A handle is resolved in a snapshot where it lives. -/
theorem resolve_of_livesIn (hlives : h.LivesIn s) :
    ∃ t, h.resolve s = .ok t := by
  cases h with
  | table h =>
      obtain ⟨t, ht⟩ := hlives
      exact ⟨t, resolve_table_eq_ok.2 ht⟩
  | object h =>
      obtain ⟨t, ht, hcontains⟩ := hlives
      exact ⟨t, resolve_object_eq_ok.2 ⟨ht, hcontains⟩⟩

/-- A handle is not resolved where it does not live. -/
theorem resolve_of_not_livesIn (hlost : ¬ h.LivesIn s) :
    h.resolve s = .error h.stale := by
  cases h with
  | table h =>
      show TableHandle.resolve h s = _
      unfold TableHandle.resolve
      cases ht : s.table? h.key with
      | none => rfl
      | some t => exact absurd ⟨t, ht⟩ hlost
  | object h =>
      show ObjectHandle.resolve h s = _
      unfold ObjectHandle.resolve
      cases ht : s.table? h.table with
      | none => rfl
      | some t => exact if_neg fun hcontains => hlost ⟨t, ht, hcontains⟩

/-- A handle is valid if its transaction is there and has stayed at the
generation of the handle, and what it is for is still in the snapshot. -/
theorem isValid_iff :
    h.isValid e = true ↔ ∃ t, e.transaction? h.anchor.transaction = some t
      ∧ t.view.admits h.anchor.generation = true
      ∧ h.LivesIn t.view.snapshot := by
  have hcheck (a : Anchor) (test : Snapshot → Bool) :
      a.check test e = true ↔ ∃ t, e.transaction? a.transaction = some t
        ∧ t.view.admits a.generation = true
        ∧ test t.view.snapshot = true := by
    unfold Anchor.check
    cases e.transaction? a.transaction with
    | none => simp
    | some t => simp
  cases h with
  | table h =>
      have htable := hcheck h.anchor fun s => (s.table? h.key).isSome
      refine htable.trans (exists_congr fun t => ?_)
      exact and_congr_right' (and_congr_right' Option.isSome_iff_exists)
  | object h =>
      have hobject := hcheck h.anchor fun s => s.hasObject h.table h.key
      refine hobject.trans (exists_congr fun t => ?_)
      exact and_congr_right' (and_congr_right' (Option.any_eq_true _ _))

/-- How a handle can fail to reach anything. -/
inductive Unreached (h : Handle) (e : Engine) : Prop
  | gone (hnone : e.transaction? h.anchor.transaction = none)
  | late {t : Transaction}
      (ht : e.transaction? h.anchor.transaction = some t)
      (hadmits : t.view.admits h.anchor.generation = false)
  | lost {t : Transaction}
      (ht : e.transaction? h.anchor.transaction = some t)
      (hadmits : t.view.admits h.anchor.generation = true)
      (hresolve : h.resolve t.view.snapshot = .error h.stale)

/-- A handle that is not valid does not reach what it stood for. -/
theorem unreached_of_invalid (hinvalid : h.isValid e = false) :
    h.Unreached e := by
  cases ht : e.transaction? h.anchor.transaction with
  | none => exact .gone ht
  | some t =>
  cases hadmits : t.view.admits h.anchor.generation with
  | false => exact .late ht hadmits
  | true =>
      refine .lost ht hadmits (resolve_of_not_livesIn fun hlives => ?_)
      have hvalid := isValid_iff.2 ⟨t, ht, hadmits, hlives⟩
      rw [hinvalid] at hvalid
      cases hvalid

-- ======================================================== one table

variable {f : Table → Except Error α}
  {build : Table → Except Error Instruction}

/-- A read that reaches nothing is refused. -/
theorem refused_read (hinvalid : h.isValid e = false) :
    Refused (· = h.stale) (h.read f) e := by
  unfold read
  cases unreached_of_invalid hinvalid with
  | gone hnone =>
      exact ⟨h.stale, e, Anchor.run_read_none hnone, rfl, .refl e⟩
  | late ht hadmits =>
      have hrefuse : Refused (· = h.stale)
          (Anchor.refuse h.stale : Edit Engine α) e :=
        Anchor.refused_refuse e
      obtain ⟨err, e', hrun, hrefused⟩ := hrefuse
      refine ⟨err, e', ?_, hrefused⟩
      rw [Anchor.run_read ht, hadmits]
      exact hrun
  | lost ht hadmits hresolve =>
      refine ⟨h.stale, e, ?_, rfl, .refl e⟩
      rw [Anchor.run_read ht, if_pos hadmits, hresolve]
      rfl

/-- A read that reaches its table does what the table says. -/
theorem run_read {t : Transaction} {table : Table}
    (ht : e.transaction? h.anchor.transaction = some t)
    (hadmits : t.view.admits h.anchor.generation = true)
    (hresolve : h.resolve t.view.snapshot = .ok table) :
    (h.read f).run e = (liftM (f table) : Edit Engine α).run e := by
  unfold read
  rw [Anchor.run_read ht, if_pos hadmits, hresolve]
  rfl

/-- What a read gives is what the table gave, in the snapshot that the
transaction of the handle is shown. -/
theorem gives_read {a : α} {e' : Engine}
    (hgives : Edit.Gives (h.read f) e a e') :
    ∃ t table, e.transaction? h.anchor.transaction = some t
      ∧ h.resolve t.view.snapshot = .ok table ∧ f table = .ok a := by
  unfold Edit.Gives at hgives
  cases hvalid : h.isValid e with
  | false =>
      obtain ⟨err, e'', hrun, -⟩ := refused_read (f := f) hvalid
      rw [hrun] at hgives
      cases hgives
  | true =>
      obtain ⟨t, ht, hadmits, hlives⟩ := isValid_iff.1 hvalid
      obtain ⟨table, hresolve⟩ := resolve_of_livesIn hlives
      rw [run_read ht hadmits hresolve] at hgives
      exact ⟨t, table, ht, hresolve, (Edit.gives_lift.1 hgives).1⟩

/-- Reading through a valid handle is answered, if what is read is read
mildly. -/
theorem answered_read (hvalid : h.isValid e = true)
    (hf : ∀ table, Check.Mild (f table)) : Answered (h.read f) e := by
  obtain ⟨t, ht, hadmits, hlives⟩ := isValid_iff.1 hvalid
  obtain ⟨table, hresolve⟩ := resolve_of_livesIn hlives
  have hrun : (h.read f).run e = (liftM (f table) : Edit Engine α).run e :=
    run_read ht hadmits hresolve
  cases Answered.lift (e := e) (hf table) with
  | ok hok => exact .ok (hrun.trans hok)
  | failed herror hkind => exact .failed (hrun.trans herror) hkind

/-- A write that changes no view fails, and puts the view back. -/
theorem run_write_failed {t : Transaction}
    (ht : e.transaction? h.anchor.transaction = some t)
    {result : Option (Except Error Instruction)} {view : View}
    (hwrite : t.view.write e.limits h.anchor.generation
      (fun s => do build (← h.resolve s)) = (result, view))
    (hno : ∀ i, result ≠ some (.ok i)) :
    ∃ err e', (h.write build).run e = .error err e' ∧ e.Untouched e' := by
  have hview : view = t.view := by
    rcases View.write_cases hwrite with ⟨i, hresult, -⟩ | ⟨heq, -⟩
    · exact absurd hresult (hno i)
    · exact heq
  subst hview
  have hrun : (h.write build).run e = _ := Anchor.run_write ht hwrite
  rcases result with _ | ⟨err | i⟩
  · exact ⟨h.stale, _, hrun, untouched_kept ht _⟩
  · exact ⟨err, _, hrun, untouched_kept ht _⟩
  · exact absurd rfl (hno i)

/-- A write that succeeds was made to the view of the transaction. -/
theorem gives_write {i : Instruction} {e' : Engine}
    (hgives : Edit.Gives (h.write build) e i e') :
    ∃ t view, e.transaction? h.anchor.transaction = some t
      ∧ t.view.write e.limits h.anchor.generation
        (fun s => do build (← h.resolve s)) = (some (.ok i), view)
      ∧ e' = e.withTransaction h.anchor.transaction { t with view } := by
  unfold Edit.Gives at hgives
  cases ht : e.transaction? h.anchor.transaction with
  | none =>
      have hrun : (h.write build).run e = _ := Anchor.run_write_none ht
      rw [hgives] at hrun
      cases hrun
  | some t =>
  cases hwrite : t.view.write e.limits h.anchor.generation
      (fun s => do build (← h.resolve s)) with
  | mk result view =>
  by_cases hok : ∃ j, result = some (.ok j)
  · obtain ⟨j, rfl⟩ := hok
    have hrun : (h.write build).run e = _ := Anchor.run_write ht hwrite
    rw [hgives] at hrun
    cases hrun
    exact ⟨t, view, rfl, hwrite, rfl⟩
  · obtain ⟨err, e'', hrun, -⟩ :=
      run_write_failed ht hwrite fun j hj => hok ⟨j, hj⟩
    rw [hgives] at hrun
    cases hrun

/-- Nothing is built for a table that the handle does not reach. -/
theorem build_of_unresolved (hresolve : h.resolve s = .error h.stale) :
    (do build (← h.resolve s) : Except Error Instruction)
      = .error h.stale := by
  rw [hresolve]
  rfl

/-- A write that reaches nothing is refused. -/
theorem refused_write (hinvalid : h.isValid e = false) :
    Refused (·.kind = .illegalState) (h.write build) e := by
  cases unreached_of_invalid hinvalid with
  | gone hnone =>
      exact ⟨h.stale, e, Anchor.run_write_none hnone, h.kind_stale, .refl e⟩
  | @late t ht hadmits =>
      have hrun : (h.write build).run e = _ :=
        Anchor.run_write ht (View.write_late hadmits _)
      exact ⟨h.stale, _, hrun, h.kind_stale, untouched_kept ht _⟩
  | @lost t ht hadmits hresolve =>
      by_cases hmode : t.view.mode = .writing
      · have hrun : (h.write build).run e = _ :=
          Anchor.run_write ht
            (View.write_unbuilt hadmits hmode (build_of_unresolved hresolve))
        exact ⟨_, _, hrun, h.kind_stale, untouched_kept ht _⟩
      · have hrun : (h.write build).run e = _ :=
          Anchor.run_write ht (View.write_idle hadmits hmode _)
        exact ⟨_, _, hrun, rfl, untouched_kept ht _⟩

/-- Whether the transaction of a handle, if there is one, does not write. -/
def Idle (h : Handle) (e : Engine) : Prop :=
  ∀ t, e.transaction? h.anchor.transaction = some t → t.view.mode ≠ .writing

/-- A handle that cannot write still cannot when nothing was touched. -/
theorem Idle.untouched {e' : Engine} (hidle : h.Idle e)
    (hleft : e.Untouched e') : h.Idle e' := by
  intro t ht
  exact hidle t ((hleft.transaction?_eq _).symm.trans ht)

/-- Nothing is written where the transaction does not write. -/
theorem run_write_idle (hidle : h.Idle e) :
    ∃ err e', (h.write build).run e = .error err e' ∧ e.Untouched e' := by
  cases ht : e.transaction? h.anchor.transaction with
  | none => exact ⟨h.stale, e, Anchor.run_write_none ht, .refl e⟩
  | some t =>
  cases hwrite : t.view.write e.limits h.anchor.generation
      (fun s => do build (← h.resolve s)) with
  | mk result view =>
      have hno (i : Instruction) : result ≠ some (.ok i) := by
        rintro rfl
        rcases View.write_cases hwrite with ⟨j, -, hwrote⟩ | ⟨-, hno⟩
        · exact hidle t ht hwrote.writing
        · exact hno i rfl
      exact run_write_failed ht hwrite hno

-- ======================================================== operations

/-- What every operation does that only reads. -/
structure IsRead (h : Handle) (x : Edit Engine α) : Prop where
  refused : ∀ e, h.isValid e = false → Refused (· = h.stale) x e
  answered : ∀ e, h.isValid e = true → Answered x e

/-- What every operation does that writes. -/
structure IsWrite (h : Handle) (x : Edit Engine α) : Prop where
  refused : ∀ e, h.isValid e = false → Refused (·.kind = .illegalState) x e
  spares : ∀ e, h.Idle e → Edit.Preserves e.Untouched x

variable {β : Type} {x : Edit Engine α}

/-- A mild read through a handle counts as one read. -/
theorem isRead_read (hf : ∀ table, Check.Mild (f table)) :
    h.IsRead (h.read f) :=
  ⟨fun _ => refused_read, fun _ hvalid => answered_read hvalid hf⟩

/-- A read with something answered behind it counts as one read. -/
theorem IsRead.bind (hx : h.IsRead x) {g : α → Edit Engine β}
    (hg : ∀ a e, Answered (g a) e) : h.IsRead (x >>= g) :=
  ⟨fun e hinvalid => (hx.refused e hinvalid).bind, fun e hvalid =>
    (hx.answered e hvalid).bind fun a => hg a e⟩

theorem IsRead.map (hx : h.IsRead x) (g : α → β) : h.IsRead (g <$> x) := by
  rw [← bind_pure_comp]
  exact hx.bind fun a e => .pure (g a)

/-- A read of something that every table has. -/
theorem isRead_total (h : Handle) (g : Table → β) :
    h.IsRead (h.read fun t => .ok (g t)) :=
  isRead_read fun t => .pure (g t)

/-- The declaration of a column is read once. -/
theorem isRead_columnSpec (h : TableHandle) (col : ColumnKey) :
    (table h).IsRead (h.columnSpec col) :=
  isRead_read (h := .table h) fun t =>
    (t.mild_requireColumn col).bind fun c => .pure c.spec

theorem isRead_object? (h : TableHandle) (key : ObjectKey) :
    (table h).IsRead (h.object? key) := by
  refine IsRead.bind (isRead_total (.table h) (·.contains key)) fun b e => ?_
  cases b <;> exact .pure _

theorem isRead_get (h : ObjectHandle) (col : ColumnKey) :
    (object h).IsRead (h.get col) :=
  isRead_read (h := .object h) (·.mild_valueOf h.key col)

theorem isRead_list (h : ObjectHandle) (col : ColumnKey) :
    (object h).IsRead (h.list col) :=
  isRead_read (h := .object h) (·.mild_listOf h.key col)

/-- Reading leaves every engine as it was. -/
theorem IsRead.spares (hx : h.IsRead x) (e : Engine) :
    Edit.Preserves e.Untouched x := by
  intro s hs
  cases hvalid : h.isValid s with
  | false =>
      obtain ⟨err, s', hrun, -, hleft⟩ := hx.refused s hvalid
      rw [hrun]
      exact hs.trans hleft
  | true =>
      cases hx.answered s hvalid with
      | ok hrun =>
          rw [hrun]
          exact hs
      | failed hrun _ =>
          rw [hrun]
          exact hs

/-- A write through a handle counts as one write. -/
theorem isWrite_write : h.IsWrite (h.write build) := by
  refine ⟨fun e => refused_write, fun e hidle s hs => ?_⟩
  have hspared : ∃ err s', (h.write build).run s = .error err s'
      ∧ s.Untouched s' := run_write_idle (hidle.untouched hs)
  obtain ⟨err, s', hrun, hleft⟩ := hspared
  rw [hrun]
  exact hs.trans hleft

/-- A write with something behind it that touches nothing counts as one write.
-/
theorem IsWrite.bind (hx : h.IsWrite x) {g : α → Edit Engine β}
    (hg : ∀ e, h.Idle e → ∀ a, Edit.Preserves e.Untouched (g a)) :
    h.IsWrite (x >>= g) :=
  ⟨fun e hinvalid => (hx.refused e hinvalid).bind, fun e hidle =>
    Edit.Ends.bind (hx.spares e hidle) (hg e hidle)⟩

/-- The operations that read through a handle. -/
inductive Reads : Handle → {α : Type} → Edit Engine α → Prop
  | name (h : TableHandle) : Reads (.table h) h.name
  | size (h : TableHandle) : Reads (.table h) h.size
  | isEmpty (h : TableHandle) : Reads (.table h) h.isEmpty
  | objectKeys (h : TableHandle) : Reads (.table h) h.objectKeys
  | columnKey? (h : TableHandle) (name : String) :
      Reads (.table h) (h.columnKey? name)
  | columnKeys (h : TableHandle) : Reads (.table h) h.columnKeys
  | columnSpec (h : TableHandle) (col : ColumnKey) :
      Reads (.table h) (h.columnSpec col)
  | linkTarget? (h : TableHandle) (col : ColumnKey) :
      Reads (.table h) (h.linkTarget? col)
  | checkType (h : TableHandle) (col : ColumnKey) (expected : ColumnType) :
      Reads (.table h) (h.checkType col expected)
  | checkNullable (h : TableHandle) (col : ColumnKey) :
      Reads (.table h) (h.checkNullable col)
  | contains (h : TableHandle) (key : ObjectKey) :
      Reads (.table h) (h.contains key)
  | object? (h : TableHandle) (key : ObjectKey) :
      Reads (.table h) (h.object? key)
  | object (h : TableHandle) (key : ObjectKey) :
      Reads (.table h) (h.object key)
  | findFirst (h : TableHandle) (col : ColumnKey) (v : Value) :
      Reads (.table h) (h.findFirst col v)
  | get (h : ObjectHandle) (col : ColumnKey) : Reads (.object h) (h.get col)
  | getTyped (h : ObjectHandle) (col : ColumnKey) (type : ColumnType) :
      Reads (.object h) (h.getTyped col type)
  | getLink? (h : ObjectHandle) (col : ColumnKey) :
      Reads (.object h) (h.getLink? col)
  | isNull (h : ObjectHandle) (col : ColumnKey) :
      Reads (.object h) (h.isNull col)
  | list (h : ObjectHandle) (col : ColumnKey) :
      Reads (.object h) (h.list col)
  | listLength (h : ObjectHandle) (col : ColumnKey) :
      Reads (.object h) (h.listLength col)
  | listGet (h : ObjectHandle) (col : ColumnKey) (index : Nat) :
      Reads (.object h) (h.listGet col index)

/-- The operations that write through a handle. -/
inductive Writes : Handle → {α : Type} → Edit Engine α → Prop
  | addColumn (h : TableHandle) (spec : ColumnSpec) :
      Writes (.table h) (h.addColumn spec)
  | removeColumn (h : TableHandle) (col : ColumnKey) :
      Writes (.table h) (h.removeColumn col)
  | createObject (h : TableHandle) : Writes (.table h) h.createObject
  | removeObject (h : TableHandle) (key : ObjectKey) :
      Writes (.table h) (h.removeObject key)
  | clear (h : TableHandle) : Writes (.table h) h.clear
  | set (h : ObjectHandle) (col : ColumnKey) (v : Value) :
      Writes (.object h) (h.set col v)
  | setNull (h : ObjectHandle) (col : ColumnKey) :
      Writes (.object h) (h.setNull col)
  | listInsert (h : ObjectHandle) (col : ColumnKey) (index : UInt64)
      (v : Value) : Writes (.object h) (h.listInsert col index v)
  | listPush (h : ObjectHandle) (col : ColumnKey) (v : Value) :
      Writes (.object h) (h.listPush col v)
  | listSet (h : ObjectHandle) (col : ColumnKey) (index : UInt64)
      (v : Value) : Writes (.object h) (h.listSet col index v)
  | listRemove (h : ObjectHandle) (col : ColumnKey) (index : UInt64) :
      Writes (.object h) (h.listRemove col index)
  | listClear (h : ObjectHandle) (col : ColumnKey) :
      Writes (.object h) (h.listClear col)
  | remove (h : ObjectHandle) : Writes (.object h) h.remove

/-- Every read of the interface counts as one. -/
theorem Reads.isRead (hx : h.Reads x) : h.IsRead x := by
  cases hx with
  | name h => exact isRead_total (.table h) Table.name
  | size h => exact isRead_total (.table h) Table.size
  | isEmpty h => exact isRead_total (.table h) Table.isEmpty
  | objectKeys h => exact isRead_total (.table h) Table.objectKeys
  | columnKey? h name => exact isRead_total (.table h) (·.columnKey? name)
  | columnKeys h =>
      exact isRead_total (.table h) (·.columns.map (·.key))
  | columnSpec h col => exact isRead_columnSpec h col
  | linkTarget? h col =>
      exact (isRead_columnSpec h col).bind fun spec e => .pure _
  | checkType h col expected =>
      exact isRead_read (h := .table h) (·.mild_checkType col expected)
  | checkNullable h col =>
      exact isRead_read (h := .table h) (·.mild_checkNullable col)
  | contains h key => exact isRead_total (.table h) (·.contains key)
  | object? h key => exact isRead_object? h key
  | object h key =>
      refine (isRead_object? h key).bind fun o e => ?_
      cases o with
      | none => exact .throw nofun
      | some o => exact .pure o
  | findFirst h col v =>
      exact isRead_read (h := .table h) (·.mild_findFirst col v)
  | get h col => exact isRead_get h col
  | getTyped h col type =>
      exact isRead_read (h := .object h) fun t =>
        (t.mild_checkType col type).bind fun _ => t.mild_valueOf h.key col
  | getLink? h col =>
      refine isRead_read (h := .object h) fun t => ?_
      refine (t.mild_checkType col .link).bind fun _ => ?_
      refine (t.mild_requireColumn col).bind fun c => ?_
      refine (t.mild_valueOf h.key col).bind fun v => ?_
      split <;> exact .pure _
  | isNull h col => exact (isRead_get h col).map Value.isNull
  | list h col => exact isRead_list h col
  | listLength h col => exact (isRead_list h col).map List.length
  | listGet h col index =>
      refine isRead_read (h := .object h) fun t => ?_
      refine (t.mild_listOf h.key col).bind fun vs => ?_
      split
      · exact .pure _
      · exact .throw nofun

/-- A write of whose result nothing more is made than a value or an
error. -/
theorem isWrite_bind (g : Instruction → Edit Engine β)
    (hg : ∀ i, (∃ b, g i = pure b) ∨ ∃ err, g i = throw err) :
    h.IsWrite (h.write build >>= g) := by
  refine isWrite_write.bind fun e hidle i => ?_
  rcases hg i with ⟨b, heq⟩ | ⟨err, heq⟩
  · rw [heq]
    exact Edit.Ends.pure fun _ hs => hs
  · rw [heq]
    exact Edit.Ends.throw fun _ hs => hs

/-- A write whose instruction is not looked at counts as one. -/
theorem isWrite_done : h.IsWrite (do let _ ← h.write build) :=
  isWrite_bind _ fun _ => .inl ⟨_, rfl⟩

/-- Every write of the interface counts as one. -/
theorem Writes.isWrite (hx : h.Writes x) : h.IsWrite x := by
  have hremoveObject (h : TableHandle) (key : ObjectKey) :
      (Handle.table h).IsWrite (h.removeObject key) := isWrite_done
  cases hx with
  | addColumn h spec =>
      refine isWrite_bind (h := .table h) _ fun i => ?_
      split
      · exact .inl ⟨_, rfl⟩
      · exact .inr ⟨_, rfl⟩
  | removeColumn h col => exact isWrite_done (h := .table h)
  | createObject h =>
      refine isWrite_bind (h := .table h) _ fun i => ?_
      split
      · exact .inl ⟨_, rfl⟩
      · exact .inr ⟨_, rfl⟩
  | removeObject h key => exact hremoveObject h key
  | clear h =>
      have hkeys := (Reads.objectKeys h).isRead
      refine ⟨fun e hinvalid => ?_, fun e hidle => ?_⟩
      · refine ((hkeys.refused e hinvalid).bind).mono fun err herr => ?_
        exact herr ▸ kind_stale _
      · refine Edit.Ends.bind (hkeys.spares e) fun keys => ?_
        induction keys with
        | nil => exact .pure fun _ hs => hs
        | cons key keys ih =>
            have hone := (hremoveObject h key).spares e hidle
            exact Edit.Ends.bind hone fun _ => ih
  | set h | setNull h | listInsert h | listPush h | listSet h | listRemove h
  | listClear h | remove h => exact isWrite_done (h := .object h)

end Handle

end Colonnade
