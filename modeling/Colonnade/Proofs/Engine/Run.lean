/-
Everything that can be asked of an engine, and runs of it. A `Call` is one
operation with its arguments, on a transaction or through a handle; a run is
any list of calls, those that fail included, and goes on from whatever state
each of them leaves. So a run covers every order of steps of one reader and
writer after another, and every use of a handle that has gone stale.

One call takes a key from a counter that may have wrapped, and this is where
`Call.Fits` asks that it has not; of every other call it asks nothing.

The main result is that recovery is exact. At each point of a run, the bytes
of the log are enough to open the database again, and what is opened is the
current snapshot itself: not an equivalent one but the same value, row slots
and counters included.
-/
import Colonnade.Handle.Object
import Colonnade.Proofs.Engine.Steps

namespace Colonnade

open Engine

-- ======================================================= through handles

namespace TableHandle

variable {α : Type}

/-- Reading through a table keeps an engine recoverable. -/
theorem preserves_read (h : TableHandle) (f : Table → Except Error α) :
    Edit.Preserves Recoverable (h.read f) :=
  h.anchor.preserves_read _ _

/-- A write that makes no objects. -/
theorem preserves_write (h : TableHandle)
    {build : Table → Except Error Instruction}
    (hbuild : ∀ t table key, build t ≠ .ok (.createObject table key)) :
    Edit.Preserves Recoverable (h.write build) := by
  refine h.anchor.preserves_write _ fun s table key hbuilt => ?_
  obtain ⟨t, -, hbuilt⟩ := Check.bind_eq_ok.1 hbuilt
  exact (hbuild t table key hbuilt).elim

theorem preserves_removeObject (h : TableHandle) (key : ObjectKey) :
    Edit.Preserves Recoverable (h.removeObject key) :=
  Edit.Ends.bind (h.preserves_write fun _ _ _ => nofun) fun _ =>
    .pure fun _ h => h

/-- The counter of a table has not wrapped in a snapshot. -/
def CounterFits (h : TableHandle) (s : Snapshot) : Prop :=
  ∀ t, s.table? h.key = some t → 0 ≤ t.nextObject.raw

/-- The same of whatever transaction there is, as a test. -/
theorem counterFits_of_all (h : TableHandle) {o : Option Transaction}
    (hall : o.all (fun t => (t.view.snapshot.table? h.key).all
      fun u => 0 ≤ u.nextObject.raw) = true) {t : Transaction}
    (ht : o = some t) : h.CounterFits t.view.snapshot := by
  intro u hu
  rw [ht, Option.all_some, hu, Option.all_some] at hall
  exact of_decide_eq_true hall

/-- A new object takes its key from the counter. -/
theorem createsNonneg (h : TableHandle) {s : Snapshot}
    (hfits : h.CounterFits s) :
    CreatesNonneg
      (fun s => do
        let t ← h.resolve s
        return .createObject h.key t.nextObject) s := by
  intro table key hbuilt
  obtain ⟨t, ht, hbuilt⟩ := Check.bind_eq_ok.1 hbuilt
  cases hbuilt
  refine hfits t ?_
  unfold resolve at ht
  split at ht
  next hfound => exact Except.ok.inj ht ▸ hfound
  next => cases ht

end TableHandle

namespace ObjectHandle

variable {α : Type}

/-- Reading through an object keeps an engine recoverable. -/
theorem preserves_read (h : ObjectHandle) (f : Table → Except Error α) :
    Edit.Preserves Recoverable (h.read f) :=
  h.anchor.preserves_read _ _

/-- Writing through an object keeps an engine recoverable, as it creates none.
-/
theorem preserves_write (h : ObjectHandle)
    {build : Table → Except Error Instruction}
    (hbuild : ∀ t table key, build t ≠ .ok (.createObject table key)) :
    Edit.Preserves Recoverable (h.write build) := by
  refine Edit.Ends.bind (h.anchor.preserves_write _ ?_) fun _ =>
    .pure fun _ h => h
  intro s table key hbuilt
  obtain ⟨t, -, hbuilt⟩ := Check.bind_eq_ok.1 hbuilt
  exact (hbuild t table key hbuilt).elim

end ObjectHandle

-- ================================================================= calls

/-- One operation on an engine, with its arguments. -/
inductive Call where
  | beginRead
  | beginWrite
  | commit (id : TransactionId)
  | commitAndRead (id : TransactionId)
  | rollback (id : TransactionId)
  | drop (id : TransactionId)
  | advance (id : TransactionId)
  | addTable (id : TransactionId) (name : String)
  | getOrAddTable (id : TransactionId) (name : String)
  | removeTable (id : TransactionId) (name : String)
  | addColumn (h : TableHandle) (spec : ColumnSpec)
  | removeColumn (h : TableHandle) (col : ColumnKey)
  | createObject (h : TableHandle)
  | removeObject (h : TableHandle) (key : ObjectKey)
  | clear (h : TableHandle)
  | readTable {α : Type} (h : TableHandle) (f : Table → Except Error α)
  | set (h : ObjectHandle) (col : ColumnKey) (v : Value)
  | setNull (h : ObjectHandle) (col : ColumnKey)
  | listInsert (h : ObjectHandle) (col : ColumnKey) (index : UInt64)
      (v : Value)
  | listPush (h : ObjectHandle) (col : ColumnKey) (v : Value)
  | listSet (h : ObjectHandle) (col : ColumnKey) (index : UInt64) (v : Value)
  | listRemove (h : ObjectHandle) (col : ColumnKey) (index : UInt64)
  | listClear (h : ObjectHandle) (col : ColumnKey)
  | remove (h : ObjectHandle)
  | readObject {α : Type} (h : ObjectHandle) (f : Table → Except Error α)

namespace Call

/-- Carries out a call; what it gives is left to its caller. -/
def run : Call → Edit Engine Unit
  | beginRead => do let _ ← Engine.beginRead
  | beginWrite => do let _ ← Engine.beginWrite?
  | commit id => do let _ ← Engine.commit id
  | commitAndRead id => Engine.commitAndRead id
  | rollback id => Engine.rollback id
  | drop id => Engine.drop id
  | advance id => do let _ ← Engine.advance id
  | addTable id name => do let _ ← Engine.addTable id name
  | getOrAddTable id name => do let _ ← Engine.getOrAddTable id name
  | removeTable id name => Engine.removeTable id name
  | addColumn h spec => do let _ ← h.addColumn spec
  | removeColumn h col => h.removeColumn col
  | createObject h => do let _ ← h.createObject
  | removeObject h key => h.removeObject key
  | clear h => h.clear
  | readTable h f => do let _ ← h.read f
  | set h col v => h.set col v
  | setNull h col => h.setNull col
  | listInsert h col index v => h.listInsert col index v
  | listPush h col v => h.listPush col v
  | listSet h col index v => h.listSet col index v
  | listRemove h col index => h.listRemove col index
  | listClear h col => h.listClear col
  | remove h => h.remove
  | readObject h f => do let _ ← h.read f

/-- The engine after a call, whether it succeeded or failed. -/
def step (e : Engine) (c : Call) : Engine :=
  match c.run.run e with
  | .ok _ e' => e'
  | .error _ e' => e'

/-- Whether the call takes no key from a counter that has wrapped. -/
def Fits (e : Engine) : Call → Prop
  | createObject h => ∀ t, e.transaction? h.anchor.transaction = some t →
      h.CounterFits t.view.snapshot
  | _ => True

end Call

namespace Engine

variable {e : Engine} {id : TransactionId}

-- ================================================= tables of an engine

theorem preserves_addTable (name : String) :
    Edit.Preserves Recoverable (addTable id name) := by
  refine Edit.Ends.get_bind fun e he => ?_
  refine Edit.Ends.lift_bind (fun t ht => ?_) fun s hs => hs ▸ he
  have hwrite : Edit.Ends (· = e)
      (writeView id fun s => return .addTable s.nextTable name)
      (fun _ => Recoverable) Recoverable := by
    intro s hs
    exact writeView_ends _ s ⟨hs ▸ he, fun _ _ _ _ => nofun⟩
  refine hwrite.bind fun i => ?_
  split
  next =>
    refine Edit.Ends.get_bind fun s hs => ?_
    exact Edit.Ends.lift_bind (fun a ha => .pure fun _ h => h ▸ hs)
      fun _ h => h ▸ hs
  next => exact .throw fun _ h => h

theorem preserves_getOrAddTable (name : String) :
    Edit.Preserves Recoverable (getOrAddTable id name) := by
  refine Edit.Ends.get_bind fun e he => ?_
  refine Edit.Ends.lift_bind (fun found hfound => ?_) fun s hs => hs ▸ he
  split
  next => exact .pure fun s hs => hs ▸ he
  next => exact (preserves_addTable name).of_eq he

theorem preserves_removeTable (name : String) :
    Edit.Preserves Recoverable (removeTable id name) := by
  refine Edit.Ends.get_bind fun e he => ?_
  refine Edit.Ends.lift_bind (fun t ht => ?_) fun s hs => hs ▸ he
  refine Edit.Ends.get_bind fun u hu => ?_
  subst hu
  refine Edit.Ends.lift_bind (fun h hh => ?_) fun s hs => hs ▸ he
  refine Edit.Ends.bind (fun s hs => ?_) fun _ => .pure fun _ h => h
  exact writeView_ends _ s ⟨hs ▸ he, fun _ _ _ _ => nofun⟩

end Engine

namespace TableHandle

/-- A new object needs a counter that has not wrapped. -/
theorem createObject_ends (h : TableHandle) :
    Edit.Ends
      (fun e => e.Recoverable ∧ ∀ t,
        e.transaction? h.anchor.transaction = some t →
        h.CounterFits t.view.snapshot)
      h.createObject (fun _ => Recoverable) Recoverable := by
  have hwrite : Edit.Ends
      (fun e => e.Recoverable ∧ ∀ t,
        e.transaction? h.anchor.transaction = some t →
        h.CounterFits t.view.snapshot)
      (h.write fun t => return .createObject h.key t.nextObject)
      (fun _ => Recoverable) Recoverable := by
    intro e he
    exact h.anchor.write_ends _ _ e ⟨he.1, fun t ht =>
      h.createsNonneg (he.2 t ht)⟩
  refine hwrite.bind fun i => ?_
  split
  next => exact .pure fun _ h => h
  next => exact .throw fun _ h => h

theorem preserves_addColumn (h : TableHandle) (spec : ColumnSpec) :
    Edit.Preserves Recoverable (h.addColumn spec) := by
  have hwrite : Edit.Preserves Recoverable
      (h.write fun t => return .addColumn h.key t.nextColumnKey spec) :=
    h.preserves_write fun _ _ _ => nofun
  refine hwrite.bind fun i => ?_
  split
  next => exact .pure fun _ h => h
  next => exact .throw fun _ h => h

theorem preserves_clear (h : TableHandle) :
    Edit.Preserves Recoverable h.clear := by
  refine Edit.Ends.bind (h.preserves_read _) fun keys => ?_
  induction keys with
  | nil => exact .pure fun _ h => h
  | cons key keys ih =>
      exact Edit.Ends.bind (h.preserves_removeObject key) fun _ => ih

end TableHandle

-- ================================================================== runs

namespace Call

/-- Every call keeps the engine recoverable. -/
theorem run_ends (c : Call) :
    Edit.Ends (fun e => e.Recoverable ∧ c.Fits e) c.run
      (fun _ => Recoverable) Recoverable := by
  have hdone {α : Type} {x : Edit Engine α}
      (h : Edit.Preserves Recoverable x) :
      Edit.Preserves Recoverable (do let _ ← x) :=
    Edit.Ends.bind h fun _ => .pure fun _ h => h
  -- only creating an object asks for a key that fits
  have hfree {x : Edit Engine Unit} {P : Engine → Prop}
      (h : Edit.Preserves Recoverable x) :
      Edit.Ends (fun e => e.Recoverable ∧ P e) x (fun _ => Recoverable)
        Recoverable :=
    fun e he => h e he.1
  cases c with
  | beginRead => exact hfree (hdone preserves_beginRead)
  | beginWrite => exact hfree (hdone preserves_beginWrite)
  | commit id => exact hfree (hdone preserves_commit)
  | commitAndRead id => exact hfree preserves_commitAndRead
  | rollback id => exact hfree preserves_rollback
  | drop id => exact hfree preserves_drop
  | advance id => exact hfree (hdone preserves_advance)
  | addTable id name => exact hfree (hdone (preserves_addTable name))
  | getOrAddTable id name =>
      exact hfree (hdone (preserves_getOrAddTable name))
  | removeTable id name => exact hfree (preserves_removeTable name)
  | addColumn h spec => exact hfree (hdone (h.preserves_addColumn spec))
  | removeColumn h col =>
      exact hfree (hdone (h.preserves_write fun _ _ _ => nofun))
  | createObject h =>
      exact h.createObject_ends.bind fun _ => .pure fun _ h => h
  | removeObject h key => exact hfree (h.preserves_removeObject key)
  | clear h => exact hfree h.preserves_clear
  | readTable h f => exact hfree (hdone (h.preserves_read f))
  | setNull h col =>
      refine hfree (h.preserves_write fun t table key hbuilt => ?_)
      obtain ⟨_, -, hbuilt⟩ := Check.bind_eq_ok.1 hbuilt
      cases hbuilt
  | listPush h col v =>
      refine hfree (h.preserves_write fun t table key hbuilt => ?_)
      obtain ⟨_, -, hbuilt⟩ := Check.bind_eq_ok.1 hbuilt
      cases hbuilt
  | readObject h f => exact hfree (hdone (h.preserves_read f))
  | set h | listInsert h | listSet h | listRemove h | listClear h
  | remove h => exact hfree (h.preserves_write fun _ _ _ => nofun)

/-- Every call keeps an engine recoverable, if its keys fit. -/
theorem recoverable_step {e : Engine} {c : Call} (he : e.Recoverable)
    (hc : c.Fits e) : (c.step e).Recoverable := by
  have hends := c.run_ends e ⟨he, hc⟩
  unfold step
  cases hrun : c.run.run e with
  | ok a e' =>
      rw [hrun] at hends
      exact hends
  | error err e' =>
      rw [hrun] at hends
      exact hends

end Call

namespace Engine

/-- The engine after a run of calls. -/
def after (e : Engine) (calls : List Call) : Engine := calls.foldl Call.step e

/-- Whether no call of a run takes a key from a counter that has wrapped. -/
def NoKeyWraps : Engine → List Call → Prop
  | _, [] => True
  | e, c :: cs => c.Fits e ∧ NoKeyWraps (c.step e) cs

/-- Every run of calls keeps an engine recoverable, if no key wraps. -/
theorem Recoverable.after {e : Engine} {calls : List Call}
    (he : e.Recoverable) (hfits : NoKeyWraps e calls) :
    (e.after calls).Recoverable := by
  induction calls generalizing e with
  | nil => exact he
  | cons c cs ih => exact ih (Call.recoverable_step he hfits.1) hfits.2

/-- An engine that was opened starts recoverable. -/
theorem recoverable_of_openOver {store store' : Store} {config : Config}
    {e : Engine} (hexact : store.Exact)
    (hformat : config.formatVersion = Wire.newestFormat)
    (hopen : openOver store config = (.ok e, store')) : e.Recoverable := by
  obtain ⟨s, log, hrecover, rfl, -⟩ := openOver_eq_ok.1 hopen
  have hempty : NoWriter (starting s (some log) config.limits) := by
    intro id t ht
    have hnone : (∅ : Std.TreeMap TransactionId Transaction)[id]? = none :=
      Std.TreeMap.getElem?_emptyc
    exact nomatch hnone.symm.trans ht
  obtain ⟨bytes, hholds, hleads⟩ :=
    HistoryLog.leadsTo_of_recover hexact hrecover
  have hlogged : Logged (starting s (some log) config.limits) :=
    ⟨log, bytes, rfl, hformat ▸ hholds, hleads⟩
  exact Settled.recoverable ⟨hlogged, hempty⟩

/-- The log of a recoverable engine opens to its current snapshot. -/
theorem Recoverable.opens {e : Engine} (he : e.Recoverable)
    (config : Config) :
    ∃ log e', e.log = some log
      ∧ openOver (.memory log.store.bytes) config
        = (.ok e', .memory log.store.bytes)
      ∧ e'.current = e.current := by
  obtain ⟨log, _, hlog, ⟨-, -, rfl⟩, hleads⟩ := he.logged
  obtain ⟨e', hopen, hcurrent⟩ := openOver_of_leadsTo hleads config
  exact ⟨log, e', hlog, hopen, hcurrent⟩

/-- At every point of a run over a log, opening a copy of the log gives the
current snapshot. -/
theorem recovered_eq_current {store store' : Store} {config : Config}
    {e : Engine} (hexact : store.Exact) (hformat : config.formatVersion = 1)
    (hopen : openOver store config = (.ok e, store')) {calls : List Call}
    (hfits : NoKeyWraps e calls) (config' : Config) :
    ∃ log e', (e.after calls).log = some log
      ∧ openOver (.memory log.store.bytes) config'
        = (.ok e', .memory log.store.bytes)
      ∧ e'.current = (e.after calls).current :=
  ((recoverable_of_openOver hexact hformat hopen).after hfits).opens config'

/-- The engine over the empty log. -/
def fresh : Engine :=
  starting .empty (some (.ofStore (.memory []) {})) ({} : Config).limits

/-- A writer adds a table and an object to it, and commits. -/
def firstCommit : List Call :=
  [.beginWrite, .addTable ⟨1⟩ "t", .createObject ⟨⟨⟨1⟩, 0⟩, ⟨0⟩⟩, .commit ⟨1⟩]

/-- An empty store opens as a fresh engine. -/
theorem openOver_nil : openOver (.memory []) {} = (.ok fresh, .memory []) := by
  have hexact : (HistoryLog.ofStore (.memory []) {}).store.Exact := trivial
  have hrecover := HistoryLog.recover_of_leadsTo hexact HistoryLog.leadsTo_nil
  exact openOver_eq_ok.2 ⟨_, _, hrecover, rfl, rfl⟩

theorem noKeyWraps_firstCommit : NoKeyWraps fresh firstCommit :=
  ⟨trivial, trivial, fun _ => TableHandle.counterFits_of_all _ (by
    decide +kernel), trivial, trivial⟩

theorem version_firstCommit : (fresh.after firstCommit).version = ⟨1⟩ := by
  decide +kernel

/-- The first commit is found again. -/
theorem recovered_eq_current_firstCommit :
    ∃ log e', (fresh.after firstCommit).log = some log
      ∧ openOver (.memory log.store.bytes) {}
        = (.ok e', .memory log.store.bytes)
      ∧ e'.current = (fresh.after firstCommit).current
      ∧ e'.version = ⟨1⟩ := by
  have hexact : (Store.memory []).Exact := trivial
  obtain ⟨log, e', hlog, hopen, hcurrent⟩ := recovered_eq_current hexact rfl
    openOver_nil noKeyWraps_firstCommit {}
  refine ⟨log, e', hlog, hopen, hcurrent, ?_⟩
  unfold version
  rw [hcurrent]
  exact version_firstCommit

end Engine

end Colonnade
