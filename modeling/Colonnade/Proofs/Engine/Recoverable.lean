/-
The log of an engine always leads to its current snapshot. `Recoverable`
says so, and says of the one writer that may be active what it takes to keep
it true when that writer commits: the writer holds the slot, nobody else
writes, and its changes are `Pending` on the current snapshot.

Counters and pins play no part in this, so the steps that only count or pin
are passed over at once. What is left moves between two states. A writer
begins, writes, and ends; at its end the engine is `Settled`, which is to be
recoverable with no writer at all. Publishing is the one step that changes
the log: it appends the record of the changes, or it fails and the log is
as long as it was, and either way the writer has ended.

Chain: `Engine.Run` iterates the steps.
-/
import Colonnade.Proofs.Engine.Pending

namespace Colonnade.Engine

open HistoryLog (Holds LeadsTo)

-- ========================================================== the invariant

/-- The engine has a log in the known format, and the log leads to the
current snapshot. -/
def Logged (e : Engine) : Prop :=
  ∃ log bytes, e.log = some log ∧ Holds Wire.newestFormat bytes log
    ∧ LeadsTo bytes e.current

/-- No transaction is an active writer. -/
def NoWriter (e : Engine) : Prop :=
  ∀ id t, e.transaction? id = some t → ¬ t.IsWriting

/-- The log leads to the current snapshot, now and when the active writer
commits. -/
structure Recoverable (e : Engine) : Prop where
  logged : e.Logged
  busy : ∀ id t, e.transaction? id = some t → t.IsWriting →
    e.writerBusy = true
  single : ∀ id t id' t', e.transaction? id = some t → t.IsWriting →
    e.transaction? id' = some t' → t'.IsWriting → id = id'
  pending : ∀ id t, e.transaction? id = some t → t.IsWriting →
    t.Pending e.current e.limits

/-- The log leads to the current snapshot, and nobody writes. -/
structure Settled (e : Engine) : Prop where
  logged : e.Logged
  noWriter : e.NoWriter

variable {e e' : Engine} {id : TransactionId} {t t' : Transaction}

/-- An engine in which nobody writes is recoverable if its log leads to what
is current. -/
theorem Settled.recoverable (h : e.Settled) : e.Recoverable where
  logged := h.logged
  busy id t ht hw := (h.noWriter id t ht hw).elim
  single id t _ _ ht hw _ _ := (h.noWriter id t ht hw).elim
  pending id t ht hw := (h.noWriter id t ht hw).elim

/-- What is current was reached by instructions. -/
theorem Logged.reached (h : e.Logged) :
    ∃ is, Snapshot.Reached is e.current := by
  obtain ⟨_, _, -, -, hleads⟩ := h
  exact hleads.reached

/-- A log that leads somewhere leads to no negative keys. -/
theorem Logged.keysNonneg (h : e.Logged) : e.current.KeysNonneg := by
  obtain ⟨_, _, -, -, hleads⟩ := h
  exact hleads.keysNonneg

-- ================================================ one more transaction

/-- The engine with a transaction under an id. -/
def withTransaction (e : Engine) (id : TransactionId) (t : Transaction) :
    Engine :=
  { e with transactions := e.transactions.insert id t }

/-- A transaction that is put in place is found there, and every other one as
before. -/
theorem transaction?_withTransaction (a : TransactionId) :
    (e.withTransaction id t).transaction? a
      = if a = id then some t else e.transaction? a :=
  OrderedMap.getElem?_insert _ _ _ _

/-- Who writes next to a transaction that does not wrote before. -/
theorem writing_withTransaction (ht : ¬ t.IsWriting) {a : TransactionId}
    {u : Transaction} (hu : (e.withTransaction id t).transaction? a = some u)
    (hw : u.IsWriting) : e.transaction? a = some u := by
  rw [transaction?_withTransaction] at hu
  split at hu
  next =>
    cases hu
    exact (ht hw).elim
  next => exact hu

/-- A transaction that does not write changes nothing. -/
theorem Recoverable.withTransaction (h : e.Recoverable)
    (ht : ¬ t.IsWriting) : (e.withTransaction id t).Recoverable where
  logged := h.logged
  busy _ _ hu hw := h.busy _ _ (writing_withTransaction ht hu hw) hw
  single _ _ _ _ hu hw hv hx :=
    h.single _ _ _ _ (writing_withTransaction ht hu hw) hw
      (writing_withTransaction ht hv hx) hx
  pending _ _ hu hw := h.pending _ _ (writing_withTransaction ht hu hw) hw

/-- Nobody writes behind a change to a transaction that does not. -/
theorem Settled.withTransaction (h : e.Settled) (ht : ¬ t.IsWriting) :
    (e.withTransaction id t).Settled where
  logged := h.logged
  noWriter _ _ hu hw :=
    h.noWriter _ _ (writing_withTransaction ht hu hw) hw

-- ================================================ steps that only count

/-- A property in which counters, pins and ids play no part. -/
def Uncounted (P : Engine → Prop) : Prop :=
  ∀ e pins nextId stats, P e → P { e with pins, nextId, stats }

theorem uncounted_recoverable : Uncounted Recoverable :=
  fun _ _ _ _ h => ⟨h.logged, h.busy, h.single, h.pending⟩

theorem uncounted_settled : Uncounted Settled :=
  fun _ _ _ _ h => ⟨h.logged, h.noWriter⟩

section Counting

variable {P : Engine → Prop}

/-- Counting keeps what the counters have no say in. -/
theorem Uncounted.count (hP : Uncounted P) (f : Stats → Stats) :
    Edit.Preserves P (count f) :=
  fun e h => hP e e.pins e.nextId (f e.stats) h

/-- A pin keeps what the counters and pins have no say in. -/
theorem Uncounted.pin (hP : Uncounted P) (v : Version) :
    Edit.Preserves P (pin v) :=
  fun e h => hP e (e.pins.pin v) e.nextId e.stats h

/-- A pin that is given up keeps what the counters and pins have no say in. -/
theorem Uncounted.unpin (hP : Uncounted P) (v : Version) :
    Edit.Preserves P (unpin v) :=
  fun e h => hP e (e.pins.unpin v).1 e.nextId _ h

end Counting

-- ========================================= the log and what is current

/-- A property of the log and the current snapshot alone. -/
def OfLog (P : Engine → Prop) : Prop :=
  ∀ e e' : Engine, e'.log = e.log → e'.current = e.current → P e → P e'

/-- What the log holds, and what is current. -/
def Rests (bytes : Bytes) (current : Snapshot) (e : Engine) : Prop :=
  e.current = current
    ∧ ∃ log, e.log = some log ∧ Holds Wire.newestFormat bytes log

/-- What rests in the log is told by the log and the current snapshot. -/
theorem ofLog_rests (bytes : Bytes) (current : Snapshot) :
    OfLog (Rests bytes current) := by
  intro e e' hlog hcurrent h
  unfold Rests
  rw [hlog, hcurrent]
  exact h

theorem ofLog_logged : OfLog Logged := by
  intro e e' hlog hcurrent h
  unfold Logged
  rw [hlog, hcurrent]
  exact h

section OfLog

variable {P E : Engine → Prop}

/-- Changing a view keeps what is told by the log. -/
theorem OfLog.mapView (hP : OfLog P) (f : View → View) :
    Edit.Ends P (mapView id f) (fun _ => P) E := by
  refine Edit.Ends.modify fun e h => ?_
  split
  next => exact hP e _ rfl rfl h
  next => exact h

/-- Ending a transaction keeps what is told by the log. -/
theorem OfLog.finish (hP : OfLog P) (state : TransactionState) :
    Edit.Ends P (finish id state) (fun _ => P) E := by
  refine Edit.Ends.modify fun e h => ?_
  split
  next =>
    split
    next => exact hP e _ rfl rfl h
    next => exact h
  next => exact h

/-- Aborting keeps what is told by the log. -/
theorem OfLog.abort (hP : OfLog P) :
    Edit.Ends P (abort id) (fun _ => P) E :=
  (hP.mapView View.close).bind fun _ => (hP.finish .rolledBack).bind fun _ =>
    .modify fun e h => hP e _ rfl rfl h

end OfLog

-- ================================================= the end of a writer

/-- Nobody but one transaction writes. -/
def Sole (id : TransactionId) (e : Engine) : Prop :=
  ∀ a u, e.transaction? a = some u → u.IsWriting → a = id

/-- A writer is the only one. -/
theorem Recoverable.sole (h : e.Recoverable)
    (ht : e.transaction? id = some t) (hw : t.IsWriting) : Sole id e :=
  fun _ _ hu hx => h.single _ _ _ _ hu hx ht hw

/-- The only writer stays the only one when it changes. -/
theorem Sole.withTransaction (h : Sole id e) (t : Transaction) :
    Sole id (e.withTransaction id t) := by
  intro a u hu hx
  rw [transaction?_withTransaction] at hu
  split at hu
  next heq => exact heq
  next => exact h a u hu hx

/-- The one transaction may write, as long as its changes are pending. -/
theorem Sole.recoverable (h : Sole id e) (hlogged : e.Logged)
    (hbusy : e.writerBusy = true) (ht : t.Pending e.current e.limits) :
    (e.withTransaction id t).Recoverable := by
  have hid := h.withTransaction t
  refine ⟨hlogged, fun _ _ _ _ => hbusy, ?_, ?_⟩
  · intro a u b v hu hw hv hx
    rw [hid a u hu hw, hid b v hv hx]
  · intro a u hu hw
    obtain rfl := hid a u hu hw
    rw [transaction?_withTransaction, if_pos rfl] at hu
    exact Option.some.inj hu ▸ ht

/-- Once the transaction does not write, nobody does. -/
theorem Sole.noWriter (h : Sole id e)
    (hid : ∀ t, e.transaction? id = some t → ¬ t.IsWriting) :
    e.NoWriter := by
  intro a u hu hw
  obtain rfl := h a u hu hw
  exact hid u hu hw

section Sole

variable {P E : Engine → Prop}

/-- Changing its view keeps the only writer the only one. -/
theorem mapView_sole (f : View → View) :
    Edit.Ends (Sole id) (mapView id f) (fun _ => Sole id) E := by
  refine Edit.Ends.modify fun e h => ?_
  cases ht : e.transaction? id with
  | none => exact h
  | some t => exact h.withTransaction { t with view := f t.view }

/-- A writer that is put into a final state does not write any more. -/
theorem finish_sole {state : TransactionState} (hstate : state ≠ .active) :
    Edit.Ends (Sole id) (finish id state) (fun _ => NoWriter) E := by
  refine Edit.Ends.modify fun e h => ?_
  cases ht : e.transaction? id with
  | none => exact h.noWriter (by simp [ht])
  | some t =>
      dsimp only
      cases hrole : t.role with
      | reader =>
          refine h.noWriter ?_
          simp [ht, Transaction.IsWriting, hrole]
      | writer old holdsSlot =>
          have hsole := h.withTransaction
            { t with role := .writer state false }
          refine hsole.noWriter ?_
          simp [transaction?_withTransaction, Transaction.IsWriting, hstate]

/-- Behind aborting the only writer there is none. -/
theorem abort_sole :
    Edit.Ends (Sole id) (abort id) (fun _ => NoWriter) E :=
  (mapView_sole View.close).bind fun _ =>
    (finish_sole (by decide)).bind fun _ => .modify fun _ h => h

/-- A writer that ends leaves nobody writing, and the log as it is. -/
theorem OfLog.finish_sole (hP : OfLog P) {state : TransactionState}
    (hstate : state ≠ .active) :
    Edit.Ends (fun e => P e ∧ Sole id e) (Engine.finish id state)
      (fun _ e => P e ∧ e.NoWriter) E :=
  (Edit.Ends.and (hP.finish (E := E) state)
    (Engine.finish_sole (E := E) hstate)).weaken (fun _ h => h)
      (fun _ _ h => h) fun _ h => h.1

/-- Aborting the only writer leaves none, and what is told by the log. -/
theorem OfLog.abort_sole (hP : OfLog P) :
    Edit.Ends (fun e => P e ∧ Sole id e) (Engine.abort id)
      (fun _ e => P e ∧ e.NoWriter) E :=
  (Edit.Ends.and (hP.abort (E := E)) (Engine.abort_sole (E := E))).weaken
    (fun _ h => h) (fun _ _ h => h) fun _ h => h.1

end Sole

/-- A writer that is rolled back leaves the engine settled. -/
theorem abort_ends :
    Edit.Ends (fun e => e.Logged ∧ Sole id e) (abort id) (fun _ => Settled)
      Settled :=
  ofLog_logged.abort_sole.weaken (fun _ h => h) (fun _ _ h => ⟨h.1, h.2⟩)
    fun _ h => h

-- ========================================================= publishing

/-- The engine as it was, with a record more in its log. -/
def Appended (e : Engine) (bytes : Bytes) (record : CommitRecord)
    (e' : Engine) : Prop :=
  ∃ data log, Wire.encode Wire.newestFormat record = .ok data
    ∧ Holds Wire.newestFormat (bytes ++ data) log
    ∧ e' = { e with log := some log }

/-- The engine as it was, with nothing more in its log. -/
def Kept (e : Engine) (bytes : Bytes) (e' : Engine) : Prop :=
  ∃ log, Holds Wire.newestFormat bytes log ∧ e' = { e with log := some log }

/-- A commit is logged as a whole, or the log holds what it held. -/
theorem logCommit_ends {log : HistoryLog} {bytes : Bytes}
    (hlog : e.log = some log) (hholds : Holds Wire.newestFormat bytes log)
    (record : CommitRecord) :
    Edit.Ends (· = e) (logCommit record)
      (fun _ => Appended e bytes record) (Kept e bytes) := by
  refine Edit.Ends.get_bind fun s hs => ?_
  subst hs
  rw [hlog]
  have happend : Edit.Ends (· = s)
      (Edit.focus (fun _ => log) (fun log e => { e with log := some log })
        (HistoryLog.appendCommit record))
      (fun _ => Appended s bytes record) (Kept s bytes) := by
    refine Edit.Ends.focus fun e he => ?_
    subst he
    have hends := HistoryLog.appendCommit_ends Wire.newestFormat bytes record
    refine hends.weaken ?_ ?_ ?_
    · rintro _ rfl
      exact hholds
    · intro _ log' h
      obtain ⟨data, hdata, hlog'⟩ := h
      exact ⟨data, log', hdata, hlog', rfl⟩
    · exact fun log' h => ⟨log', h, rfl⟩
  refine happend.bind fun _ => Edit.Ends.get_bind fun e' he' => ?_
  split
  · exact Edit.Ends.pure fun _ h => h ▸ he'
  · exact Edit.Ends.pure fun _ h => h ▸ he'

/-- What was published is current, as the next version, and the record of
the changes is in the log. -/
def Published (bytes : Bytes) (current working : Snapshot)
    (changes : List Instruction) (next : Snapshot) (e : Engine) : Prop :=
  ∃ data, Wire.encode Wire.newestFormat ⟨current.version.next, changes⟩
      = .ok data
    ∧ next = { working with version := current.version.next }
    ∧ Rests (bytes ++ data) next e

section Publishing

variable {bytes : Bytes} {current working : Snapshot}
  {changes : List Instruction}

theorem ofLog_published (next : Snapshot) :
    OfLog (Published bytes current working changes next) := by
  intro e e' hlog hcurrent h
  obtain ⟨data, hdata, hnext, hrests⟩ := h
  exact ⟨data, hdata, hnext, ofLog_rests _ _ e e' hlog hcurrent hrests⟩

/-- Publishing does that, or it leaves the log and what is current as they
were. It does nothing to transactions. -/
theorem publish_ends (he : Rests bytes current e) :
    Edit.Ends (· = e) (publish working changes)
      (fun next e' => Published bytes current working changes next e'
        ∧ e'.transactions = e.transactions)
      (fun e' => Rests bytes current e'
        ∧ e'.transactions = e.transactions) := by
  obtain ⟨rfl, log, hlog, hholds⟩ := he
  refine Edit.Ends.get_bind fun s hs => ?_
  subst hs
  have hlogs := logCommit_ends hlog hholds ⟨s.version.next, changes⟩
  refine (hlogs.weaken (fun _ h => h) (fun _ _ h => h) ?_).bind ?_
  · intro e' h
    obtain ⟨log', hholds', rfl⟩ := h
    exact ⟨⟨rfl, log', rfl, hholds'⟩, rfl⟩
  · -- nothing fails any more, and the log is not touched again
    intro grown e' h
    obtain ⟨data, log', hdata, hholds', rfl⟩ := h
    exact ⟨⟨data, hdata, rfl, rfl, log', rfl, hholds'⟩, rfl⟩

/-- The rest of a commit, once the changes were taken and the snapshot was
looked at: to publish, and to end the writer one way or the other. -/
def conclude (id : TransactionId) (working : Snapshot)
    (changes : List Instruction) : Edit Engine Snapshot := do
  match ← Edit.attempt (publish working changes) with
  | .ok published =>
    finish id .committed
    return published
  | .error e =>
    abort id
    throw e

/-- It ends the writer, with the record in the log or without. -/
theorem conclude_ends (he : Rests bytes current e) (hsole : Sole id e) :
    Edit.Ends (· = e) (conclude id working changes)
      (fun next e' => Published bytes current working changes next e'
        ∧ e'.NoWriter)
      (fun e' => Rests bytes current e' ∧ e'.NoWriter) := by
  have hkept {e' : Engine} (h : e'.transactions = e.transactions) :
      Sole id e' := by
    unfold Sole transaction?
    rw [h]
    exact hsole
  refine Edit.Ends.bind (publish_ends he).attempt fun outcome => ?_
  cases outcome with
  | ok next =>
      refine Edit.Ends.bind (((ofLog_published next).finish_sole
        (by decide)).weaken ?_ (fun _ _ h => h) fun _ h => h) fun _ =>
          .pure fun _ h => h
      exact fun e' h => ⟨h.1, hkept h.2⟩
  | error err =>
      refine Edit.Ends.bind ((ofLog_rests bytes current).abort_sole.weaken ?_
        (fun _ _ h => h) fun _ h => h) fun _ => .throw fun _ h => h
      exact fun e' h => ⟨h.1, hkept h.2⟩

end Publishing

/-- A transaction is required to be there. -/
theorem requireTransaction_eq_ok :
    e.requireTransaction id = .ok t ↔ e.transaction? id = some t := by
  unfold requireTransaction
  cases e.transaction? id <;> simp

/-- Only an active writer passes for one. -/
theorem requireActive_eq_ok :
    e.requireActive id = .ok t
      ↔ e.transaction? id = some t ∧ t.IsWriting := by
  simp only [requireActive, Check.bind_eq_ok, requireTransaction_eq_ok,
    Transaction.IsWriting]
  constructor
  · intro h
    obtain ⟨u, hu, state, hstate, h⟩ := h
    cases state with
    | active =>
        cases h
        refine ⟨hu, ?_⟩
        unfold writerState at hstate
        split at hstate
        next state holdsSlot hrole =>
          cases hstate
          exact ⟨holdsSlot, hrole⟩
        next => cases hstate
    | committed => cases h
    | rolledBack => cases h
  · intro h
    obtain ⟨ht, holdsSlot, hrole⟩ := h
    refine ⟨t, ht, .active, ?_, rfl⟩
    unfold writerState
    rw [hrole]

/-- The changes are taken out, and the snapshot stays. -/
theorem gives_takeChanges (ht : e.transaction? id = some t) :
    Edit.Gives (takeChanges id) e t.view.changes.toList
      (e.withTransaction id
        { t with view := { t.view with changes := #[] } }) := by
  simp only [takeChanges, put, Edit.gives_bind, Edit.gives_get,
    Edit.gives_lift, Edit.gives_modify, Edit.gives_pure,
    requireTransaction_eq_ok, exists_unit]
  exact ⟨e, e, ⟨rfl, rfl⟩, t, e, ⟨ht, rfl⟩, _, rfl, rfl, rfl⟩

/-- The engine once the changes of a transaction were taken. -/
def takenFrom (e : Engine) (id : TransactionId) (t : Transaction) : Engine :=
  e.withTransaction id { t with view := { t.view with changes := #[] } }

/-- Taking the changes gives them and leaves none. -/
theorem run_takeChanges (ht : e.transaction? id = some t) :
    (takeChanges id).run e
      = .ok t.view.changes.toList (takenFrom e id t) :=
  gives_takeChanges ht

/-- Behind taking its changes a transaction has none. -/
theorem requireTransaction_takenFrom (e : Engine) (id : TransactionId)
    (t : Transaction) :
    (takenFrom e id t).requireTransaction id
      = .ok { t with view := { t.view with changes := #[] } } := by
  rw [requireTransaction_eq_ok]
  unfold takenFrom
  rw [transaction?_withTransaction, if_pos rfl]

/-- A writer publishes its snapshot with its changes. -/
theorem run_publishChanges (ht : e.transaction? id = some t)
    (hw : t.IsWriting) :
    (publishChanges id).run e
      = (conclude id t.view.snapshot t.view.changes.toList).run
        (takenFrom e id t) := by
  have hactive : e.requireActive id = .ok t := requireActive_eq_ok.2 ⟨ht, hw⟩
  have hpass : (liftM (e.requireActive id) : Edit Engine Transaction).run e
      = .ok t e := by
    rw [hactive]
    rfl
  unfold publishChanges
  rw [EStateM.run_bind, EStateM.run_get]
  dsimp only
  rw [EStateM.run_bind, hpass]
  dsimp only
  rw [EStateM.run_bind, run_takeChanges ht]
  dsimp only
  rw [EStateM.run_bind, EStateM.run_get]
  dsimp only
  rw [requireTransaction_takenFrom]
  rfl

/-- Publishing the changes of a writer ends it, and the log still leads to
what is current. -/
theorem publishChanges_ends :
    Edit.Ends Recoverable (publishChanges id) (fun _ => Settled)
      Recoverable := by
  intro e he
  cases hactive : e.requireActive id with
  | error err =>
      have hrun : (publishChanges id).run e = .error err e := by
        unfold publishChanges
        rw [EStateM.run_bind, EStateM.run_get]
        dsimp only
        rw [hactive]
        rfl
      rw [hrun]
      exact he
  | ok t =>
      obtain ⟨ht, hw⟩ := requireActive_eq_ok.1 hactive
      obtain ⟨log, bytes, hlog, hholds, hleads⟩ := he.logged
      have hrests : Rests bytes e.current (takenFrom e id t) :=
        ⟨rfl, log, hlog, hholds⟩
      have hsole : Sole id (takenFrom e id t) :=
        (he.sole ht hw).withTransaction _
      rw [run_publishChanges ht hw]
      refine (conclude_ends hrests hsole).weaken (fun _ h => h) ?_ ?_ _ rfl
      · intro next e' h
        obtain ⟨⟨data, hdata, rfl, hcurrent, log', hlog', hholds'⟩,
          hnone⟩ := h
        refine ⟨⟨log', bytes ++ data, hlog', hholds', ?_⟩, hnone⟩
        rw [hcurrent]
        exact (he.pending id t ht hw).leadsTo hleads hdata
      · intro e' h
        obtain ⟨⟨hcurrent, log', hlog', hholds'⟩, hnone⟩ := h
        refine Settled.recoverable ⟨⟨log', bytes, hlog', hholds', ?_⟩, hnone⟩
        rw [hcurrent]
        exact hleads

end Colonnade.Engine
