/-
The engine of one database: the current snapshot, the history log behind
it, the pins on versions, the single slot for a writer, and the
transactions that are open. It is a plain value; whatever happens to a
database is an edit of its engine.

A transaction stays in the engine until it is dropped, also after it was
committed or rolled back. A write transaction owns the writer slot from its
beginning to its end, and nothing else takes or frees the slot, so at most
one of them is active.

Committing is several steps. The changes are taken from the view, the
snapshot is taken from the view, both are published (written to the log,
then made current under the next version), and the view is given the
published snapshot. Each step is a definition of its own.

Chain: `Engine.Lookup` adds lookups by name, `Handle` reads and writes
through tables and objects, `Host` opens engines over shared stores.
-/
import Colonnade.Engine.Pins
import Colonnade.Engine.Stats
import Colonnade.Engine.View
import Colonnade.History.Recovery

namespace Colonnade

-- ==================================================== transactions

/-- How far a write transaction has come. -/
inductive TransactionState where
  | active
  | committed
  | rolledBack
deriving DecidableEq, Repr, Inhabited

/-- The name of a state. -/
def TransactionState.name : TransactionState → String
  | active => "Active"
  | committed => "Committed"
  | rolledBack => "RolledBack"

/-- What a transaction is for; a writer holds the writer slot until it
ends. -/
inductive Role where
  | reader
  | writer (state : TransactionState) (holdsSlot : Bool)
deriving DecidableEq, Repr, Inhabited

/-- An open transaction: its view, the version it pins, and its role. -/
structure Transaction where
  view : View
  pinned : Version
  role : Role
deriving Inhabited

/-- The state of one database. -/
structure Engine where
  current : Snapshot
  log : Option HistoryLog
  limits : Limits
  pins : Pins
  writerBusy : Bool := false
  nextId : TransactionId := ⟨1⟩
  stats : Stats := {}
  transactions : Std.TreeMap TransactionId Transaction := ∅

namespace Engine

-- ======================================================== opening

/-- An engine that starts from a snapshot. -/
def starting (snapshot : Snapshot) (log : Option HistoryLog)
    (limits : Limits) : Engine :=
  { current := snapshot, log, limits
    pins := { current := snapshot.version } }

/-- A database that lives in memory only. -/
def inMemory (config : Config) : Engine := starting .empty none config.limits

instance : Inhabited Engine := ⟨inMemory {}⟩

/-- A database over a store, from the history that the store holds. The log
comes back beside the failure too: opening may have changed the store. -/
def openOver (store : Store) (config : Config) :
    Except Error Engine × Store :=
  match HistoryLog.recover.run (.ofStore store config) with
  | .ok snapshot log =>
    (.ok (starting snapshot (some log) config.limits), log.store)
  | .error e log => (.error e, log.store)

-- ================================================ the engine at large

/-- The number of the current version. -/
def version (e : Engine) : Version := e.current.version

/-- The versions that somebody can still see, ascending. -/
def liveVersions (e : Engine) : List Version := e.pins.live

/-- The lowest version that a transaction holds. -/
def oldestPinned? (e : Engine) : Option Version := e.pins.oldest?

/-- Changes the counters. -/
def count (f : Stats → Stats) : Edit Engine Unit :=
  modify fun e => { e with stats := f e.stats }

/-- Counts versions as reclaimed. -/
def countReclaimed (n : Nat) : Edit Engine Unit :=
  count fun s => { s with versionsReclaimed := s.versionsReclaimed + n }

/-- Pins a version. -/
def pin (v : Version) : Edit Engine Unit :=
  modify fun e => { e with pins := e.pins.pin v }

/-- Takes a pin away. -/
def unpin (v : Version) : Edit Engine Unit := do
  let (pins, reclaimed) := (← get).pins.unpin v
  modify fun e => { e with pins }
  countReclaimed reclaimed

-- ================================================ one transaction

/-- The transaction with an id. -/
def transaction? (e : Engine) (id : TransactionId) : Option Transaction :=
  e.transactions[id]?

/-- The transaction with an id, or the reason that there is none. -/
def requireTransaction (e : Engine) (id : TransactionId) :
    Except Error Transaction :=
  match e.transaction? id with
  | some t => .ok t
  | none => .error (.illegalState .noSuchTransaction)

/-- Puts a transaction under an id. -/
def put (id : TransactionId) (t : Transaction) : Edit Engine Unit :=
  modify fun e => { e with transactions := e.transactions.insert id t }

/-- Changes the view of a transaction. -/
def mapView (id : TransactionId) (f : View → View) : Edit Engine Unit :=
  modify fun e =>
    match e.transaction? id with
    | some t =>
      let t := { t with view := f t.view }
      { e with transactions := e.transactions.insert id t }
    | none => e

/-- The state of a write transaction. -/
def writerState (t : Transaction) : Except Error TransactionState :=
  match t.role with
  | .writer state _ => .ok state
  | .reader => .error (.illegalState .notWriting)

/-- Passes a write transaction that is active. -/
def requireActive (e : Engine) (id : TransactionId) :
    Except Error Transaction := do
  let t ← e.requireTransaction id
  match ← writerState t with
  | .active => return t
  | .committed => throw (.illegalState .alreadyCommitted)
  | .rolledBack => throw (.illegalState .alreadyRolledBack)

/-- Puts a write transaction into its final state; the slot is free again
if it held it. -/
def finish (id : TransactionId) (state : TransactionState) :
    Edit Engine Unit :=
  modify fun e =>
    match e.transaction? id with
    | some t =>
      match t.role with
      | .writer _ holdsSlot =>
        let t := { t with role := .writer state false }
        { e with
          writerBusy := e.writerBusy && !holdsSlot
          transactions := e.transactions.insert id t }
      | .reader => e
    | none => e

-- ======================================================= beginning

/-- Opens a view of the current version under a new id and pins that
version. -/
def openView (mode : ViewMode) (role : Role) :
    Edit Engine TransactionId := do
  let e ← get
  let id := e.nextId
  set { e with nextId := ⟨id.raw + 1⟩ }
  pin e.version
  put id ⟨{ mode, snapshot := e.current }, e.version, role⟩
  return id

/-- Begins a read transaction. -/
def beginRead : Edit Engine TransactionId := do
  let id ← openView .reading .reader
  count fun s => { s with readTransactions := s.readTransactions + 1 }
  return id

/-- Takes the writer slot if it is free. -/
def acquireWriter : Edit Engine Bool := do
  let e ← get
  if e.writerBusy then
    return false
  set { e with writerBusy := true }
  return true

/-- Begins a write transaction, unless one is active. -/
def beginWrite? : Edit Engine (Option TransactionId) := do
  if ← acquireWriter then
    let id ← openView .writing (.writer .active true)
    count fun s => { s with writeTransactions := s.writeTransactions + 1 }
    return some id
  else
    return none

-- ====================================================== publishing

/-- Appends a commit to the log, if there is one, and gives the number of
bytes by which the log grew. -/
def logCommit (record : CommitRecord) : Edit Engine Nat := do
  match (← get).log with
  | none => return 0
  | some log =>
    let _ ← Edit.focus (fun _ => log) (fun log e => { e with log := some log })
      (HistoryLog.appendCommit record)
    match (← get).log with
    | none => return 0
    | some after => return after.size - log.size

/-- Makes a snapshot the current one. -/
def makeCurrent (next : Snapshot) : Edit Engine Unit := do
  let (pins, reclaimed) := (← get).pins.setCurrent next.version
  modify fun e => { e with current := next, pins }
  countReclaimed reclaimed

/-- Writes the changes to the log and makes the working snapshot current
under the next version. -/
def publish (working : Snapshot) (changes : List Instruction) :
    Edit Engine Snapshot := do
  let version := (← get).version.next
  let next := { working with version }
  let grown ← logCommit ⟨version, changes⟩
  makeCurrent next
  count fun s => { s with
    commits := s.commits + 1
    instructions := s.instructions + changes.length
    historyBytes := s.historyBytes + grown }
  return next

-- ========================================================= ending

/-- Takes the recorded changes out of a transaction. -/
def takeChanges (id : TransactionId) : Edit Engine (List Instruction) := do
  let t ← (← get).requireTransaction id
  let (changes, view) := t.view.takeChanges
  put id { t with view }
  return changes

/-- Ends a write transaction without publishing it. -/
def abort (id : TransactionId) : Edit Engine Unit := do
  mapView id View.close
  finish id .rolledBack
  count fun s => { s with rollbacks := s.rollbacks + 1 }

/-- Publishes what a transaction has changed; if that fails the transaction
is rolled back. -/
def publishChanges (id : TransactionId) : Edit Engine Snapshot := do
  let _ ← (← get).requireActive id
  let changes ← takeChanges id
  let working := (← (← get).requireTransaction id).view.snapshot
  match ← Edit.attempt (publish working changes) with
  | .ok published =>
    finish id .committed
    return published
  | .error e =>
    abort id
    throw e

/-- Commits a write transaction and gives the version it became. -/
def commit (id : TransactionId) : Edit Engine Version := do
  let published ← publishChanges id
  mapView id (View.replace published .closed true)
  return published.version

/-- Rolls a write transaction back. -/
def rollback (id : TransactionId) : Edit Engine Unit := do
  let _ ← (← get).requireActive id
  abort id

/-- Drops a transaction: an active writer is rolled back, the view is
closed, and the pin goes. -/
def drop (id : TransactionId) : Edit Engine Unit := do
  match (← get).transaction? id with
  | none => return
  | some t =>
    if let .writer .active _ := t.role then
      abort id
    modify fun e => { e with transactions := e.transactions.erase id }
    unpin t.pinned

/-- Commits a write transaction and goes on reading the version it became,
through the same handles. If the commit fails the transaction is gone. -/
def commitAndRead (id : TransactionId) : Edit Engine Unit := do
  let base ← (← get).requireTransaction id
  match ← Edit.attempt (publishChanges id) with
  | .error e =>
    drop id
    throw e
  | .ok published =>
    mapView id (View.replace published .reading false)
    pin published.version
    let t ← (← get).requireTransaction id
    put id { t with pinned := published.version, role := .reader }
    unpin base.pinned

/-- Moves a read transaction to the current version and says whether that
was a move. -/
def advance (id : TransactionId) : Edit Engine Bool := do
  let e ← get
  let t ← e.requireTransaction id
  if e.version = t.pinned then
    return false
  pin e.version
  put id { t with
    pinned := e.version
    view := t.view.replace e.current .reading true }
  unpin t.pinned
  count fun s => { s with advances := s.advances + 1 }
  return true

-- =================================================== closures

/-- Ends a write transaction as the outcome of its closure asks: success
commits it and failure rolls it back, unless the closure has ended it
itself. The transaction is gone afterwards. -/
def settleWrite {α : Type} (id : TransactionId) (outcome : Except Error α) :
    Edit Engine α := do
  let t ← (← get).requireTransaction id
  let active := writerState t matches .ok .active
  let ended ← Edit.attempt do
    if active then
      match outcome with
      | .ok _ => let _ ← commit id
      | .error _ => rollback id
  drop id
  match outcome, ended with
  | .error e, _ => throw e
  | .ok _, .error e => throw e
  | .ok a, .ok _ => return a

/-- Runs a closure in a write transaction of its own; nothing if another
writer is active. -/
def write? {α : Type} (f : TransactionId → Edit Engine α) :
    Edit Engine (Option α) := do
  match ← beginWrite? with
  | none => return none
  | some id =>
    let outcome ← Edit.attempt (f id)
    some <$> settleWrite id outcome

/-- Runs a closure in a write transaction of its own, for a caller who does
not wait. -/
def write {α : Type} (f : TransactionId → Edit Engine α) :
    Edit Engine α := do
  match ← write? f with
  | some a => return a
  | none => throw (.illegalState (.text "another writer is active"))

/-- Runs a closure in a read transaction of its own. -/
def read {α : Type} (f : TransactionId → Edit Engine α) :
    Edit Engine α := do
  let id ← beginRead
  let outcome ← Edit.attempt (f id)
  drop id
  match outcome with
  | .ok a => return a
  | .error e => throw e

end Engine

end Colonnade
