/-
A host: the surroundings in which databases are opened. It keeps what
databases share (the contents of memory stores, fault switches, files and
directory locks) and the engines that are open.

An engine lives as long as somebody holds it: an owner of the database, of
whom there may be several, or a transaction, ended or not. Handles do not
count. When the last one lets go the engine is gone and with it the lock on
its directory. Opening that fails leaves no lock behind.

Engines keep their store by value. Around each step of an engine the host
puts the shared contents into the store and takes them out again, so that
all who share a store see one history.

Chain: the outermost layer of the library proper; sessions and the command
line stand beside it.
-/
import Colonnade.Engine.Lookup
import Colonnade.Handle.Object
import Colonnade.Host.Volume

namespace Colonnade

/-- Where the store of an engine keeps its bytes. -/
inductive Medium where
  | none
  | memory (store : Nat)
  | file (place : Place)
deriving DecidableEq, Repr, Inhabited

/-- A database directory that is locked: the path it was opened by, and the
place of the file that is locked for it. -/
structure Claim where
  path : String
  lock : Place
deriving DecidableEq, Repr, Inhabited

/-- An engine that is open on a host. -/
structure OpenEngine where
  engine : Engine
  config : Config
  owners : Nat
  medium : Medium
  switch : Option Nat
  claim : Option Claim
deriving Inhabited

/-- The path of the directory that an engine was opened on. -/
def OpenEngine.directory (o : OpenEngine) : Option String :=
  o.claim.map Claim.path

/-- What databases share, and the engines that are open. -/
structure Host where
  volume : Volume := {}
  stores : Std.TreeMap Nat Bytes := ∅
  switches : Std.TreeMap Nat Faults := ∅
  engines : Std.TreeMap Nat OpenEngine := ∅
  nextNumber : Nat := 0

namespace Host

instance : Inhabited Host := ⟨{}⟩

/-- The file that holds the history of a database directory. -/
def historyFile : String := "history.log"

/-- The file by which a database directory is locked. -/
def lockFile : String := "LOCK"

-- ================================================== shared contents

/-- A number that names nothing yet. -/
def freshNumber : Edit Host Nat := do
  let n := (← get).nextNumber
  modify fun h => { h with nextNumber := n + 1 }
  return n

/-- Adds a memory store. -/
def addStore (contents : Bytes) : Edit Host Nat := do
  let n ← freshNumber
  modify fun h => { h with stores := h.stores.insert n contents }
  return n

/-- What a memory store holds. -/
def storeBytes (h : Host) (n : Nat) : Bytes := h.stores[n]?.getD []

/-- Changes what a memory store holds. -/
def setStore (n : Nat) (contents : Bytes) : Edit Host Unit :=
  modify fun h => { h with stores := h.stores.insert n contents }

/-- Changes a fault switch. -/
def mapSwitch (n : Nat) (f : Faults → Faults) : Edit Host Unit :=
  modify fun h =>
    { h with switches := h.switches.insert n (f (h.switches[n]?.getD {})) }

/-- Carries out something on the volume; its refusal is a fault of the
store. -/
def onVolume {α : Type} (e : VolumeEdit α) : Edit Host α := fun h =>
  match e.run h.volume with
  | .ok a volume => .ok a { h with volume }
  | .error fault volume =>
    .error (.storage (.io fault.message)) { h with volume }

/-- What a medium holds. -/
def mediumBytes? (h : Host) : Medium → Option Bytes
  | .none => none
  | .memory n => h.stores[n]?
  | .file place => h.volume.contentsAt? place

/-- Puts what a store holds back on its medium. -/
def keep (medium : Medium) (store : Store) (h : Host) : Host :=
  match medium with
  | .none => h
  | .memory n => { h with stores := h.stores.insert n store.bytes }
  | .file place =>
    { h with volume := h.volume.put place (.file store.bytes) }

/-- Puts the state of a store's fault switch back. -/
def keepSwitch (switch : Option Nat) (store : Store) (h : Host) : Host :=
  match switch, store.faults? with
  | some n, some faults => { h with switches := h.switches.insert n faults }
  | _, _ => h

-- ================================================ steps of an engine

/-- The engine with the shared contents in its store. -/
def refreshed (h : Host) (o : OpenEngine) : Engine :=
  match o.engine.log with
  | none => o.engine
  | some log =>
    let store := match h.mediumBytes? o.medium with
      | some bytes => log.store.withBytes bytes
      | none => log.store
    let store := match o.switch >>= (h.switches[·]?) with
      | some faults => store.mapFaults fun _ => faults
      | none => store
    { o.engine with log := some { log with store } }

/-- Runs a step of an engine. An engine that is gone answers as one that
never had a transaction. -/
def onEngine {α : Type} (n : Nat) (step : Edit Engine α) : Edit Host α :=
  fun h =>
    match h.engines[n]? with
    | none =>
      match step.run default with
      | .ok a _ => .ok a h
      | .error e _ => .error e h
    | some o =>
      let settle (engine : Engine) : Host :=
        let h := { h with engines := h.engines.insert n { o with engine } }
        match engine.log with
        | none => h
        | some log => keepSwitch o.switch log.store (keep o.medium log.store h)
      match step.run (refreshed h o) with
      | .ok a engine => .ok a (settle engine)
      | .error e engine => .error e (settle engine)

/-- Lets go of an engine that nobody holds any more, and of its lock. -/
def reap (n : Nat) : Edit Host Unit := modify fun h =>
  match h.engines[n]? with
  | none => h
  | some o =>
    if o.owners = 0 ∧ o.engine.transactions.isEmpty then
      let volume := match o.claim with
        | some claim => h.volume.unlock claim.lock
        | none => h.volume
      { h with volume, engines := h.engines.erase n }
    else h

/-- Drops a transaction. -/
def dropTransaction (n : Nat) (id : TransactionId) : Edit Host Unit := do
  onEngine n (Engine.drop id)
  reap n

/-- Adds an owner to an engine. -/
def share (n : Nat) : Edit Host Unit := modify fun h =>
  match h.engines[n]? with
  | none => h
  | some o =>
    { h with engines := h.engines.insert n { o with owners := o.owners + 1 } }

/-- Takes an owner from an engine. -/
def release (n : Nat) : Edit Host Unit := do
  modify fun h =>
    match h.engines[n]? with
    | none => h
    | some o =>
      { h with engines := h.engines.insert n { o with owners := o.owners - 1 } }
  reap n

-- ========================================================= opening

/-- Adds an engine with one owner. -/
def addEngine (o : OpenEngine) : Edit Host Nat := do
  let n ← freshNumber
  modify fun h => { h with engines := h.engines.insert n o }
  return n

/-- Opens a database that lives in memory only. -/
def openInMemory (config : Config) : Edit Host Nat :=
  addEngine ⟨.inMemory config, config, 1, .none, none, none⟩

/-- Opens a database over a store whose contents are on a medium. -/
def openOver (store : Store) (config : Config) (medium : Medium)
    (switch : Option Nat) (claim : Option Claim) : Edit Host Nat := do
  let (opened, store) := Engine.openOver store config
  modify fun h => keepSwitch switch store (keep medium store h)
  match opened with
  | .ok engine =>
    addEngine ⟨engine, config, 1, medium, switch, claim⟩
  | .error e => throw e

/-- Opens a database over a memory store. -/
def openMemory (n : Nat) (config : Config) : Edit Host Nat := do
  openOver (.memory ((← get).storeBytes n)) config (.memory n) none none

/-- Opens a database over a memory store through a new fault switch, which
is added first. -/
def openFaulty (n switch : Nat) (config : Config) : Edit Host Nat := do
  mapSwitch switch fun _ => {}
  openOver (.faulty (.memory ((← get).storeBytes n)) {}) config (.memory n)
    (some switch) none

/-- A reason that the database gives itself, as a fault of the store. -/
def refuse {α : Type} (reason : String) : Edit Host α :=
  throw (.storage (.io reason))

/-- Makes sure that a database directory is there, and locks it. -/
def claimDirectory (path : String) (createIfMissing : Bool) :
    Edit Host Claim := do
  if !(← get).volume.holds path then
    if !createIfMissing then
      refuse s!"no database at {path} and create_if_missing is false"
    onVolume (Volume.makeDirectories path)
  if !(← get).volume.isDirectory path then
    refuse s!"{path} is not a directory"
  let (lock, _) ← onVolume (Volume.openFile (Path.join path lockFile))
  if (← get).volume.isLocked lock then
    throw (.locked path)
  modify fun h => { h with volume := h.volume.lock lock }
  return { path, lock }

/-- Opens the history in a directory that is claimed. -/
def openHistory (claim : Claim) (config : Config) : Edit Host Nat := do
  let file := Path.join claim.path historyFile
  let v := (← get).volume
  let found := v.holds file
  let filled := v.isDirectory file || (v.read? file).any (!·.isEmpty)
  if !found && !config.createIfMissing then
    refuse s!"no history in {claim.path} and create_if_missing is false"
  if filled && config.errorIfExists then
    refuse s!"database at {claim.path} exists and error_if_exists is true"
  let (place, contents) ← onVolume (Volume.openWithin file)
  openOver (.file (.opened contents)) config (.file place) none (some claim)

/-- Opens the database in a directory. Its lock is given back if that
fails. -/
def openDirectory (path : String) (config : Config) : Edit Host Nat := do
  let claim ← claimDirectory path config.createIfMissing
  match ← Edit.attempt (openHistory claim config) with
  | .ok n => return n
  | .error e =>
    modify fun h => { h with volume := h.volume.unlock claim.lock }
    throw e

end Host

end Colonnade
