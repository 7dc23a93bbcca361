/-
A desk: a host together with what one who works on it keeps at hand, each
thing under a name of its own kind. Putting a thing under a name takes away
what was there, after the new thing is in its place; a transaction or a
database that is put away lets go of its engine, and tables and objects,
which hold nothing, are forgotten.

A closure runs a list of steps in a transaction that is at hand under a
fixed name while they run and is gone afterwards. The first step that fails
ends the list and is what the closure fails with. A database belongs to the
writing closure that runs on it until the closure is over, even if the
transaction of the closure has ended by then: until then no step may wait for
the writer slot of that database.

Chain: above `Host`; scripts of any kind are lists of steps on a desk.
-/
import Colonnade.Host

namespace Colonnade

/-- Why a step on a desk failed. -/
inductive DeskFault where
  | core (e : Error)
  | store (f : StoreFault)
  | unbound (name : String)
  /-- Another writer is active or a writing closure runs, and the step would
  have to wait for it. -/
  | blocked
deriving DecidableEq

/-- Things by name. -/
abbrev Names (α : Type) := Std.TreeMap String α

/-- A host, and what is at hand by name; engines and their parts are known
by the number of the engine. -/
structure Desk where
  host : Host := {}
  stores : Names Nat := ∅
  switches : Names Nat := ∅
  databases : Names Nat := ∅
  transactions : Names (Nat × TransactionId) := ∅
  tables : Names (Nat × TableHandle) := ∅
  objects : Names (Nat × ObjectHandle) := ∅
  /-- The engines on which a writing closure runs. -/
  writing : List Nat := []

/-- A step on a desk. -/
abbrev Work (α : Type) := EStateM DeskFault Desk α

namespace Desk

instance : Inhabited Desk := ⟨{}⟩

/-- Runs an edit of the host. -/
def onHost {α : Type} (e : Edit Host α) : Work α := fun d =>
  match e.run d.host with
  | .ok a host => .ok a { d with host }
  | .error err host => .error (.core err) { d with host }

/-- Runs an edit of an engine. -/
def onEngine {α : Type} (n : Nat) (e : Edit Engine α) : Work α :=
  onHost (Host.onEngine n e)

/-- What is under a name. -/
def lookUp {α : Type} (names : Desk → Names α) (name : String) : Work α := do
  match (names (← get))[name]? with
  | some a => return a
  | none => throw (.unbound name)

-- ================================================= putting things down

/-- Puts a table under a name. -/
def keepTable (name : String) (n : Nat) (h : TableHandle) : Work Unit :=
  modify fun d => { d with tables := d.tables.insert name (n, h) }

/-- Puts an object under a name. -/
def keepObject (name : String) (n : Nat) (h : ObjectHandle) : Work Unit :=
  modify fun d => { d with objects := d.objects.insert name (n, h) }

/-- Puts a transaction under a name and drops the one that was there. -/
def keepTransaction (name : String) (n : Nat) (id : TransactionId) :
    Work Unit := do
  let old? := (← get).transactions[name]?
  modify fun d =>
    { d with transactions := d.transactions.insert name (n, id) }
  if let some (m, old) := old? then
    onHost (Host.dropTransaction m old)

/-- Puts a database under a name and closes the one that was there. -/
def keepDatabase (name : String) (n : Nat) : Work Unit := do
  let old? := (← get).databases[name]?
  modify fun d => { d with databases := d.databases.insert name n }
  if let some old := old? then
    onHost (Host.release old)

/-- Takes a transaction from its name without dropping it. -/
def takeTransaction (name : String) : Work (Nat × TransactionId) := do
  let t ← lookUp transactions name
  modify fun d => { d with transactions := d.transactions.erase name }
  return t

/-- Drops the transaction under a name. -/
def dropTransaction (name : String) : Work Unit := do
  let (n, id) ← takeTransaction name
  onHost (Host.dropTransaction n id)

/-- Closes the database under a name. -/
def dropDatabase (name : String) : Work Unit := do
  let n ← lookUp databases name
  modify fun d => { d with databases := d.databases.erase name }
  onHost (Host.release n)

/-- Puts the same database under another name. -/
def cloneDatabase (name copy : String) : Work Unit := do
  let n ← lookUp databases name
  onHost (Host.share n)
  keepDatabase copy n

-- ==================================================== memory stores

/-- Adds a memory store under a name. -/
def addStore (name : String) (contents : Bytes) : Work Unit := do
  let n ← onHost (Host.addStore contents)
  modify fun d => { d with stores := d.stores.insert name n }

/-- What the memory store under a name holds. -/
def storeBytes (name : String) : Work Bytes := do
  let n ← lookUp stores name
  return (← get).host.storeBytes n

/-- Changes what the memory store under a name holds. -/
def editStore (name : String) (f : Bytes → Except StoreFault Bytes) :
    Work Unit := do
  let n ← lookUp stores name
  match f ((← get).host.storeBytes n) with
  | .ok contents => onHost (Host.setStore n contents)
  | .error e => throw (.store e)

/-- Changes the fault switch under a name. -/
def turn (name : String) (f : Faults → Faults) : Work Unit := do
  let n ← lookUp switches name
  onHost (Host.mapSwitch n f)

/-- Whether the store behind the fault switch under a name has failed. -/
def tripped (name : String) : Work Bool := do
  let n ← lookUp switches name
  return (← get).host.switches[n]?.any (·.tripped)

/-- Opens a database over the memory store under a name. -/
def openMemory (name : String) (config : Config) : Work Nat := do
  let n ← lookUp stores name
  onHost (Host.openMemory n config)

/-- Opens a database over the memory store under a name, through a fault
switch that is then under the same name. -/
def openFaulty (name : String) (config : Config) : Work Nat := do
  let n ← lookUp stores name
  let switch ← onHost Host.freshNumber
  modify fun d => { d with switches := d.switches.insert name switch }
  onHost (Host.openFaulty n switch config)

-- ==================================================== transactions

/-- Begins a write transaction, which must not wait. -/
def beginWrite (n : Nat) : Work TransactionId := do
  if (← get).writing.contains n then
    throw .blocked
  match ← onEngine n Engine.beginWrite? with
  | some id => return id
  | none => throw .blocked

/-- Commits the transaction under a name and goes on reading; the name is
free afterwards whether that worked or not. -/
def commitAndRead (name : String) : Work (Nat × TransactionId) := do
  let (n, id) ← takeTransaction name
  match ← onHost (Edit.attempt (Host.onEngine n (Engine.commitAndRead id))) with
  | .ok () => return (n, id)
  | .error e =>
    onHost (Host.reap n)
    throw (.core e)

-- ======================================================== closures

/-- The name of the transaction of a closure. -/
def closureName : String := "@"

/-- Carries out steps up to the first that fails. -/
def attemptAll {α : Type} : List (Work α) → Work (List (Except DeskFault α))
  | [] => return []
  | step :: rest => fun d =>
    match step.run d with
    | .ok a d => ((.ok a :: ·) <$> attemptAll rest).run d
    | .error f d => .ok [.error f] d

/-- The outcome of a closure: what the failure of a step amounts to, or else
the failure that was asked for. -/
def closureOutcome {α : Type} (explain : DeskFault → Error)
    (fail : Option Error) (results : List (Except DeskFault α)) :
    Except Error Unit :=
  match results.getLast?, fail with
  | some (.error f), _ => .error (explain f)
  | _, some e => .error e
  | _, none => .ok ()

/-- Runs steps in a transaction of their own, and gives what each gave and
how the closure ended. -/
def closure {α : Type} (n : Nat) (writing : Bool) (steps : List (Work α))
    (explain : DeskFault → Error) (fail : Option Error) :
    Work (List (Except DeskFault α) × Except Error Unit) := do
  let id ← if writing then beginWrite n else onEngine n Engine.beginRead
  let outer? := (← get).transactions[closureName]?
  let writers := (← get).writing
  modify fun d =>
    { d with
      transactions := d.transactions.insert closureName (n, id)
      writing := if writing then n :: writers else writers }
  let results ← attemptAll steps
  modify fun d =>
    { d with
      transactions := d.transactions.alter closureName fun _ => outer?
      writing := writers }
  let outcome := closureOutcome explain fail results
  let settled ← if writing then
      onHost (Edit.attempt (Host.onEngine n (Engine.settleWrite id outcome)))
    else pure outcome
  onHost (Host.dropTransaction n id)
  return (results, settled)

end Desk

end Colonnade
