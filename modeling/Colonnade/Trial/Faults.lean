/-
Trials of failing stores: a database over memory whose appends, flushes and
syncs can be made to fail at will. What reached the memory can be opened
again beside it at any moment.

Chain: an engine over `Store.faulty`; each operation here turns its switch
or looks behind it.
-/
import Colonnade.Handle.Contents

namespace Colonnade.Trial.Faults

/-- A new database over a store that does not fail yet. -/
def newDatabase : Except Error Engine :=
  (Engine.openOver (.faulty (.memory []) {}) {}).1

/-- Turns the switch of the store. -/
def turn (f : Colonnade.Faults → Colonnade.Faults) : Edit Engine Unit :=
  modify fun e =>
    { e with
      log := e.log.map fun log => { log with store := log.store.mapFaults f } }

/-- Whether the store has failed yet. -/
def tripped (e : Engine) : Bool :=
  (e.log.bind (·.store.faults?)).any (·.tripped)

/-- What has reached the store. -/
def stored (e : Engine) : Bytes := (e.log.map (·.store.bytes)).getD []

/-- A database opened over a copy of what has reached the store. -/
def recover (e : Engine) : Except Error Engine :=
  (Engine.openOver (.memory (stored e)) {}).1

-- ========================================================= the trial

/-- What a trial saw: how the commit on the failing store ended, what was
stored then and what it recovered to, and the same after the store was well
again. -/
structure Result where
  failed : Except Error Unit
  tripped : Bool
  stored : Nat
  atFailure : List TableContents
  version : Version
  healed : List TableContents

/-- Adds an empty table, in a commit of its own. -/
def addTable (name : String) : Edit Engine Unit :=
  Engine.write fun id => do
    let _ ← Engine.addTable id name

/-- The version and the contents of what has reached the store. -/
def recoveredContents : Edit Engine (Version × List TableContents) := do
  let recovered ← recover (← get)
  match (Engine.read Engine.contents).run recovered with
  | .ok contents _ => return (recovered.version, contents)
  | .error e _ => throw e

/-- Commits a table, then another on a store that lets so many more bytes
through, then a third after the store is well again. -/
def steps (failAfter : Nat) : Edit Engine Result := do
  addTable "a"
  turn (·.failAppendsAfter failAfter)
  let failed ← Edit.attempt (addTable "b")
  let e ← get
  let (_, atFailure) ← recoveredContents
  turn (·.heal)
  addTable "c"
  let (version, healed) ← recoveredContents
  return {
    failed, tripped := tripped e, stored := (stored e).length
    atFailure, version, healed }

/-- The whole trial on a new database. -/
def trial (failAfter : Nat) : Except Error Result := do
  match (steps failAfter).run (← newDatabase) with
  | .ok result _ => return result
  | .error e _ => throw e

end Colonnade.Trial.Faults
