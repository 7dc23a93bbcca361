/-
The side of the boundary that a foreign caller sees: sessions behind
pointers, and one record of the last error. Each call answers a code and,
if it succeeded, a result for the place that the caller gave. A pointer
that leads to no session counts as null.

Chain: above `Boundary.Export` and `Boundary.Hosted`.
-/
import Colonnade.Boundary.Hosted

namespace Colonnade.Boundary

/-- A host with the sessions that are open on it, and the last error. -/
structure Foreign where
  host : Host := {}
  sessions : Std.TreeMap Nat HostedSession := ∅
  nextPointer : Nat := 1
  lastError : Option LastError := none

/-- How a call ended, and its result if it succeeded. -/
abbrev Reply (α : Type) := ResultCode × Option α

namespace Foreign

instance : Inhabited Foreign := ⟨{}⟩

/-- Records how a call ended. -/
def record {α : Type} (outcome : Except Fault α) : StateM Foreign (Reply α) := do
  let (code, lastError) := guarded outcome
  modify fun s => { s with lastError }
  return (code, outcome.toOption)

/-- Forgets the last error. -/
def clearError : StateM Foreign Unit :=
  modify fun s => { s with lastError := none }

/-- Runs an edit of the host. -/
def onHost {α : Type} (e : Edit Host α) : StateM Foreign (Except Fault α) :=
  fun s =>
    match e.run s.host with
    | .ok a host => (.ok a, { s with host })
    | .error err host => (.error (.core err), { s with host })

/-- Opens a session in some way and gives a pointer to it. -/
def openBy (e : Edit Host (Except Fault HostedSession)) :
    StateM Foreign (Reply Nat) := do
  match (← onHost e) >>= id with
  | .error f => record (.error f)
  | .ok h =>
    let pointer := (← get).nextPointer
    modify fun s =>
      { s with
        sessions := s.sessions.insert pointer h, nextPointer := pointer + 1 }
    record (.ok pointer)

/-- Opens a session over a database in memory. -/
def openInMemory (place : Bool) : StateM Foreign (Reply Nat) :=
  openBy (HostedSession.exportInMemory place)

/-- Opens a session over the database in a directory. -/
def openDirectory (path : Option Bytes) (place : Bool) : StateM Foreign (Reply Nat) :=
  openBy (HostedSession.exportDirectory path place)

/-- Ends the session behind a pointer; nothing happens behind a null. -/
def free (pointer : Option Nat) : StateM Foreign Unit := do
  match pointer.bind ((← get).sessions[·]?), pointer with
  | some h, some p =>
    let _ ← onHost h.free
    modify fun s => { s with sessions := s.sessions.erase p }
  | _, _ => return

/-- Runs an export on the session behind a pointer. -/
def run {α : Type} (pointer : Option Nat) (e : Export α) :
    StateM Foreign (Except Fault α) := do
  match pointer.bind ((← get).sessions[·]?), pointer with
  | some h, some p =>
    let call : Call α := fun s =>
      match e.run (some s) with
      | .ok a after => .ok a (after.getD s)
      | .error f after => .error f (after.getD s)
    match ← onHost (h.run call) with
    | .ok (outcome, h) =>
      modify fun s => { s with sessions := s.sessions.insert p h }
      return outcome
    | .error f => return .error f
  | _, _ =>
    match e.run none with
    | .ok a _ => return .ok a
    | .error f _ => return .error f

/-- Runs an export and records how it ended. -/
def call {α : Type} (pointer : Option Nat) (e : Export α) :
    StateM Foreign (Reply α) := do
  record (← run pointer e)

/-- Begins a write transaction; nothing at all if the caller would have to
wait for another. -/
def beginWrite? (pointer : Option Nat) (place : Bool) :
    StateM Foreign (Option (Reply Int64)) := do
  match ← run pointer (Export.beginWrite? place) with
  | .ok none => return none
  | .ok (some h) => some <$> record (.ok h)
  | .error f => some <$> record (.error f)

/-- Whether a handle reaches an object; asking is not recorded. -/
def objectIsValid (pointer : Option Nat) (object : Int64) :
    StateM Foreign UInt8 := do
  let outcome ← run pointer fun s => .ok (Export.objectIsValid s object) s
  return outcome.toOption.getD 0

end Foreign

end Colonnade.Boundary
