/-
Sessions over databases that are open on a host. The host keeps the engine;
around each call the session is given it and gives it back.

Chain: joins `Host` and `Boundary.Session`; the outermost calls of the
boundary open and free sessions here.
-/
import Colonnade.Boundary.Export
import Colonnade.Host

namespace Colonnade.Boundary

/-- A session by the number of its engine on the host, and what it has lent
out. -/
structure HostedSession where
  number : Nat
  session : Session
deriving Inhabited

namespace HostedSession

/-- The session over an engine that was just opened. -/
def ofNumber (number : Nat) (config : Config) (path : Option String) :
    HostedSession :=
  ⟨number, { engine := default, config, path }⟩

/-- A session over a database in memory. -/
def openInMemory (config : Config) : Edit Host HostedSession := do
  return ofNumber (← Host.openInMemory config) config none

/-- A session over the database in a directory. -/
def openDirectory (path : String) (config : Config) :
    Edit Host HostedSession := do
  return ofNumber (← Host.openDirectory path config) config (some path)

/-- Runs a call; its failure is handed on as a value, beside the session
after it. -/
def run {α : Type} (h : HostedSession) (call : Call α) :
    Edit Host (Except Fault α × HostedSession) := do
  let (outcome, session) ← Host.onEngine h.number fun engine =>
    match call.run { h.session with engine } with
    | .ok a s => .ok (Except.ok a, s) s.engine
    | .error f s => .ok (.error f, s) s.engine
  return (outcome, { h with session })

/-- Ends a session: its transactions are dropped, and the database loses an
owner. -/
def free (h : HostedSession) : Edit Host Unit := do
  for (_, t) in h.session.transactions.entries do
    Host.dropTransaction h.number t.id
  Host.release h.number

-- ==================================== opening across the boundary

/-- Opens a session over a database in memory; without a place for it the
session is gone again. -/
def exportInMemory (place : Bool) :
    Edit Host (Except Fault HostedSession) := do
  let h ← openInMemory {}
  if place then
    return .ok h
  free h
  return .error (.nullPointer "out_session")

/-- Opens a session over the database in a directory, whose path is a text
that a NUL ends. -/
def exportDirectory (path : Option Bytes) (place : Bool) :
    Edit Host (Except Fault HostedSession) := do
  match path with
  | none => return .error (.nullPointer "path")
  | some bytes =>
    match Utf8.decode (bytes.takeWhile (· != 0)) with
    | .error why => return .error (.invalidUtf8 why)
    | .ok path =>
      match ← Edit.attempt (openDirectory path {}) with
      | .error e => return .error (.core e)
      | .ok h =>
        if place then
          return .ok h
        free h
        return .error (.nullPointer "out_session")

end HostedSession

end Colonnade.Boundary
