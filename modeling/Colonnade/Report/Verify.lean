/-
The report on whether a history is sound: every record is read and checked,
the versions must follow each other without a gap, and the whole must
replay. Gaps are all reported, in the order of the records, each against
the version of the record before it; damage ends the report. A torn tail is
no fault.

Versions are words and come from the history. What the sum of the largest
word and one comes to is a choice of the build: words start over at zero, or
sums are checked and the program breaks off with no report at all.

Chain: reads with `History.read`, replays with `Engine.openOver`.
-/
import Colonnade.Engine
import Colonnade.Report.Json
import Colonnade.Report.Layout

namespace Colonnade.Report

/-- How the sum of two words is built: what is beyond the largest word starts
over at zero, or it ends the program. -/
inductive Sums where
  | wrapping
  | checked
deriving DecidableEq, Repr

/-- The version after another, if there is a word for it. -/
def Sums.next? (sums : Sums) (v : Version) : Option Version :=
  match sums with
  | wrapping => some v.next
  | checked => if v.raw.toNat + 1 < UInt64.size then some v.next else none

/-- What was found in a history. -/
structure Verification where
  records : Nat := 0
  validBytes : Nat := 0
  tornTail : Nat := 0
  /-- The version that the history replays to, if it does. -/
  replayed : Option Version := none
  errors : List String := []
deriving DecidableEq, Repr

namespace Verification

/-- Whether nothing is wrong. -/
def isOk (v : Verification) : Bool := v.errors.isEmpty

-- ======================================================= gathering

/-- The last version seen, the gaps found so far, and whether a sum has ended
the program. -/
structure Progress where
  last : Version := .initial
  gaps : List String := []
  brokenOff : Bool := false

/-- Takes note of a record, unless the version to expect is no word. -/
def visit (sums : Sums) (offset : Nat) (r : CommitRecord) :
    Edit Progress Unit := do
  let p ← get
  match sums.next? p.last with
  | none =>
    set { p with brokenOff := true }
    throw (.fatal (.text "attempt to add with overflow"))
  | some expected =>
    let gap := s!"Version gap at offset {offset}: expected " ++
      s!"{expected.raw}, found {r.version.raw}"
    set { p with
      last := r.version
      gaps := if r.version = expected then p.gaps else p.gaps ++ [gap] }

/-- The version that a history replays to, or why it does not. What opening
cuts off it cuts off a copy, which is dropped. -/
def replay (history : Bytes) : Except Error Version := do
  return (← (Engine.openOver (.memory history) {}).1).version

/-- What is found in a history that was read to its end. -/
def found (history : Bytes) (done : History.Summary) (p : Progress) :
    Verification :=
  let read : Verification :=
    { records := done.records
      validBytes := done.validLength
      tornTail := done.tornTail
      errors := p.gaps }
  if p.gaps.isEmpty then
    match replay history with
    | .ok v => { read with replayed := some v }
    | .error e => { read with errors := [s!"Replay failed: {e}"] }
  else read

/-- What is found in a history kept in memory; nothing if the program broke
off. -/
def gather (sums : Sums) : Edit Bytes (Option Verification) := do
  let history ← get
  match (History.read (.memory history) (visit sums)).run {} with
  | .ok done p => return some (found history done p)
  | .error e p =>
    if p.brokenOff then
      return none
    return some { errors := p.gaps ++ [e.message] }

-- ========================================================= writing

def json (v : Verification) : Json :=
  .object
    ([("records", .number v.records), ("valid_bytes", .number v.validBytes),
      ("torn_tail", .number v.tornTail)] ++
        Json.field? "replayed_version"
          (v.replayed.map fun r => .number r.raw.toNat) ++
        [("errors", .list (v.errors.map .text))])

def text (path : String) (v : Verification) : String :=
  lines
    ([s!"Verifying database at {path}", "", s!"  Records:     {v.records}",
      s!"  Valid bytes: {v.validBytes}"] ++
      (if 0 < v.tornTail then
        [s!"  Torn tail:   {v.tornTail} bytes (dropped on next open)"]
       else []) ++
      (match v.replayed with
       | some r => [s!"  Replays to:  version {r.raw}"]
       | none => []) ++
      v.errors.map ("  Error: " ++ ·) ++
      ["", if v.isOk then "Verification passed" else "Verification failed"])

end Verification

/-- The command that reports on whether a history is sound; it has no outcome
if the program breaks off. -/
def verify (sums : Sums) (path : String) (history : Option Bytes)
    (form : Form) : Option Outcome :=
  withHistory path history some fun bytes =>
    match (Verification.gather sums).run bytes with
    | .error e _ => some (.failed e.message)
    | .ok none _ => none
    | .ok (some v) _ =>
      let failure := if v.isOk then none else some "Verification failed"
      match form with
      | .json => some ⟨lines [v.json.render 0], failure⟩
      | .text => some ⟨v.text path, failure⟩

end Colonnade.Report
