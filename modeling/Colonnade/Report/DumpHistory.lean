/-
The report on the commits of a history: each record from a version on, up
to a number of them, with its instructions in full.

Chain: reads with `History.read`, writes instructions with `Detail`.
-/
import Colonnade.Detail
import Colonnade.Report.Json
import Colonnade.Report.Layout

namespace Colonnade.Report

/-- A record and where it starts. -/
structure ListedRecord where
  offset : Nat
  record : CommitRecord
deriving DecidableEq

namespace ListedRecord

-- ======================================================= gathering

/-- Lists a record if it is wanted and there is room. -/
def visit (limit : Option Nat) (fromVersion : Version) (offset : Nat)
    (r : CommitRecord) : Edit (List ListedRecord) Unit :=
  modify fun listed =>
    if fromVersion.raw ≤ r.version.raw ∧
        (limit.all fun n => listed.length < n) then
      listed ++ [⟨offset, r⟩]
    else listed

/-- The records of a history that are wanted. -/
def gather (history : Bytes) (limit : Option Nat) (fromVersion : Version) :
    Except Error (List ListedRecord) :=
  match (History.read (.memory history) (visit limit fromVersion)).run [] with
  | .ok _ listed => .ok listed
  | .error e _ => .error e

-- ========================================================= writing

def instructionJson (i : Instruction) : Json :=
  .object
    [("op", .text i.opName), ("detail", .text (Detail.instruction i))]

def json (l : ListedRecord) : Json :=
  .object
    [("offset", .number l.offset),
     ("version", .number l.record.version.raw.toNat),
     ("instructions", .list (l.record.instructions.map instructionJson))]

def textLines (l : ListedRecord) : List String :=
  let count := l.record.instructions.length
  let offset := alignRight 8 (toString l.offset)
  s!"[{offset}] version {l.record.version.raw} ({count} instructions)" ::
    l.record.instructions.map fun i =>
      "    " ++ alignLeft 14 i.opName ++ " " ++ Detail.instruction i

end ListedRecord

/-- The command that reports on the commits of a history. -/
def dumpHistory (path : String) (history : Option Bytes)
    (limit : Option Nat) (fromVersion : Version) (form : Form) : Outcome :=
  withHistory path history id fun bytes =>
    match ListedRecord.gather bytes limit fromVersion with
    | .error e => .failed e.message
    | .ok listed =>
      match form with
      | .json =>
        ⟨lines [(Json.list (listed.map (·.json))).render 0], none⟩
      | .text =>
        ⟨lines (listed.flatMap (·.textLines) ++
          ["", s!"Total: {listed.length} records"]), none⟩

end Colonnade.Report
