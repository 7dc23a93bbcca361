/-
Lines and columns of plain reports. A column is filled up to its width,
which counts characters; what is wider is written in full.

Chain: used by the reports of this folder.
-/

namespace Colonnade.Report

/-- A text in a column, blanks after it. -/
def alignLeft (width : Nat) (s : String) : String :=
  String.ofList (s.toList.rightpad width ' ')

/-- A text in a column, blanks before it. -/
def alignRight (width : Nat) (s : String) : String :=
  String.ofList (s.toList.leftpad width ' ')

/-- Lines, each ended. -/
def lines (ls : List String) : String :=
  String.join (ls.map (· ++ "\n"))

/-- The form of a report. -/
inductive Form where
  | text
  | json
deriving DecidableEq, Repr

/-- What a command prints, and why it failed if it did. -/
structure Outcome where
  printed : String
  failure : Option String
deriving DecidableEq, Repr

/-- A command that failed before it printed anything. -/
def Outcome.failed (reason : String) : Outcome := ⟨"", some reason⟩

/-- What a command makes of the history to report on; no history means that
there is no database. -/
def withHistory {α : Type} (path : String) (history : Option (List UInt8))
    (ended : Outcome → α) (f : List UInt8 → α) : α :=
  match history with
  | some bytes => f bytes
  | none => ended (.failed s!"No database found at {path}")

end Colonnade.Report
