/-
The program: reads what is asked for from its arguments, the history from
the database directory, and prints the report. Nothing is decided here.

Chain: `CommandLine` reads the arguments, `Report` makes the reports.
-/
import Colonnade.CommandLine
import Colonnade.Host
import Colonnade.Release

namespace Colonnade.Program

/-- The history in a database directory, if there is one. -/
def historyIn (path : String) : IO (Option Bytes) := do
  let file := Path.join path Host.historyFile
  match ← (IO.FS.readBinFile file).toBaseIO with
  | .ok contents => return some contents.toList
  | .error (.noFileOrDirectory _ _ _) => return none
  | .error other => throw other

/-- Carries a task out and gives the code to exit with. -/
def carryOut : CommandLine.Task → IO UInt32
  | .version => do
    IO.println s!"Columba CLI v{release}"
    IO.println s!"Columba Core v{release}"
    return 0
  | .report path command form => do
    match command.run .checked path (← historyIn path) form with
    | none =>
      IO.eprintln "attempt to add with overflow"
      return 101
    | some outcome =>
      IO.print outcome.printed
      match outcome.failure with
      | none => return 0
      | some reason =>
        IO.eprintln s!"Error: {reason}"
        return 1

end Colonnade.Program

open Colonnade in
/-- Answers the exit code: 2 if nothing that can be done was asked for. -/
def main (arguments : List String) : IO UInt32 := do
  match CommandLine.read arguments with
  | .ok task => Program.carryOut task
  | .error misuse =>
    IO.eprintln s!"error: {misuse.message}"
    return 2
