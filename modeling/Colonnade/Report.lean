/-
The reports as commands. None of them changes a database: each works on a
copy of its history.

Chain: the command line reads a `Command` from its arguments.
-/
import Colonnade.Report.DumpHistory
import Colonnade.Report.Inspect
import Colonnade.Report.Verify

namespace Colonnade.Report

/-- What to report on. -/
inductive Command where
  | inspect (showColumns : Bool)
  | verify
  | dumpHistory (limit : Option Nat) (fromVersion : Version)
deriving DecidableEq

/-- The name of a command. -/
def Command.name : Command → String
  | inspect _ => "inspect"
  | verify => "verify"
  | dumpHistory _ _ => "dump-history"

/-- Reports on the database in a directory, whose history is given. There is
no outcome if the program breaks off. -/
def Command.run (sums : Sums) (path : String) (history : Option Bytes)
    (form : Form) : Command → Option Outcome
  | inspect showColumns => some (Report.inspect path history showColumns form)
  | verify => Report.verify sums path history form
  | dumpHistory limit fromVersion =>
    some (Report.dumpHistory path history limit fromVersion form)

end Colonnade.Report
