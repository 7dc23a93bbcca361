/-
The trials: recovery after crashes, stores that fail, the engine against a
plain model of one table, the ledger under concurrent readers, and a
populated database to look at.

Chain: each trial is a module of this folder.
-/
import Colonnade.Trial.Crash
import Colonnade.Trial.Faults
import Colonnade.Trial.Ledger
import Colonnade.Trial.People
import Colonnade.Trial.RowTable
