/-
Counters of what an engine has done since it was opened. They only grow, and
here they do so without end: a counter that is kept in a word of 64 bits says
the same until one of them would come to 2^64.

Chain: part of `Engine`; each operation counts itself where it takes
effect.
-/

namespace Colonnade

/-- What an engine has done since it was opened. -/
structure Stats where
  readTransactions : Nat := 0
  writeTransactions : Nat := 0
  commits : Nat := 0
  rollbacks : Nat := 0
  advances : Nat := 0
  instructions : Nat := 0
  historyBytes : Nat := 0
  staleHandleUses : Nat := 0
  versionsReclaimed : Nat := 0
deriving DecidableEq, Repr

instance : Inhabited Stats := ⟨{}⟩

end Colonnade
