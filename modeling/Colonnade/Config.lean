/-
How a database is opened, and the size limits that its writes obey.

Chain: `Limits` is what instructions are applied under; the rest steers
opening and committing.
-/

namespace Colonnade

/-- The longest string and the longest binary value that a write may store,
in bytes. -/
structure Limits where
  maxString : Nat
  maxBinary : Nat
deriving DecidableEq, Repr

/-- The largest size that a machine word can state; no stored value is
longer. -/
def maxSize : Nat := 0xFFFFFFFFFFFFFFFF

/-- The limits of replay: what was once committed is not measured again. -/
def Limits.none : Limits := ⟨maxSize, maxSize⟩

/-- How a database is opened. -/
structure Config where
  /-- Make the directory and the history when they are missing. -/
  createIfMissing : Bool := true
  /-- Refuse a directory that holds history already. -/
  errorIfExists : Bool := false
  /-- Have the history on the medium before a commit is published. -/
  syncOnCommit : Bool := true
  /-- The longest string, in bytes of UTF-8. -/
  maxString : Nat := 0xFFFFF8 - 9
  /-- The longest binary value, in bytes. -/
  maxBinary : Nat := 0xFFFFF8 - 8
  /-- The format number that new records carry. -/
  formatVersion : UInt16 := 1
deriving DecidableEq, Repr

instance : Inhabited Config := ⟨{}⟩

/-- The limits of a configuration. -/
def Config.limits (c : Config) : Limits := ⟨c.maxString, c.maxBinary⟩

end Colonnade
