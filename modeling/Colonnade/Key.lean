/-
The identifiers of the store: tables, columns, objects, committed versions
and transactions each have a key type of their own, so that one kind of key
cannot stand where another is meant. A key is a machine word, because that
is how it crosses the binding boundary and how it lies in the history log;
a counter that hands keys out therefore wraps at the width of its word. Only
the id of a transaction does neither, and no two transactions share one; it
is cut down to a word where it is shown.

Every key type carries the order of what it wraps. The order is lawful (equal
keys compare equal and only those), which is what lets the ordered maps of
the store be keyed by it.

Chain: the bottom of the library. Errors name keys, instructions carry
them, and tables, snapshots and transactions are indexed by them.
-/
import Std.Data.TreeMap

namespace Colonnade

-- ================================================== the key types

/-- Identifies a table within a database; handed out from 0 upward. -/
structure TableKey where
  raw : UInt32
deriving DecidableEq, Repr, Inhabited

/-- Identifies a column within a database; the zero key names no column. -/
structure ColumnKey where
  raw : Int64
deriving DecidableEq, Repr, Inhabited

/-- Identifies a row of a table; keys in use are never negative. -/
structure ObjectKey where
  raw : Int64
deriving DecidableEq, Repr, Inhabited

/-- The number of a committed version; 0 is the empty database. -/
structure Version where
  raw : UInt64
deriving DecidableEq, Repr, Inhabited

/-- Identifies a transaction of one engine; handed out from 1 upward. -/
structure TransactionId where
  raw : Nat
deriving DecidableEq, Repr, Inhabited

-- ============================================== the order of the keys

instance : Ord TableKey := ⟨fun a b => compare a.raw b.raw⟩
instance : Ord ColumnKey := ⟨fun a b => compare a.raw b.raw⟩
instance : Ord ObjectKey := ⟨fun a b => compare a.raw b.raw⟩
instance : Ord Version := ⟨fun a b => compare a.raw b.raw⟩
instance : Ord TransactionId := ⟨fun a b => compare a.raw b.raw⟩

instance : Std.TransOrd TableKey :=
  inferInstanceAs (Std.TransCmp (compareOn TableKey.raw))
instance : Std.TransOrd ColumnKey :=
  inferInstanceAs (Std.TransCmp (compareOn ColumnKey.raw))
instance : Std.TransOrd ObjectKey :=
  inferInstanceAs (Std.TransCmp (compareOn ObjectKey.raw))
instance : Std.TransOrd Version :=
  inferInstanceAs (Std.TransCmp (compareOn Version.raw))
instance : Std.TransOrd TransactionId :=
  inferInstanceAs (Std.TransCmp (compareOn TransactionId.raw))

theorem TableKey.eq_of_compare {a b : TableKey} (h : compare a b = .eq) :
    a = b := by
  cases a; cases b
  exact congrArg TableKey.mk (Std.LawfulEqOrd.eq_of_compare h)

theorem ColumnKey.eq_of_compare {a b : ColumnKey} (h : compare a b = .eq) :
    a = b := by
  cases a; cases b
  exact congrArg ColumnKey.mk (Std.LawfulEqOrd.eq_of_compare h)

theorem ObjectKey.eq_of_compare {a b : ObjectKey} (h : compare a b = .eq) :
    a = b := by
  cases a; cases b
  exact congrArg ObjectKey.mk (Std.LawfulEqOrd.eq_of_compare h)

theorem Version.eq_of_compare {a b : Version} (h : compare a b = .eq) :
    a = b := by
  cases a; cases b
  exact congrArg Version.mk (Std.LawfulEqOrd.eq_of_compare h)

theorem TransactionId.eq_of_compare {a b : TransactionId}
    (h : compare a b = .eq) : a = b := by
  cases a; cases b
  exact congrArg TransactionId.mk (Std.LawfulEqOrd.eq_of_compare h)

instance : Std.LawfulEqOrd TableKey := ⟨TableKey.eq_of_compare⟩
instance : Std.LawfulEqOrd ColumnKey := ⟨ColumnKey.eq_of_compare⟩
instance : Std.LawfulEqOrd ObjectKey := ⟨ObjectKey.eq_of_compare⟩
instance : Std.LawfulEqOrd Version := ⟨Version.eq_of_compare⟩
instance : Std.LawfulEqOrd TransactionId := ⟨TransactionId.eq_of_compare⟩

-- ================================================ the text of the keys

instance : ToString TableKey := ⟨fun k => s!"table:{k.raw}"⟩
instance : ToString ColumnKey := ⟨fun k => s!"col:{k.raw}"⟩
instance : ToString ObjectKey := ⟨fun k => s!"obj:{k.raw}"⟩
instance : ToString Version := ⟨fun v => s!"v{v.raw}"⟩

/-- The word that the id of a transaction is shown as. -/
def TransactionId.word (t : TransactionId) : UInt64 := UInt64.ofNat t.raw

instance : ToString TransactionId := ⟨fun t => s!"txn:{t.word}"⟩

-- ===================================================== operations

namespace ColumnKey

/-- The key that names no column. -/
def invalid : ColumnKey := ⟨0⟩

/-- Whether the key can name a column: column keys are positive. -/
def isValid (k : ColumnKey) : Bool := 0 < k.raw

end ColumnKey

namespace ObjectKey

/-- Reads a boundary integer as an object key; a negative one names none. -/
def ofRaw? (raw : Int64) : Option ObjectKey :=
  if 0 ≤ raw then some ⟨raw⟩ else none

/-- The order of object keys as the test that sorting takes. -/
def le (a b : ObjectKey) : Bool := a.raw ≤ b.raw

end ObjectKey

namespace Version

/-- The version of a database that nothing was committed to. -/
def initial : Version := ⟨0⟩

/-- The version that the next commit produces. -/
def next (v : Version) : Version := ⟨v.raw + 1⟩

end Version

end Colonnade
