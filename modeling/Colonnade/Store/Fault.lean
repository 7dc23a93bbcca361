/-
What can go wrong in a byte store. A fault is a value that says what was
asked and what the store holds; its wording is fixed in one place here.

Chain: raised by `Store`, and carried by `Error.storage` once the history
log passes it on.
-/

namespace Colonnade

/-- Why a byte store refused an operation. -/
inductive StoreFault where
  /-- The file system reported a failure in these words. -/
  | io (reason : String)
  /-- The bytes asked for are not all there. -/
  | readPastEnd (offset length size : Nat)
  /-- A store can be cut shorter but not longer. -/
  | truncateBeyondEnd (requested size : Nat)
  /-- The named operation was made to fail. -/
  | injected (operation : String)
deriving DecidableEq, Repr, Inhabited

namespace StoreFault

/-- The text of the fault. -/
def message : StoreFault → String
  | io reason => s!"I/O error: {reason}"
  | readPastEnd offset length size =>
    s!"read beyond end of storage: offset {offset}, len {length}, size {size}"
  | truncateBeyondEnd requested size =>
    s!"cannot truncate to {requested} bytes, store holds {size}"
  | injected operation => s!"injected fault: {operation}"

instance : ToString StoreFault := ⟨message⟩

/-- The name of the kind of fault. -/
def kindName : StoreFault → String
  | io _ => "Io"
  | readPastEnd _ _ _ => "ReadPastEnd"
  | truncateBeyondEnd _ _ => "TruncateBeyondEnd"
  | injected _ => "Injected"

end StoreFault

end Colonnade
