/-
Byte stores: what a history log is kept in. A store appends, reads back,
flushes and cuts; what the bytes mean is not its business.

There are two stores proper. Memory is its bytes. An open file remembers
how long the file was when it was opened and what it appended since, and
goes by that length and not by what others do to the file meanwhile. Two
wrappers change how a store fails: `faulty` lets a set number of bytes
through and then fails, in the middle of an append if need be, and
`uncuttable` refuses to be cut.

Chain: `History.Log` keeps its records in one, `Host` shares the contents
of memory and files between those who opened them.
-/
import Colonnade.Config
import Colonnade.Error
import Colonnade.Text.Utf8

namespace Colonnade

-- ==================================================== the open file

/-- A file as its opener sees it: what the file holds, and how long the
opener takes it to be. -/
structure OpenFile where
  contents : Bytes
  knownSize : Nat
deriving DecidableEq, Repr, Inhabited

namespace OpenFile

/-- The contents cut or filled up with zeros to a length. -/
def resize (contents : Bytes) (n : Nat) : Bytes :=
  contents.take n ++ List.replicate (n - contents.length) 0

/-- A file just opened. -/
def opened (contents : Bytes) : OpenFile := ⟨contents, contents.length⟩

end OpenFile

-- ==================================================== the fault switch

/-- Addition that stops at the largest size. -/
def addSizes (a b : Nat) : Nat := min (a + b) maxSize

/-- What a faulty store is set to do, and what it has done so far. -/
structure Faults where
  /-- Appends fail once so many bytes have been let through. -/
  limit : Nat := maxSize
  /-- How many bytes have been let through. -/
  written : Nat := 0
  /-- Whether flushing and syncing fail. -/
  failFlush : Bool := false
  /-- Whether something has failed yet. -/
  tripped : Bool := false
deriving DecidableEq, Repr

namespace Faults

instance : Inhabited Faults := ⟨{}⟩

/-- Lets so many more bytes through. -/
def failAppendsAfter (f : Faults) (n : Nat) : Faults :=
  { f with limit := addSizes f.written n }

/-- Lets everything through again; what has tripped stays tripped. -/
def heal (f : Faults) : Faults :=
  { f with limit := maxSize, failFlush := false }

/-- Whether an append of so many bytes goes beyond the limit. -/
def refuses (f : Faults) (n : Nat) : Bool := f.limit < addSizes f.written n

/-- How many bytes still go through. -/
def room (f : Faults) : Nat := f.limit - f.written

/-- The switch after so many bytes went through. -/
def wrote (f : Faults) (n : Nat) : Faults :=
  { f with written := f.written + n }

/-- The switch after something failed. -/
def trip (f : Faults) : Faults := { f with tripped := true }

end Faults

-- ========================================================= stores

/-- A byte store. -/
inductive Store where
  | memory (bytes : Bytes)
  | file (f : OpenFile)
  | faulty (inner : Store) (faults : Faults)
  | uncuttable (inner : Store)
deriving DecidableEq, Repr

namespace Store

instance : Inhabited Store := ⟨memory []⟩

/-- What the store holds. -/
def bytes : Store → Bytes
  | memory bs => bs
  | file f => f.contents
  | faulty inner _ => inner.bytes
  | uncuttable inner => inner.bytes

/-- The store holding something else, as when others have changed it. -/
def withBytes (bs : Bytes) : Store → Store
  | memory _ => memory bs
  | file f => file { f with contents := bs }
  | faulty inner faults => faulty (inner.withBytes bs) faults
  | uncuttable inner => uncuttable (inner.withBytes bs)

/-- The fault switch of the store, if it has one. -/
def faults? : Store → Option Faults
  | faulty _ faults => some faults
  | uncuttable inner => inner.faults?
  | _ => none

/-- The store with its fault switch changed. -/
def mapFaults (g : Faults → Faults) : Store → Store
  | faulty inner faults => faulty inner (g faults)
  | uncuttable inner => uncuttable (inner.mapFaults g)
  | s => s

/-- How many bytes the store says it holds. -/
def size : Store → Nat
  | memory bs => bs.length
  | file f => f.knownSize
  | faulty inner _ => inner.size
  | uncuttable inner => inner.size

/-- The bytes of a range, if the whole range is there. -/
def readAt (offset length : Nat) : Store → Except StoreFault Bytes
  | memory bs =>
    if bs.length < offset || bs.length < addSizes offset length then
      .error (.readPastEnd offset length bs.length)
    else .ok ((bs.drop offset).take length)
  | file f =>
    if f.knownSize < offset || f.knownSize < addSizes offset length then
      .error (.readPastEnd offset length f.knownSize)
    else if length == 0 then .ok []
    else
      let found := (f.contents.drop offset).take length
      if found.length < length then
        .error (.io "failed to fill whole buffer")
      else .ok found
  | faulty inner _ => inner.readAt offset length
  | uncuttable inner => inner.readAt offset length

/-- Puts a wrapper back around the store that an operation left behind. -/
def rewrap {α : Type} (wrap : Store → Store) :
    EStateM.Result StoreFault Store α → EStateM.Result StoreFault Store α
  | .ok a s => .ok a (wrap s)
  | .error e s => .error e (wrap s)

/-- Adds bytes at the end and gives the place where they start. A faulty
store whose limit they would pass lets in what there is room for and
fails. -/
def append (data : Bytes) (s : Store) :
    EStateM.Result StoreFault Store Nat :=
  match s with
  | memory bs => .ok bs.length (memory (bs ++ data))
  | file f =>
    if data.isEmpty then .ok f.knownSize (file f)
    else
      .ok f.knownSize
        (file ⟨f.contents ++ data, f.knownSize + data.length⟩)
  | faulty inner faults =>
    if faults.refuses data.length then
      if faults.room = 0 then
        .error (.injected "append") (faulty inner faults.trip)
      else
        match inner.append (data.take faults.room) with
        | .ok _ inner =>
          .error (.injected "append")
            (faulty inner (faults.wrote faults.room).trip)
        | .error e inner => .error e (faulty inner faults)
    else
      match inner.append data with
      | .ok offset inner => .ok offset (faulty inner (faults.wrote data.length))
      | .error e inner => .error e (faulty inner faults)
  | uncuttable inner => rewrap uncuttable (inner.append data)

/-- Passes on an operation that only a fault switch makes fail. -/
def settle (operation : String) : Store → EStateM.Result StoreFault Store Unit
  | faulty inner faults =>
    if faults.failFlush then
      .error (.injected operation) (faulty inner faults.trip)
    else rewrap (faulty · faults) (inner.settle operation)
  | uncuttable inner => rewrap uncuttable (inner.settle operation)
  | s => .ok () s

/-- Hands what was appended on to the medium. -/
def flush : EStateM StoreFault Store Unit := settle "flush"

/-- Has everything on the medium. -/
def sync : EStateM StoreFault Store Unit := settle "sync"

/-- Cuts the store to a length. -/
def truncate (n : Nat) : Store → EStateM.Result StoreFault Store Unit
  | memory bs =>
    if bs.length < n then
      .error (.truncateBeyondEnd n bs.length) (memory bs)
    else .ok () (memory (bs.take n))
  | file f =>
    if f.knownSize < n then
      .error (.truncateBeyondEnd n f.knownSize) (file f)
    else .ok () (file ⟨OpenFile.resize f.contents n, n⟩)
  | faulty inner faults => rewrap (faulty · faults) (inner.truncate n)
  | uncuttable inner => .error (.injected "truncate") (uncuttable inner)

end Store

/-- The bytes with one of them inverted, if it is there. -/
def corruptByte (offset : Nat) (bs : Bytes) : Except StoreFault Bytes :=
  match bs[offset]? with
  | some b => .ok (bs.set offset (b ^^^ 0xFF))
  | none => .error (.readPastEnd offset 1 bs.length)

end Colonnade
