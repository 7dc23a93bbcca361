/-
Texts that come in across the boundary: a run of bytes, or nothing. The
size is checked before the bytes are looked at.

Chain: names and strings of `Boundary.Session` and `Boundary.Export`.
-/
import Colonnade.Boundary.Fault
import Colonnade.Value

namespace Colonnade.Boundary

/-- Bytes that should be a text, or nothing. -/
abbrev TextArgument := Option Bytes

namespace TextArgument

def isNull (t : TextArgument) : Bool := t.isNone

def length (t : TextArgument) : Nat := (t.map List.length).getD 0

def isNullOrEmpty (t : TextArgument) : Bool := length t == 0

/-- The text, which must not be longer than a limit. -/
def toText? (t : TextArgument) (limit : Nat) :
    Except Fault (Option String) := do
  match t with
  | none => return none
  | some bytes =>
    if limit < bytes.length then
      throw (.core (.illegalArgument
        (.stringTooLong bytes.length limit none)))
    match Utf8.decode bytes with
    | .ok s => return some s
    | .error place => throw (.invalidUtf8 place)

/-- The text as a value; nothing is absence. -/
def toValue (t : TextArgument) (limit : Nat) : Except Fault Value := do
  match ← toText? t limit with
  | none => return .null
  | some s => return .string s

end TextArgument

end Colonnade.Boundary
