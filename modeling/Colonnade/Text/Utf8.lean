/-
Text as bytes. `encode` gives the UTF-8 bytes of a text and `decode` reads
them back; bytes that are not UTF-8 are refused with the place of the first
sequence that is not, and its length. A sequence is wrong from the first
byte that cannot continue it, so its length counts the bytes before that
one; a sequence that the input breaks off is incomplete and not wrong.

Chain: names and strings in the history log and texts that cross the
binding boundary.
-/

namespace Colonnade

/-- A sequence of bytes. -/
abbrev Bytes := List UInt8

namespace Utf8

/-- Where bytes stop being UTF-8. -/
inductive Fault where
  /-- So many bytes at this index are part of no character. -/
  | invalid (length index : Nat)
  /-- The input ends inside the character that starts at this index. -/
  | incomplete (index : Nat)
deriving DecidableEq, Repr

/-- The words for bytes that are not UTF-8. -/
def Fault.message : Fault → String
  | invalid n i => s!"invalid utf-8 sequence of {n} bytes from index {i}"
  | incomplete i => s!"incomplete utf-8 byte sequence from index {i}"

/-- Whether a byte continues a character. -/
def isContinuation (b : UInt8) : Bool := 0x80 ≤ b && b ≤ 0xBF

/-- Whether the two first bytes can begin a character of three bytes:
neither an overlong form nor a surrogate. -/
def begins3 (a b : UInt8) : Bool :=
  if a == 0xE0 then 0xA0 ≤ b && b ≤ 0xBF
  else if a == 0xED then 0x80 ≤ b && b ≤ 0x9F
  else isContinuation b

/-- Whether the two first bytes can begin a character of four bytes: neither
an overlong form nor beyond the last code point. -/
def begins4 (a b : UInt8) : Bool :=
  if a == 0xF0 then 0x90 ≤ b && b ≤ 0xBF
  else if a == 0xF4 then 0x80 ≤ b && b ≤ 0x8F
  else isContinuation b

/-- The first place, counted from `index`, where bytes stop being UTF-8. -/
def fault? (index : Nat) : Bytes → Option Fault
  | [] => none
  | a :: rest =>
    if a < 0x80 then fault? (index + 1) rest
    else if 0xC2 ≤ a && a ≤ 0xDF then
      match rest with
      | [] => some (.incomplete index)
      | b :: rest =>
        if isContinuation b then fault? (index + 2) rest
        else some (.invalid 1 index)
    else if 0xE0 ≤ a && a ≤ 0xEF then
      match rest with
      | [] => some (.incomplete index)
      | [b] =>
        some (if begins3 a b then .incomplete index else .invalid 1 index)
      | b :: c :: rest =>
        if !begins3 a b then some (.invalid 1 index)
        else if !isContinuation c then some (.invalid 2 index)
        else fault? (index + 3) rest
    else if 0xF0 ≤ a && a ≤ 0xF4 then
      match rest with
      | [] => some (.incomplete index)
      | [b] =>
        some (if begins4 a b then .incomplete index else .invalid 1 index)
      | [b, c] =>
        some (if !begins4 a b then .invalid 1 index
          else if isContinuation c then .incomplete index
          else .invalid 2 index)
      | b :: c :: d :: rest =>
        if !begins4 a b then some (.invalid 1 index)
        else if !isContinuation c then some (.invalid 2 index)
        else if !isContinuation d then some (.invalid 3 index)
        else fault? (index + 4) rest
    else some (.invalid 1 index)

/-- The bytes of a text. -/
def encode (s : String) : Bytes := s.toByteArray.data.toList

/-- The text that bytes spell, if they spell one. -/
def decode? (bs : Bytes) : Option String := String.fromUTF8? ⟨bs.toArray⟩

/-- The text that bytes spell, or where they stop spelling one. -/
def decode (bs : Bytes) : Except Fault String :=
  match decode? bs with
  | some s => .ok s
  | none => .error ((fault? 0 bs).getD (.incomplete 0))

/-- What was encoded is read back. -/
theorem decode?_encode (s : String) : decode? (encode s) = some s := by
  have h : ByteArray.mk (encode s).toArray = s.toByteArray := by
    simp [encode]
  rw [decode?, h, String.fromUTF8?, dif_pos s.isValidUTF8]
  rfl

/-- Only the encoding of a text is read as that text. -/
theorem encode_of_decode? {bs : Bytes} {s : String}
    (h : decode? bs = some s) : encode s = bs := by
  simp only [decode?, String.fromUTF8?] at h
  split at h
  · cases h
    simp [encode, String.fromUTF8]
  · cases h

end Utf8

end Colonnade
