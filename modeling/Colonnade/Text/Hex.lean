/-
Hexadecimal text of fixed width: checksums are written in error messages
with eight lower-case digits, leading zeros included, and runs of bytes with
two digits a byte. Reading takes the digits of either case.

Chain: used by the messages of `Error` and wherever bytes are shown.
-/

namespace Colonnade.Text

/-- The lower-case digit for a number below sixteen. -/
def hexDigit (n : Nat) : Char :=
  if n < 10 then Char.ofNat (48 + n) else Char.ofNat (87 + n)

/-- The last `width` hexadecimal digits of a number, high ones first. -/
def hexDigits : Nat → Nat → List Char
  | 0, _ => []
  | width + 1, n => hexDigits width (n / 16) ++ [hexDigit (n % 16)]

/-- The eight digits of a 32-bit word. -/
def hex32 (w : UInt32) : String := String.ofList (hexDigits 8 w.toNat)

/-- The number that a digit stands for; what is no digit counts as zero. -/
def digitValue (c : Char) : Nat :=
  if '0' ≤ c ∧ c ≤ '9' then c.toNat - 48
  else if 'a' ≤ c ∧ c ≤ 'f' then c.toNat - 87
  else if 'A' ≤ c ∧ c ≤ 'F' then c.toNat - 55
  else 0

/-- The number that digits stand for. -/
def numberOfHex (s : String) : Nat :=
  s.toList.foldl (fun n c => n * 16 + digitValue c) 0

/-- Bytes with two digits each. -/
def hexOfBytes (bs : List UInt8) : String :=
  String.ofList (bs.flatMap fun b => hexDigits 2 b.toNat)

/-- The bytes that pairs of digits stand for; a lone digit at the end stands
for nothing. -/
def bytesOfHex (s : String) : List UInt8 := pairs s.toList
where
  /-- The bytes of pairs of digits. -/
  pairs : List Char → List UInt8
    | a :: b :: rest =>
      UInt8.ofNat (digitValue a * 16 + digitValue b) :: pairs rest
    | _ => []

end Colonnade.Text
