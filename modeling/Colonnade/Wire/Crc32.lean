/-
The 32-bit cyclic redundancy check in its reflected form: polynomial
0xEDB88320, the register starting at all ones and inverted at the end.

Each step on the register is invertible once the byte is known, which is
why two messages that differ in one byte only never share a checksum.

Chain: `Wire.Record` closes headers and frames with it.
-/
import Colonnade.Text.Utf8

namespace Colonnade.Wire

/-- The generator polynomial, low powers in the high bits. -/
def crcPolynomial : UInt32 := 0xEDB88320

/-- Divides the register by one power of the variable. -/
def crcShift (r : UInt32) : UInt32 :=
  if r &&& 1 == 1 then (r >>> 1) ^^^ crcPolynomial else r >>> 1

/-- Takes one byte into the register. -/
def crcByte (r : UInt32) (b : UInt8) : UInt32 :=
  Nat.repeat crcShift 8 (r ^^^ b.toUInt32)

/-- The checksum of a message. -/
def crc32 (message : Bytes) : UInt32 :=
  message.foldl crcByte 0xFFFFFFFF ^^^ 0xFFFFFFFF

-- the standard check value: the checksum of the digits one to nine
example :
    crc32 [0x31, 0x32, 0x33, 0x34, 0x35, 0x36, 0x37, 0x38, 0x39] =
      0xCBF43926 := by
  decide +kernel

end Colonnade.Wire
