/-
Commit records as frames of bytes:

    magic (4) | format (2) | kind (1) | payload length (4) |
    checksum of these (4) | payload | checksum of all before (4)

The header has a checksum of its own, so that the length is known to be
right before anything is skipped or waited for on its word: damage to a
length cannot pass for a record that was cut off. The payload is the
version, the count of instructions, and the instructions.

Chain: `History.Reader` walks a log frame by frame.
-/
import Colonnade.Wire.Crc32
import Colonnade.Wire.Instruction

namespace Colonnade

/-- What one commit writes to the history. -/
structure CommitRecord where
  version : Version
  instructions : List Instruction
deriving DecidableEq, Inhabited

namespace Wire

-- ==================================================== fixed fields

/-- The bytes that every record starts with. -/
def magic : Bytes := [0x43, 0x4C, 0x48, 0x53]

/-- The newest format that the reader knows. -/
def newestFormat : UInt16 := 1

/-- The kinds of record that there are. -/
inductive RecordType where
  | commit
deriving DecidableEq, Repr

namespace RecordType

def byte : RecordType → UInt8
  | commit => 1

def ofByte? (b : UInt8) : Option RecordType :=
  if b == 1 then some commit else none

end RecordType

/-- How long the checksummed part of a header is. -/
def headerFields : Nat := 11

/-- How long a checksum is. -/
def checksumSize : Nat := 4

/-- How long a header is. -/
def headerSize : Nat := headerFields + checksumSize

/-- The largest number that a count of four bytes can hold. -/
def maxCount : Nat := 0xFFFFFFFF

-- ========================================================== writing

/-- The payload of a record. -/
def payloadBytes (r : CommitRecord) : Bytes :=
  u64Bytes r.version.raw ++ leBytes 4 r.instructions.length ++
    r.instructions.flatMap instructionBytes

/-- The header fields of a frame. -/
def headerBytes (format : UInt16) (payloadLength : Nat) : Bytes :=
  magic ++ leBytes 2 format.toNat ++ [RecordType.commit.byte] ++
    leBytes 4 payloadLength

/-- Bytes followed by their checksum. -/
def closed (bs : Bytes) : Bytes := bs ++ u32Bytes (crc32 bs)

/-- A payload as a frame. -/
def frame (format : UInt16) (payload : Bytes) : Bytes :=
  closed (closed (headerBytes format payload.length) ++ payload)

/-- A record as a frame, unless its counts do not fit their fields. -/
def encode (format : UInt16) (r : CommitRecord) : Except Error Bytes := do
  if maxCount < r.instructions.length then
    throw (.illegalArgument .tooManyInstructions)
  let payload := payloadBytes r
  if maxCount < payload.length then
    throw (.illegalArgument .payloadTooLarge)
  return frame format payload

-- ========================================================== reading

/-- What a header says about its frame. -/
structure Header where
  format : UInt16
  payloadLength : Nat
deriving DecidableEq, Repr

namespace Header

/-- How long the whole frame is. -/
def frameLength (h : Header) : Nat :=
  headerSize + h.payloadLength + checksumSize

/-- Reads a header, trusting nothing in it before its checksum is right. -/
def parse (bs : Bytes) : Except Corruption Header := do
  if bs.length < headerSize || bs.take 4 != magic then
    throw .badMagic
  let stored := UInt32.ofNat (leValue ((bs.drop headerFields).take 4))
  let computed := crc32 (bs.take headerFields)
  if stored != computed then
    throw (.headerChecksum stored computed)
  let format := UInt16.ofNat (leValue ((bs.drop 4).take 2))
  if format == 0 || newestFormat < format then
    throw (.unsupportedFormat format)
  let kind := UInt8.ofNat (leValue ((bs.drop 6).take 1))
  if (RecordType.ofByte? kind).isNone then
    throw (.unknownRecordType kind)
  return ⟨format, leValue ((bs.drop 7).take 4)⟩

end Header

/-- The payload of a frame whose closing checksum is right. -/
def verifyFrame (offset : Nat) (bs : Bytes) : Except Error Bytes :=
  let body := bs.take (bs.length - checksumSize)
  let stored := UInt32.ofNat (leValue (bs.drop (bs.length - checksumSize)))
  let computed := crc32 body
  if stored != computed then .error (.checksum offset stored computed)
  else .ok (body.drop headerSize)

/-- Reads a record from a payload and leaves nothing of it. -/
def Reader.record : Reader CommitRecord := do
  let version ← u64
  let count ← u32
  let is ← instructions count.toNat
  if !(← get).isEmpty then
    fail .trailingBytes
  return ⟨⟨version⟩, is⟩

/-- The record in a payload. -/
def decodePayload (payload : Bytes) : Except Corruption CommitRecord :=
  (Reader.record.run payload).map (·.1)

end Wire

end Colonnade
