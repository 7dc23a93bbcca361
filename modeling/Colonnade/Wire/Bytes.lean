/-
Numbers as bytes, low byte first, and the reader that takes a payload apart.
A reader works on the bytes that are left and hands on the rest; asking for
more than is left is its own kind of damage. Lengths come from the payload
itself and are not trusted: `takeExactly` walks the bytes that are there
and never further.

Chain: `Wire.Instruction` and `Wire.Record` are written in these terms.
-/
import Colonnade.Error
import Colonnade.Text.Utf8

namespace Colonnade.Wire

-- ==================================================== little-endian

/-- The low `width` bytes of a number, the lowest first. -/
def leBytes : Nat → Nat → Bytes
  | 0, _ => []
  | width + 1, n => UInt8.ofNat n :: leBytes width (n / 256)

/-- The number that bytes spell, the lowest first. -/
def leValue : Bytes → Nat
  | [] => 0
  | b :: bs => b.toNat + 256 * leValue bs

theorem length_leBytes (width n : Nat) : (leBytes width n).length = width := by
  induction width generalizing n with
  | zero => rfl
  | succ w ih => simp [leBytes, ih]

/-- A number that fits the width is read back. -/
theorem leValue_leBytes (width n : Nat) :
    leValue (leBytes width n) = n % Nat.pow 256 width := by
  induction width generalizing n with
  | zero => exact (Nat.mod_one n).symm
  | succ w ih =>
    have hpow : Nat.pow 256 (w + 1) = 256 * Nat.pow 256 w :=
      Nat.mul_comm _ _
    rw [leBytes, leValue, ih, hpow, Nat.mod_mul]
    simp

/-- Bytes are the low bytes of the number that they spell. -/
theorem leBytes_leValue (bs : Bytes) :
    leBytes bs.length (leValue bs) = bs := by
  induction bs with
  | nil => rfl
  | cons b bs ih =>
    have hlow : UInt8.ofNat (b.toNat + 256 * leValue bs) = b := by
      apply UInt8.toNat_inj.1
      have := b.toNat_lt
      simp only [UInt8.toNat_ofNat']
      omega
    have hrest : (b.toNat + 256 * leValue bs) / 256 = leValue bs := by
      have := b.toNat_lt
      omega
    simp only [List.length_cons, leValue, leBytes, hlow, hrest, ih]

-- ====================================================== the reader

/-- Takes exactly so many bytes from the front, if they are there. -/
def takeExactly : Nat → Bytes → Option (Bytes × Bytes)
  | 0, bs => some ([], bs)
  | _ + 1, [] => none
  | n + 1, b :: bs =>
    (takeExactly n bs).map fun (front, rest) => (b :: front, rest)

theorem takeExactly_eq (n : Nat) (bs : Bytes) :
    takeExactly n bs =
      if n ≤ bs.length then some (bs.take n, bs.drop n) else none := by
  induction n generalizing bs with
  | zero => simp [takeExactly]
  | succ n ih =>
    cases bs with
    | nil => simp [takeExactly]
    | cons b bs =>
      rw [takeExactly, ih]
      by_cases h : n ≤ bs.length <;> simp [h]

/-- A step that reads from the front of a payload. -/
abbrev Reader (α : Type) := StateT Bytes (Except Corruption) α

namespace Reader

/-- Gives up on the payload. -/
def fail {α : Type} (what : Corruption) : Reader α := fun _ => .error what

/-- So many bytes. -/
def bytes (n : Nat) : Reader Bytes := fun bs =>
  match takeExactly n bs with
  | some taken => .ok taken
  | none => .error .unexpectedEnd

/-- A natural number of so many bytes. -/
def nat (width : Nat) : Reader Nat := leValue <$> bytes width

/-- One byte. -/
def u8 : Reader UInt8 := UInt8.ofNat <$> nat 1

/-- A 32-bit word. -/
def u32 : Reader UInt32 := UInt32.ofNat <$> nat 4

/-- A 64-bit word. -/
def u64 : Reader UInt64 := UInt64.ofNat <$> nat 8

/-- A signed 32-bit word. -/
def i32 : Reader Int32 := UInt32.toInt32 <$> u32

/-- A signed 64-bit word. -/
def i64 : Reader Int64 := UInt64.toInt64 <$> u64

/-- Bytes after their count. -/
def counted : Reader Bytes := do
  let n ← u64
  bytes n.toNat

/-- A text after the count of its bytes. -/
def text : Reader String := do
  match Utf8.decode? (← counted) with
  | some s => pure s
  | none => fail .notUtf8

end Reader

-- ====================================================== the writer

def u32Bytes (n : UInt32) : Bytes := leBytes 4 n.toNat

def u64Bytes (n : UInt64) : Bytes := leBytes 8 n.toNat

def i32Bytes (n : Int32) : Bytes := u32Bytes n.toUInt32

def i64Bytes (n : Int64) : Bytes := u64Bytes n.toUInt64

/-- Bytes after their count. -/
def countedBytes (bs : Bytes) : Bytes := leBytes 8 bs.length ++ bs

/-- A text after the count of its bytes. -/
def textBytes (s : String) : Bytes := countedBytes (Utf8.encode s)

end Colonnade.Wire
