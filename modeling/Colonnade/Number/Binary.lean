/-
Binary floating-point numbers by their bit patterns. A cell keeps the
pattern it was given, payloads of NaNs and the sign of zero included;
comparison is that of the standard and therefore not equality of patterns:
a NaN equals nothing and the two zeros equal each other.

`Layout.decode` reads a pattern as an exact number: a natural mantissa
times a power of two. Printing works from there in exact arithmetic.

Chain: `Single` and `Double` are leaves of `Value`; `Number.Shortest` works
on what `decode` gives.
-/

namespace Colonnade.Number

/-- How many bits of a pattern hold the fraction and the exponent. -/
structure Layout where
  fractionBits : Nat
  exponentBits : Nat
deriving DecidableEq, Repr

/-- What a pattern stands for; a finite number is
`mantissa * 2 ^ exponent`. -/
inductive Binary where
  | nan
  | infinite (negative : Bool)
  | finite (negative : Bool) (mantissa : Nat) (exponent : Int)
deriving DecidableEq, Repr

namespace Layout

/-- The layout of 32-bit numbers. -/
def single : Layout := ⟨23, 8⟩

/-- The layout of 64-bit numbers. -/
def double : Layout := ⟨52, 11⟩

/-- The low bits of a pattern. -/
def fraction (l : Layout) (bits : Nat) : Nat :=
  bits % Nat.pow 2 l.fractionBits

/-- The exponent field of a pattern. -/
def exponentField (l : Layout) (bits : Nat) : Nat :=
  bits / Nat.pow 2 l.fractionBits % Nat.pow 2 l.exponentBits

/-- The top bit of a pattern. -/
def isNegative (l : Layout) (bits : Nat) : Bool :=
  bits / Nat.pow 2 (l.fractionBits + l.exponentBits) % 2 == 1

/-- The exponent field of infinities and of what is no number. -/
def topExponent (l : Layout) : Nat := Nat.pow 2 l.exponentBits - 1

/-- Whether a pattern stands for no number. -/
def isNaN (l : Layout) (bits : Nat) : Bool :=
  l.exponentField bits == l.topExponent && l.fraction bits != 0

/-- Whether a pattern stands for zero, of either sign. -/
def isZero (l : Layout) (bits : Nat) : Bool :=
  l.exponentField bits == 0 && l.fraction bits == 0

/-- Numeric equality of two patterns. -/
def equal (l : Layout) (a b : Nat) : Bool :=
  !l.isNaN a && !l.isNaN b && (a == b || (l.isZero a && l.isZero b))

/-- The exponent of the last place of the smallest numbers. -/
def leastExponent (l : Layout) : Int :=
  2 - (Nat.pow 2 (l.exponentBits - 1) : Int) - (l.fractionBits : Int)

/-- The number that a pattern stands for. -/
def decode (l : Layout) (bits : Nat) : Binary :=
  let e := l.exponentField bits
  let f := l.fraction bits
  if e == l.topExponent then
    if f == 0 then .infinite (l.isNegative bits) else .nan
  else if e == 0 then
    .finite (l.isNegative bits) f l.leastExponent
  else
    .finite (l.isNegative bits) (Nat.pow 2 l.fractionBits + f)
      (l.leastExponent + (e - 1))

end Layout

/-- A 32-bit number by its pattern. -/
structure Single where
  bits : UInt32
deriving DecidableEq, Repr, Inhabited

/-- A 64-bit number by its pattern. -/
structure Double where
  bits : UInt64
deriving DecidableEq, Repr, Inhabited

/-- Numeric equality of 32-bit numbers. -/
def Single.equal (a b : Single) : Bool :=
  Layout.single.equal a.bits.toNat b.bits.toNat

/-- Numeric equality of 64-bit numbers. -/
def Double.equal (a b : Double) : Bool :=
  Layout.double.equal a.bits.toNat b.bits.toNat

/-- No number equals a NaN, the NaN itself included. -/
theorem Layout.equal_of_isNaN {l : Layout} {a : Nat} (h : l.isNaN a = true)
    (b : Nat) : l.equal a b = false := by
  simp [Layout.equal, h]

/-- Numeric equality does not depend on the order of its sides. -/
theorem Layout.equal_comm (l : Layout) (a b : Nat) :
    l.equal a b = l.equal b a := by
  simp only [Layout.equal]
  rw [Bool.and_comm (!l.isNaN a), Bool.and_comm (l.isZero a), BEq.comm]

end Colonnade.Number
