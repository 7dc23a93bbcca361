/-
The shortest decimal that reads back as a given binary number. Around each
number lies the interval of reals that round to it; its ends belong to it
when the mantissa is even. A grid of decimals is the multiples of one power
of ten. Going from coarse grids to fine ones, the first grid with a point
inside the interval fixes the number of digits; the number's two neighbours
on that grid are the only points that need a look, and of two that lie
inside the nearer one wins, the upper one when they are equally near.

All of it is exact arithmetic on naturals: a real is a numerator over one
common denominator, in units of a quarter of the last place, so that the
ends of the interval are whole numbers too.

Chain: below `Number.Text`, which places the point.
-/
import Colonnade.Number.Binary

namespace Colonnade.Number

/-- The decimal `0.d₁d₂… * 10 ^ point`, its digits without trailing
zeros. -/
structure Decimal where
  digits : List Char
  point : Int
deriving DecidableEq, Repr

/-- How many digits a natural number is written with. -/
def digitCount (n : Nat) : Nat := (Nat.toDigits 10 n).length

/-- The power of ten just above `num / den`: the least `k` with
`num / den < 10 ^ k`. -/
def leadingPoint (num den : Nat) : Int :=
  if den ≤ num then digitCount (num / den)
  else 1 - (digitCount ((den + num - 1) / num - 1) : Int)

/-- The reals that round to one binary number: numerators over one
denominator. -/
structure Interval where
  low : Nat
  middle : Nat
  high : Nat
  denominator : Nat
  closed : Bool

namespace Interval

/-- The interval around `mantissa * 2 ^ exponent`; below a power of two the
numbers lie twice as dense. -/
def around (l : Layout) (mantissa : Nat) (exponent : Int) : Interval :=
  let narrow :=
    mantissa == Nat.pow 2 l.fractionBits && exponent != l.leastExponent
  let scale := Nat.pow 2 (exponent - 2).toNat
  { low := (4 * mantissa - if narrow then 1 else 2) * scale
    middle := 4 * mantissa * scale
    high := (4 * mantissa + 2) * scale
    denominator := Nat.pow 2 (2 - exponent).toNat
    closed := mantissa % 2 == 0 }

/-- Whether `n * 10 ^ e` lies in the interval. -/
def holds (i : Interval) (n : Nat) (e : Int) : Bool :=
  let point := n * Nat.pow 10 e.toNat * i.denominator
  let shift := Nat.pow 10 (-e).toNat
  if i.closed then i.low * shift ≤ point && point ≤ i.high * shift
  else i.low * shift < point && point < i.high * shift

/-- The point of the grid of multiples of `10 ^ e` that stands for the
middle of the interval, if the grid has one inside. -/
def onGrid? (i : Interval) (e : Int) : Option Nat :=
  let num := i.middle * Nat.pow 10 (-e).toNat
  let den := i.denominator * Nat.pow 10 e.toNat
  let below := num / den
  let rest := num % den
  match i.holds below e, i.holds (below + 1) e with
  | true, true => some (if 2 * rest < den then below else below + 1)
  | true, false => some below
  | false, true => some (below + 1)
  | false, false => none

/-- The first grid of at most seventeen digits with a point inside, with
that point; seventeen digits tell all 64-bit numbers apart. -/
def shortest (i : Interval) : Nat × Int :=
  let k := leadingPoint i.middle i.denominator
  let hit := (List.range 17).findSome? fun (n : Nat) =>
    let e := k - (n + 1 : Nat)
    (i.onGrid? e).map fun p => (p, e)
  hit.getD (0, 0)

end Interval

/-- A digit string without the zeros at its end. -/
def stripZeros (ds : List Char) : List Char :=
  (ds.reverse.dropWhile (· == '0')).reverse

/-- The multiple `n * 10 ^ e` as a decimal. -/
def Decimal.ofScaled (n : Nat) (e : Int) : Decimal :=
  let ds := Nat.toDigits 10 n
  ⟨stripZeros ds, ds.length + e⟩

/-- The shortest decimal that reads back as a positive number. -/
def Decimal.shortest (l : Layout) (mantissa : Nat) (exponent : Int) :
    Decimal :=
  let (n, e) := (Interval.around l mantissa exponent).shortest
  .ofScaled n e

end Colonnade.Number
