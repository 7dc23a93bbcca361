/-
Numbers as text. Which numbers are written with an exponent and whether a
whole number keeps a point are decisions of the output format; they are the
fields of a `Style`, and each output names the style it uses.

Chain: values print plainly, detailed listings of instructions print with
`Style.detailed`.
-/
import Colonnade.Number.Shortest

namespace Colonnade.Number

/-- The decisions of one output format for numbers. -/
structure Style where
  /-- Whether a number with this decimal exponent is written with it. -/
  scientific : Int → Bool
  /-- What follows the digits of a whole number. -/
  wholeEnd : String

namespace Style

/-- Values are written in full, without exponent, and whole numbers without
a point. -/
def plain : Style := ⟨fun _ => false, ""⟩

/-- Listings write an exponent outside 10^-4 to 10^16, and a point and a
zero after whole numbers inside. -/
def detailed : Style := ⟨fun e => e < -4 || 16 ≤ e, ".0"⟩

end Style

/-- A list of zeros as text. -/
def zeros (n : Nat) : String := String.ofList (List.replicate n '0')

/-- A positive decimal in positional notation. -/
def positional (wholeEnd : String) (d : Decimal) : String :=
  if d.point ≤ 0 then
    "0." ++ zeros (-d.point).toNat ++ String.ofList d.digits
  else
    let whole := d.point.toNat
    if d.digits.length ≤ whole then
      String.ofList d.digits ++ zeros (whole - d.digits.length) ++ wholeEnd
    else
      String.ofList (d.digits.take whole) ++ "." ++
        String.ofList (d.digits.drop whole)

/-- A positive decimal with one digit before the point and an exponent. -/
def withExponent (d : Decimal) : String :=
  let head := String.ofList (d.digits.take 1)
  let rest := d.digits.drop 1
  let fraction := if rest.isEmpty then "" else "." ++ String.ofList rest
  s!"{head}{fraction}e{d.point - 1}"

/-- The text of the number behind a pattern. -/
def text (style : Style) (l : Layout) (bits : Nat) : String :=
  match l.decode bits with
  | .nan => "NaN"
  | .infinite negative => if negative then "-inf" else "inf"
  | .finite negative mantissa exponent =>
    let sign := if negative then "-" else ""
    if mantissa == 0 then sign ++ "0" ++ style.wholeEnd
    else
      let d := Decimal.shortest l mantissa exponent
      sign ++
        if style.scientific (d.point - 1) then withExponent d
        else positional style.wholeEnd d

/-- The text of a 32-bit number. -/
def Single.text (style : Style) (x : Single) : String :=
  Number.text style .single x.bits.toNat

/-- The text of a 64-bit number. -/
def Double.text (style : Style) (x : Double) : String :=
  Number.text style .double x.bits.toNat

example : Double.text .plain ⟨0x3FB999999999999A⟩ = "0.1" := by decide +kernel
example : Double.text .plain ⟨0x7FEFFFFFFFFFFFFF⟩ =
    "17976931348623157" ++ zeros 292 := by decide +kernel
example : Double.text .detailed ⟨1⟩ = "5e-324" := by decide +kernel
example : Double.text .detailed ⟨0x4341C37937E08000⟩ = "1e16" := by
  decide +kernel
example : Double.text .detailed ⟨0x3FF0000000000000⟩ = "1.0" := by
  decide +kernel
example : Single.text .plain ⟨0x33000000⟩ = "0.000000029802322" := by
  decide +kernel

end Colonnade.Number
