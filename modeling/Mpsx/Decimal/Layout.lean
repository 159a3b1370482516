/-
  Mpsx/Decimal/Layout.lean
  ========================
  **Writing a float.**  Digits are laid out positionally while the exponent of
  the first digit stays in a range, with at least one digit after the point, and
  with an exponent mark outside of it.  Infinities and NaN are words; a NaN shows
  no sign.
-/

import Mpsx.Binary.Format
import Mpsx.Decimal.Shortest

namespace Mpsx.Decimal

/-- Which exponents of the first digit are written positionally. -/
structure Style where
  least : Int
  greatest : Int

/-- Positional from `0.0001` up to but not including `1e16`. -/
def plain : Style := ⟨-4, 15⟩

def zeros (n : Nat) : List Char := List.replicate n '0'

/-- Lays out digits with a point, or with an exponent mark. -/
def Style.layout (style : Style) (d : Digits) : String :=
  let first := d.point - 1
  if style.least ≤ first ∧ first ≤ style.greatest then
    if d.point ≤ 0 then
      "0." ++ String.ofList (zeros (-d.point).toNat ++ d.digits)
    else
      let whole := d.point.toNat
      let after := d.digits.drop whole
      String.ofList (d.digits.take whole ++ zeros (whole - d.digits.length)) ++ "." ++
        (if after.isEmpty then "0" else String.ofList after)
  else
    let after := d.digits.drop 1
    String.ofList (d.digits.take 1) ++
      (if after.isEmpty then "" else "." ++ String.ofList after) ++ "e" ++ toString first

/-- The text of a bit pattern: the fewest digits that read back in its format. -/
def render (f : Format) (bits : Nat) : String :=
  if f.isNaN bits then "NaN"
  else
    let sign := if f.negative bits then "-" else ""
    if !f.isFinite bits then sign ++ "inf"
    else if f.isZero bits then sign ++ "0.0"
    else
      let nearBelow := f.fraction bits = 0 ∧ 1 < f.biased bits
      sign ++ plain.layout
        (Interval.ofBinary (f.significand bits) (f.exponent bits) nearBelow).shortest

end Mpsx.Decimal

namespace Mpsx

def Binary32.render (x : Binary32) : String := Decimal.render .binary32 x.bits.toNat

def Binary64.render (x : Binary64) : String := Decimal.render .binary64 x.bits.toNat

end Mpsx
