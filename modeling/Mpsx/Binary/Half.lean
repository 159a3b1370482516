/-
  Mpsx/Binary/Half.lean
  =====================
  **Between single and half precision.**  `narrow` rounds to the nearest half,
  a tie to the even significand, through subnormals and up to infinity; `widen`
  is exact.  A NaN keeps its sign and its leading fraction bits and becomes quiet.

  Without the sign, half patterns in numeric order are the half values in numeric
  order, infinity last.  So `narrow` rounds the significand to the place the
  result allows, adds the exponent in front of it, and lets a carry run from the
  significand into the exponent and from the largest exponent into infinity.
-/

import Mpsx.Binary.Format

namespace Mpsx.Half

/-- `m / 2 ^ shift` to the nearest integer, a tie to the even one. -/
def roundShift (m shift : Nat) : Nat :=
  let unit := Nat.pow 2 shift
  let quotient := m / unit
  let twice := 2 * (m % unit)
  if unit < twice ∨ (twice = unit ∧ quotient % 2 = 1) then quotient + 1 else quotient

/-- The half pattern, sign aside, of a finite single with the given significand
    and biased exponent.  The last place of the result is worth `2 ^ 13` last
    places of the single, or more where the half is subnormal. -/
def magnitude (significand biased : Nat) : Nat :=
  let lift := biased - 113
  let shift := if 113 ≤ biased then 13 else 126 - max biased 1
  min 0x7C00 (lift * 1024 + roundShift significand shift)

/-- The half pattern nearest to a single pattern. -/
def narrow (single : UInt32) : UInt16 :=
  let bits := single.toNat
  let biased := Format.binary32.biased bits
  let fraction := Format.binary32.fraction bits
  let sign := if Format.binary32.negative bits then 0x8000 else 0
  UInt16.ofNat <| sign +
    if biased = 255 then
      if fraction = 0 then 0x7C00 else 0x7C00 + (fraction / 0x2000 ||| 0x200)
    else
      magnitude (Format.binary32.significand bits) biased

/-- The single pattern, sign aside, of a nonzero subnormal half: the leading one
    of the fraction moves to the place of the implicit one. -/
def normalise (fraction : Nat) : Nat :=
  let place := fraction.log2
  (103 + place) * 0x800000 + (fraction * Nat.pow 2 (23 - place) - 0x800000)

/-- The single pattern, sign aside, with the value of a half pattern. -/
def spread (half : Nat) : Nat :=
  let biased := Format.binary16.biased half
  let fraction := Format.binary16.fraction half
  if biased = 31 then
    if fraction = 0 then 0x7F800000 else 0x7F800000 + (fraction * 0x2000 ||| 0x400000)
  else if biased = 0 then
    if fraction = 0 then 0 else normalise fraction
  else
    (biased + 112) * 0x800000 + fraction * 0x2000

/-- The single pattern with the value of a half pattern. -/
def widen (half : UInt16) : UInt32 :=
  let sign := if Format.binary16.negative half.toNat then 0x80000000 else 0
  UInt32.ofNat (sign + spread half.toNat)

end Mpsx.Half
