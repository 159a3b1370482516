/-
  Mpsx/Binary/Format.lean
  =======================
  **Binary floating-point bit patterns.**  A float is kept as its bit pattern,
  never as a machine float: the file format stores patterns, equality of models
  looks at NaN payloads, and the casts are stated on exact values.

  A `Format` gives the widths of the two fields under the sign bit.  A finite
  pattern stands for `significand · 2 ^ exponent`, with the sign aside; both are
  plain numbers, so every statement about rounding is one about integers.
-/

namespace Mpsx

/-- A binary interchange format: sign bit, biased exponent field, fraction field. -/
structure Format where
  exponentWidth : Nat
  fractionWidth : Nat
deriving DecidableEq, Repr

namespace Format

def binary16 : Format := ⟨5, 10⟩

def binary32 : Format := ⟨8, 23⟩

def binary64 : Format := ⟨11, 52⟩

variable (f : Format)

/-- The fraction field of a pattern. -/
def fraction (bits : Nat) : Nat := bits % Nat.pow 2 f.fractionWidth

/-- The biased exponent field of a pattern. -/
def biased (bits : Nat) : Nat :=
  bits / Nat.pow 2 f.fractionWidth % Nat.pow 2 f.exponentWidth

/-- The sign bit of a pattern. -/
def negative (bits : Nat) : Bool :=
  bits / Nat.pow 2 (f.fractionWidth + f.exponentWidth) % 2 = 1

/-- The exponent field of infinities and NaNs. -/
def special : Nat := Nat.pow 2 f.exponentWidth - 1

/-- The exponent bias. -/
def bias : Nat := Nat.pow 2 (f.exponentWidth - 1) - 1

def isFinite (bits : Nat) : Bool := f.biased bits ≠ f.special

def isNaN (bits : Nat) : Bool := f.biased bits = f.special ∧ f.fraction bits ≠ 0

def isZero (bits : Nat) : Bool := f.biased bits = 0 ∧ f.fraction bits = 0

/-- The integer significand of a finite pattern; a biased exponent of zero has no
    leading one. -/
def significand (bits : Nat) : Nat :=
  if f.biased bits = 0 then f.fraction bits else Nat.pow 2 f.fractionWidth + f.fraction bits

/-- The exponent of the last place of a finite pattern. -/
def exponent (bits : Nat) : Int :=
  (max (f.biased bits) 1 : Nat) - (f.bias : Int) - (f.fractionWidth : Int)

/-- Equality of the numbers that two patterns stand for: a NaN equals nothing,
    and the two zeros are equal. -/
def sameNumber (a b : Nat) : Bool :=
  !f.isNaN a && !f.isNaN b && (a == b || (f.isZero a && f.isZero b))

end Format

/-- A single-precision float, as its bit pattern. -/
structure Binary32 where
  bits : UInt32
deriving DecidableEq, Repr, Inhabited

/-- A double-precision float, as its bit pattern. -/
structure Binary64 where
  bits : UInt64
deriving DecidableEq, Repr, Inhabited

def Binary32.sameNumber (a b : Binary32) : Bool :=
  Format.binary32.sameNumber a.bits.toNat b.bits.toNat

def Binary64.sameNumber (a b : Binary64) : Bool :=
  Format.binary64.sameNumber a.bits.toNat b.bits.toNat

end Mpsx
