/-
  Mpsx/Decimal/Shortest.lean
  ==========================
  **The fewest decimal digits that read back.**  A binary number `m · 2 ^ q` is
  what every real in an interval around it rounds to.  `shortest` looks on
  coarser decimal grids first: on each it tries the two grid points next to the
  number, and the first grid with one inside the interval gives the digits.  Of
  two points the nearer one is taken, and the upper one of two equally near.

  The interval is kept over one denominator, so all of it is integer arithmetic.
-/

namespace Mpsx.Decimal

/-- The reals that round to one binary number, as fractions over `denominator`. -/
structure Interval where
  low : Nat
  value : Nat
  high : Nat
  denominator : Nat
  /-- Whether the two ends round to the number too. -/
  closed : Bool

/-- Decimal digits after a point that is moved `point` places to the right. -/
structure Digits where
  digits : List Char
  point : Int
deriving DecidableEq, Repr

/-- The interval of `m · 2 ^ q`.  The next number below is half as far away as the
    next one above where `m` is the least significand of its exponent. -/
def Interval.ofBinary (m : Nat) (q : Int) (nearBelow : Bool) : Interval :=
  let scale := q - 2
  let up := Nat.pow 2 scale.toNat
  { low := (4 * m - if nearBelow then 1 else 2) * up
    value := 4 * m * up
    high := (4 * m + 2) * up
    denominator := Nat.pow 2 (-scale).toNat
    closed := m % 2 = 0 }

namespace Interval

variable (i : Interval)

/-- How many decimal digits a number has. -/
def digitCount (n : Nat) : Nat := (Nat.toDigits 10 n).length

/-- The decimal exponent of the value's first digit. -/
def leading : Int :=
  if i.denominator ≤ i.value then digitCount (i.value / i.denominator) - 1
  else -(digitCount ((i.denominator - 1) / i.value) : Int)

/-- Whether `n · 10 ^ e` rounds to the number. -/
def contains (n : Nat) (e : Int) : Bool :=
  let x := n * Nat.pow 10 e.toNat * i.denominator
  let unit := Nat.pow 10 (-e).toNat
  if i.closed then i.low * unit ≤ x && x ≤ i.high * unit
  else i.low * unit < x && x < i.high * unit

/-- The digits of `n · 10 ^ e`, without trailing zeros. -/
def digitsOf (n : Nat) (e : Int) : Digits :=
  let all := Nat.toDigits 10 n
  { digits := (all.reverse.dropWhile (· = '0')).reverse, point := all.length + e }

/-- The nearest point with `places` digits, among those that `accept` allows. -/
def nearest (accept : Nat → Int → Bool) (places : Nat) : Option Digits :=
  let e := i.leading + 1 - places
  let numerator := i.value * Nat.pow 10 (-e).toNat
  let denominator := i.denominator * Nat.pow 10 e.toNat
  let below := numerator / denominator
  let upper := (2 * below + 1) * denominator ≤ 2 * numerator
  if accept below e && !(accept (below + 1) e && upper) then some (digitsOf below e)
  else if accept (below + 1) e then some (digitsOf (below + 1) e)
  else none

/-- The fewest digits that read back; seventeen are always enough. -/
def shortest : Digits :=
  (((List.range 17).findSome? fun k => i.nearest i.contains (k + 1)).or
    (i.nearest (fun _ _ => true) 17)).getD ⟨['0'], 0⟩

end Interval

end Mpsx.Decimal
