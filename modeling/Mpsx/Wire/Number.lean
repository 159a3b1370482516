/-
  Mpsx/Wire/Number.lean
  =====================
  **Numbers and keys on the wire.**  A variable-length number has seven bits to a
  byte, the lowest first, and the top bit of a byte tells that another follows.
  Ten bytes hold 64 bits; of the tenth only the lowest bit is free.

  A key is such a number: the form of the value in its three low bits, the field
  number above them.
-/

import Mpsx.Wire.Reader

namespace Mpsx.Wire

/-- Writes a number with at most `more` bytes before the last. -/
def varintBytes : (more : Nat) → (n : Nat) → Bytes
  | 0, n => [UInt8.ofNat n]
  | more + 1, n =>
    if n < 128 then [UInt8.ofNat n]
    else UInt8.ofNat (n % 128 + 128) :: varintBytes more (n / 128)

/-- The variable-length form of a number below `2 ^ 64`. -/
def encodeVarint (n : Nat) : Bytes := varintBytes 9 n

/-- Reads a number with at most `more` bytes before the last. -/
def varintFrom : (more : Nat) → Reader Nat
  | 0 => do
    let b ← Reader.byte
    if b.toNat ≤ 1 then return b.toNat else Reader.fail .varint
  | more + 1 => do
    let b ← Reader.byte
    if b.toNat < 128 then return b.toNat
    else return (b.toNat - 128) + 128 * (← varintFrom more)

/-- A variable-length number. -/
def readVarint : Reader Nat := varintFrom 9

/-- What precedes a value: its field number and its form. -/
structure Key where
  number : Nat
  form : WireType
deriving DecidableEq, Repr

def Key.encode (k : Key) : Bytes := encodeVarint (8 * k.number + k.form.code)

def readKey : Reader Key := do
  let key ← readVarint
  if 0x100000000 ≤ key then Reader.fail (.key key)
  else
    match WireType.ofCode? (key % 8) with
    | none => Reader.fail (.form (key % 8))
    | some form =>
      if key / 8 = 0 then Reader.fail .zeroNumber
      else return ⟨key / 8, form⟩

/-- The forms a numeric field can have. -/
inductive NumberForm where
  | varint
  | fixed32
  | fixed64
deriving DecidableEq, Repr

def NumberForm.wireType : NumberForm → WireType
  | varint => .varint
  | fixed32 => .fixed32
  | fixed64 => .fixed64

/-- A number in one of the three forms. -/
inductive Number where
  | varint (value : UInt64)
  | fixed32 (value : UInt32)
  | fixed64 (value : UInt64)
deriving DecidableEq, Repr

namespace Number

def form : Number → NumberForm
  | varint _ => .varint
  | fixed32 _ => .fixed32
  | fixed64 _ => .fixed64

def encode : Number → Bytes
  | varint v => encodeVarint v.toNat
  | fixed32 v => Bytes.littleEndian 4 v.toNat
  | fixed64 v => Bytes.littleEndian 8 v.toNat

def varint? : Number → Option UInt64
  | varint v => some v
  | _ => none

def fixed32? : Number → Option UInt32
  | fixed32 v => some v
  | _ => none

def fixed64? : Number → Option UInt64
  | fixed64 v => some v
  | _ => none

end Number

/-- Reads a number of the given form. -/
def readNumber : NumberForm → Reader Number
  | .varint => return .varint (UInt64.ofNat (← readVarint))
  | .fixed32 => return .fixed32 (UInt32.ofNat (Bytes.toNat (← Reader.take 4)))
  | .fixed64 => return .fixed64 (UInt64.ofNat (Bytes.toNat (← Reader.take 8)))

/-- Reads the length of a value; that many bytes have to be left. -/
def readLength : Reader Nat := do
  let length ← readVarint
  if (← Reader.left) < length then Reader.fail .underflow else return length

/-- Reads items up to the end that a length announces. -/
def readDelimited {α : Type} (item : Reader α) : Reader (List α) := do
  let length ← readLength
  let limit := (← Reader.left) - length
  let items ← Reader.collect item limit length []
  if (← Reader.left) = limit then return items else Reader.fail .overrun

end Mpsx.Wire
