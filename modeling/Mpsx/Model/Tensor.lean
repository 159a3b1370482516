/-
  Mpsx/Model/Tensor.lean
  ======================
  **Sizes and raw data of tensors.**  A buffer is addressed with 64-bit offsets,
  so products of dimensions are taken from left to right and given up as soon as
  one leaves that range; a later zero does not bring it back.

  `Tensor.rawBytes?` is the data as little-endian bytes, whatever form it is kept
  in.  Narrow integers may be kept in 32-bit numbers and are cut to their width.
-/

import Mpsx.Model.Basic

namespace Mpsx

/-- One more than the largest offset into a buffer. -/
def addressLimit : Nat := 0x10000000000000000

/-- A product, if it can be an offset. -/
def product? (a b : Nat) : Option Nat :=
  if a * b < addressLimit then some (a * b) else none

/-- The product of dimensions from left to right, if no step leaves the address range. -/
def sizeOfShape? (shape : List UInt64) : Option Nat :=
  shape.foldlM (fun n d => product? n d.toNat) 1

namespace Tensor

def elementCount? (t : Tensor) : Option Nat := sizeOfShape? t.shape

/-- Whether 32-bit numbers may hold elements of this width. -/
def fitsInt32 (width : Nat) : Bool := width = 1 || width = 2 || width = 4

/-- Whether 64-bit numbers may hold elements of this width. -/
def fitsUInt64 (width : Nat) : Bool := width = 4 || width = 8

/-- The elements as little-endian bytes, where the data and its type allow it. -/
def rawBytes? (t : Tensor) : Option Bytes :=
  match t.payload with
  | .raw bytes => some bytes
  | .floats xs => some (xs.flatMap fun x => Bytes.littleEndian 4 x.bits.toNat)
  | .doubles xs => some (xs.flatMap fun x => Bytes.littleEndian 8 x.bits.toNat)
  | .int64s ns => some (ns.flatMap fun n => Bytes.littleEndian 8 n.toUInt64.toNat)
  | .int32s ns =>
    match t.elementType.width? with
    | some width =>
      if fitsInt32 width then
        some (ns.flatMap fun n => Bytes.littleEndian width n.toUInt32.toNat)
      else none
    | none => none
  | .uint64s ns =>
    match t.elementType.width? with
    | some width =>
      if fitsUInt64 width then some (ns.flatMap fun n => Bytes.littleEndian width n.toNat)
      else none
    | none => none
  | .strings _ => none

end Tensor

end Mpsx
