/-
  Mpsx/Convert/Axes.lean
  ======================
  **Exchanging the two leading axes.**  A row-major buffer of shape
  `[d0, d1, ...]` is a sequence of `d0 · d1` blocks, one for each pair of leading
  indices.  With the axes exchanged, block `(i, j)` becomes block `(j, i)`; inside
  a block nothing moves.  Where the blocks are empty, or there are no rows, so is
  the buffer, however many columns the shape names.

  Blocks are found by products of dimensions, which have to be offsets themselves.
  A shape without columns has no blocks, and still the size of a block is computed.
-/

import Mpsx.Bytes
import Mpsx.Model.Tensor

namespace Mpsx

/-- A list with its first two entries exchanged. -/
def swapFirstTwo {α : Type} : List α → List α
  | a :: b :: rest => b :: a :: rest
  | short => short

/-- The blocks of a buffer with `d0` rows of `d1` blocks, column by column. -/
def transposeBlocks (bytes : Bytes) (d0 d1 block : Nat) : Bytes :=
  if d0 = 0 ∨ block = 0 then []
  else
    let buffer := bytes.toArray
    (List.range d1).flatMap fun j =>
      (List.range d0).flatMap fun i =>
        let start := (i * d1 + j) * block
        (buffer.extract start (start + block)).toList

/-- Block by block on lists, whether or not there are any. -/
theorem transposeBlocks_eq (bytes : Bytes) (d0 d1 block : Nat) :
    transposeBlocks bytes d0 d1 block =
      (List.range d1).flatMap fun j => (List.range d0).flatMap fun i =>
        (bytes.drop ((i * d1 + j) * block)).take block := by
  unfold transposeBlocks
  split
  · rename_i h
    rcases h with rfl | rfl
    · simp
    · simp
  · simp [List.extract_eq_take_drop]

/-- How many bytes share a pair of leading indices, if this can be an offset.  The product
    is taken from left to right. -/
def blockSize? (rest : List UInt64) (width : Nat) : Option Nat := do
  let count ← sizeOfShape? rest
  product? count width

/-- A buffer of the given shape and element width with its leading axes exchanged.  There
    is none if the shape has fewer than two axes, if one of the products along the way can
    be no offset, or if the buffer does not hold exactly the elements of the shape. -/
def swapLeadingAxes? (bytes : Bytes) (shape : List UInt64) (width : Nat) : Option Bytes :=
  match shape with
  | d0 :: d1 :: rest => do
    let block ← blockSize? rest width
    let blocks ← product? d0.toNat d1.toNat
    let size ← product? blocks block
    if bytes.length = size then
      return transposeBlocks bytes d0.toNat d1.toNat block
    else none
  | _ => none

end Mpsx
