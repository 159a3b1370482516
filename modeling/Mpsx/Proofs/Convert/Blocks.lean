/-
  Mpsx/Proofs/Convert/Blocks.lean
  ===============================
  **Buffers block by block.**  A buffer cut into blocks of one size is known by its
  blocks.  Exchanging the leading axes sends block `(i, j)` to block `(j, i)`, and a
  cast works inside the block of each element.  Both laws are about the blocks of
  the result; that blocks of blocks are blocks again turns one into a law about
  elements.
-/

import Mathlib.Algebra.Group.Nat.Defs
import Mpsx.Convert.Axes
import Mpsx.Convert.Cast

namespace Mpsx

namespace Bytes

def block (bytes : Bytes) (size k : Nat) : Bytes := (bytes.drop (k * size)).take size

variable {α : Type}

theorem length_block {bytes : Bytes} {size k : Nat} (h : (k + 1) * size ≤ bytes.length) :
    (bytes.block size k).length = size := by
  rw [Nat.succ_mul] at h
  simp only [block, List.length_take, List.length_drop]
  omega

theorem block_append_zero {first : Bytes} {size : Nat} (h : first.length = size) (rest : Bytes) :
    (first ++ rest).block size 0 = first := by
  simp [block, ← h]

theorem block_append_succ {first : Bytes} {size : Nat} (h : first.length = size) (rest : Bytes)
    (k : Nat) : (first ++ rest).block size (k + 1) = rest.block size k := by
  have hskip : (k + 1) * size = first.length + k * size := by
    rw [h, Nat.succ_mul, Nat.add_comm]
  rw [block, hskip, List.drop_append, List.drop_eq_nil_of_le (Nat.le_add_right ..)]
  simp [block]

/-- Pieces of one length, put one after the other, are the blocks of the whole. -/
theorem block_flatMap {xs : List α} {f : α → Bytes} {size k : Nat} {x : α}
    (hlen : ∀ x ∈ xs, (f x).length = size) (hx : xs[k]? = some x) :
    block (xs.flatMap f) size k = f x := by
  induction xs generalizing k with
  | nil => cases hx
  | cons first rest ih =>
    have hfirst : (f first).length = size := hlen first (by simp)
    rw [List.flatMap_cons]
    cases k with
    | zero =>
      rw [block_append_zero hfirst]
      simp at hx
      rw [hx]
    | succ k =>
      rw [block_append_succ hfirst]
      exact ih (fun x hx => hlen x (by simp [hx])) (by simpa using hx)

theorem length_flatMap_of_length_eq (xs : List α) (f : α → Bytes) (size : Nat)
    (hlen : ∀ x ∈ xs, (f x).length = size) : (xs.flatMap f).length = xs.length * size := by
  induction xs with
  | nil => simp
  | cons first rest ih =>
    rw [List.flatMap_cons, List.length_append, hlen first (by simp),
      ih fun x hx => hlen x (by simp [hx]), List.length_cons, Nat.succ_mul, Nat.add_comm]

theorem block_block {bytes : Bytes} {n size k l : Nat} (hl : l < n) :
    (bytes.block (n * size) k).block size l = bytes.block size (k * n + l) := by
  have hfit : l * size + size ≤ n * size := by
    rw [← Nat.succ_mul]
    exact Nat.mul_le_mul_right size hl
  have hstart : k * (n * size) + l * size = (k * n + l) * size := by
    rw [Nat.add_mul, Nat.mul_assoc]
  rw [block, block, List.drop_take, List.drop_drop, List.take_take, hstart,
    Nat.min_eq_left (by omega), block]

/-- The leading blocks of a buffer, one after the other. -/
theorem flatMap_block (bytes : Bytes) (size n : Nat) :
    (List.range n).flatMap (bytes.block size) = bytes.take (n * size) := by
  induction n with
  | zero => simp
  | succ n ih =>
    rw [List.range_succ, List.flatMap_append, ih, List.flatMap_singleton, Nat.succ_mul,
      List.take_add, block]

/-- A buffer is known by its blocks. -/
theorem eq_of_blocks {a b : Bytes} {size n : Nat} (ha : a.length = n * size)
    (hb : b.length = n * size) (h : ∀ k < n, a.block size k = b.block size k) : a = b := by
  have hblocks : (List.range n).flatMap (a.block size) = (List.range n).flatMap (b.block size) := by
    rw [List.flatMap_def, List.flatMap_def, List.map_congr_left]
    intro k hk
    exact h k (List.mem_range.mp hk)
  rw [flatMap_block, flatMap_block, ← ha, List.take_length, ha, ← hb, List.take_length] at hblocks
  exact hblocks

end Bytes

/-! ### Exchanging axes -/

theorem index_lt {m n i j : Nat} (hi : i < m) (hj : j < n) : i * n + j < m * n :=
  calc i * n + j < i * n + n := Nat.add_lt_add_left hj _
    _ = (i + 1) * n := (Nat.succ_mul i n).symm
    _ ≤ m * n := Nat.mul_le_mul_right n hi

section Axes

variable {bytes : Bytes} {d0 d1 size : Nat}

theorem length_block_of_index (hlen : bytes.length = d0 * d1 * size) {i j : Nat} (hi : i < d0)
    (hj : j < d1) : (bytes.block size (i * d1 + j)).length = size := by
  apply Bytes.length_block
  rw [hlen]
  exact Nat.mul_le_mul_right size (index_lt hi hj)

/-- The blocks of one column of the original, which are a row of the result. -/
def column (bytes : Bytes) (d0 d1 size j : Nat) : Bytes :=
  (List.range d0).flatMap fun i => bytes.block size (i * d1 + j)

theorem transposeBlocks_eq_columns (bytes : Bytes) (d0 d1 size : Nat) :
    transposeBlocks bytes d0 d1 size = (List.range d1).flatMap (column bytes d0 d1 size) :=
  transposeBlocks_eq bytes d0 d1 size

theorem length_column (hlen : bytes.length = d0 * d1 * size) {j : Nat} (hj : j < d1) :
    (column bytes d0 d1 size j).length = d0 * size := by
  have hblocks : ∀ i ∈ List.range d0, (bytes.block size (i * d1 + j)).length = size := by
    intro i hi
    exact length_block_of_index hlen (List.mem_range.mp hi) hj
  rw [column, Bytes.length_flatMap_of_length_eq _ _ size hblocks, List.length_range]

theorem length_transposeBlocks (hlen : bytes.length = d0 * d1 * size) :
    (transposeBlocks bytes d0 d1 size).length = d1 * d0 * size := by
  have hcolumns : ∀ j ∈ List.range d1, (column bytes d0 d1 size j).length = d0 * size := by
    intro j hj
    exact length_column hlen (List.mem_range.mp hj)
  rw [transposeBlocks_eq_columns, Bytes.length_flatMap_of_length_eq _ _ _ hcolumns,
    List.length_range, Nat.mul_assoc]

/-- Block `(j, i)` of the result is block `(i, j)` of the original. -/
theorem block_transposeBlocks (hlen : bytes.length = d0 * d1 * size) {i j : Nat} (hi : i < d0)
    (hj : j < d1) :
    (transposeBlocks bytes d0 d1 size).block size (j * d0 + i) =
      bytes.block size (i * d1 + j) := by
  -- a row of the result is a column of the original, and its entries are blocks
  have hrow : (transposeBlocks bytes d0 d1 size).block (d0 * size) j =
      column bytes d0 d1 size j := by
    rw [transposeBlocks_eq_columns]
    exact Bytes.block_flatMap (fun j hj => length_column hlen (List.mem_range.mp hj))
      (List.getElem?_range hj)
  have hentry : (column bytes d0 d1 size j).block size i = bytes.block size (i * d1 + j) :=
    Bytes.block_flatMap (f := fun i => bytes.block size (i * d1 + j))
      (fun i hi => length_block_of_index hlen (List.mem_range.mp hi) hj) (List.getElem?_range hi)
  rw [← Bytes.block_block hi, hrow, hentry]

theorem block_transposeBlocks_part {n width : Nat} (hlen : bytes.length = d0 * d1 * (n * width))
    {i j r : Nat} (hi : i < d0) (hj : j < d1) (hr : r < n) :
    (transposeBlocks bytes d0 d1 (n * width)).block width ((j * d0 + i) * n + r) =
      bytes.block width ((i * d1 + j) * n + r) := by
  rw [← Bytes.block_block hr, block_transposeBlocks hlen hi hj, Bytes.block_block hr]

end Axes

/-! ### Casting -/

namespace Bytes

def words (bytes : Bytes) (size : Nat) : List Nat :=
  (List.range (bytes.length / size)).map fun k => (bytes.block size k).toNat

theorem words_append {size : Nat} (first rest : Bytes) (h : first.length = size)
    (hsize : 0 < size) : words (first ++ rest) size = first.toNat :: words rest size := by
  have hcount : (first ++ rest).length / size = rest.length / size + 1 := by
    rw [List.length_append, h, Nat.add_comm, Nat.add_div_right _ hsize]
  rw [words, hcount, List.range_succ_eq_map, List.map_cons, List.map_map,
    block_append_zero h, words]
  congr 1
  apply List.map_congr_left
  intro k _
  rw [Function.comp, block_append_succ h]

theorem words_of_length_lt {bytes : Bytes} {size : Nat} (h : bytes.length < size) :
    bytes.words size = [] := by
  rw [words, Nat.div_eq_of_lt h]
  rfl

theorem words16_eq : ∀ bytes : Bytes, words16 bytes = (bytes.words 2).map UInt16.ofNat
  | a :: b :: rest => by
    have hwords : words (a :: b :: rest) 2 = toNat [a, b] :: words rest 2 :=
      words_append [a, b] rest rfl (by decide)
    rw [words16_cons, hwords, words16_eq rest, List.map_cons]
  | [] => rfl
  | [_] => by rw [words_of_length_lt (by simp)]; rfl

theorem words32_eq : ∀ bytes : Bytes, words32 bytes = (bytes.words 4).map UInt32.ofNat
  | a :: b :: c :: d :: rest => by
    have hwords : words (a :: b :: c :: d :: rest) 4 = toNat [a, b, c, d] :: words rest 4 :=
      words_append [a, b, c, d] rest rfl (by decide)
    rw [words32_cons, hwords, words32_eq rest, List.map_cons]
  | [] => rfl
  | [_] => by rw [words_of_length_lt (by simp)]; rfl
  | [_, _] => by rw [words_of_length_lt (by simp)]; rfl
  | [_, _, _] => by rw [words_of_length_lt (by simp)]; rfl

end Bytes

def Precision.recast : (source target : Precision) → Nat → Nat
  | .single, .half, x => (Half.narrow (UInt32.ofNat x)).toNat
  | .half, .single, x => (Half.widen (UInt16.ofNat x)).toNat
  | _, _, x => x

theorem Precision.width_pos (p : Precision) : 0 < p.width := by
  cases p <;> decide

/-- Both casts are the same loop, over words of one width and into words of the other. -/
theorem castFloats_eq {source target : Precision} (h : source ≠ target) (bytes : Bytes) :
    castFloats bytes source target = (bytes.words source.width).flatMap fun x =>
      Bytes.littleEndian target.width (source.recast target x) := by
  cases source <;> cases target
  · exact absurd rfl h
  · -- from words of four bytes, and below from words of two
    rw [castFloats, Bytes.words32_eq, List.flatMap_map]
    rfl
  · rw [castFloats, Bytes.words16_eq, List.flatMap_map]
    rfl
  · exact absurd rfl h

theorem castFloats_self (p : Precision) (bytes : Bytes) : castFloats bytes p p = bytes := by
  cases p <;> rfl

theorem Precision.recast_self (p : Precision) (x : Nat) : p.recast p x = x := by
  cases p <;> rfl

theorem Precision.recast_lt {source target : Precision} (h : source ≠ target) (x : Nat) :
    source.recast target x < 256 ^ target.width := by
  cases source <;> cases target
  · exact absurd rfl h
  · exact (Half.narrow (UInt32.ofNat x)).toNat_lt
  · exact (Half.widen (UInt16.ofNat x)).toNat_lt
  · exact absurd rfl h

section Cast

variable {bytes : Bytes} {source target : Precision}

/-- A cast has one element for each whole element, and drops what is left over. -/
theorem length_castFloats_of_ne (h : source ≠ target) (bytes : Bytes) :
    (castFloats bytes source target).length = bytes.length / source.width * target.width := by
  rw [castFloats_eq h, Bytes.length_flatMap_of_length_eq _ _ target.width, Bytes.words,
    List.length_map, List.length_range]
  intro x _
  exact Bytes.length_littleEndian ..

theorem length_castFloats {n : Nat} (hlen : bytes.length = n * source.width) :
    (castFloats bytes source target).length = n * target.width := by
  by_cases h : source = target
  · rw [h, castFloats_self, hlen, h]
  · rw [length_castFloats_of_ne h, hlen, Nat.mul_div_cancel n source.width_pos]

/-- Element `k` of a cast buffer is element `k` of the buffer, cast. -/
theorem block_castFloats {k : Nat} (hk : (k + 1) * source.width ≤ bytes.length) :
    ((castFloats bytes source target).block target.width k).toNat =
      source.recast target (bytes.block source.width k).toNat := by
  by_cases h : source = target
  · rw [h, castFloats_self, Precision.recast_self]
  · have hword : (bytes.words source.width)[k]? = some (bytes.block source.width k).toNat := by
      have hlt : k < bytes.length / source.width :=
        (Nat.le_div_iff_mul_le source.width_pos).mpr hk
      rw [Bytes.words, List.getElem?_map, List.getElem?_range hlt]
      rfl
    rw [castFloats_eq h,
      Bytes.block_flatMap (fun x _ => Bytes.length_littleEndian target.width _) hword,
      Bytes.toNat_littleEndian]
    exact Nat.mod_eq_of_lt (Precision.recast_lt h _)

end Cast

end Mpsx
