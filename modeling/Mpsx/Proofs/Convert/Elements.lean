/-
  Mpsx/Proofs/Convert/Elements.lean
  =================================
  **Elements of a tensor.**  Data is kept in bytes or in numbers of several sizes,
  and the size of a number need not be that of an element.  What all forms have in
  common is one large number, of which the bytes are the digits in base 256 and the
  kept numbers the digits in a higher base.  An element is the part of that number
  at its place.  This says what the elements are without turning anything into
  bytes first; that the bytes a tensor gives out have the same elements is then a
  law.
-/

import Mathlib.Data.Nat.Digits.Lemmas
import Mpsx.Model.Tensor
import Mpsx.Proofs.Convert.Blocks

namespace Mpsx

namespace Bytes

theorem toNat_eq_ofDigits (bytes : Bytes) :
    bytes.toNat = Nat.ofDigits 256 (bytes.map UInt8.toNat) := by
  induction bytes with
  | nil => rfl
  | cons b rest ih => rw [toNat, ih, List.map_cons, Nat.ofDigits_cons]

theorem digits_lt (bytes : Bytes) : ∀ d ∈ bytes.map UInt8.toNat, d < 256 := by
  intro d hd
  obtain ⟨b, -, rfl⟩ := List.mem_map.mp hd
  exact b.toNat_lt

theorem eq_of_toNat_eq {a b : Bytes} (hlen : a.length = b.length) (h : a.toNat = b.toNat) :
    a = b := by
  rw [toNat_eq_ofDigits, toNat_eq_ofDigits] at h
  have hdigits := Nat.ofDigits_inj_of_len_eq (by decide) (by simpa using hlen) a.digits_lt
    b.digits_lt h
  exact List.map_injective_iff.mpr (fun _ _ => UInt8.toNat_inj.mp) hdigits

/-- A buffer is known by its elements. -/
theorem eq_of_elements {a b : Bytes} {size n : Nat} (ha : a.length = n * size)
    (hb : b.length = n * size) (h : ∀ k < n, (a.block size k).toNat = (b.block size k).toNat) :
    a = b := by
  apply eq_of_blocks ha hb
  intro k hk
  have hfit : (k + 1) * size ≤ n * size := Nat.mul_le_mul_right size hk
  apply eq_of_toNat_eq
  · rw [length_block (ha ▸ hfit), length_block (hb ▸ hfit)]
  · exact h k hk

theorem toNat_append (first rest : Bytes) :
    toNat (first ++ rest) = first.toNat + 256 ^ first.length * rest.toNat := by
  simp [toNat_eq_ofDigits, Nat.ofDigits_append]

theorem toNat_block (bytes : Bytes) (size k : Nat) :
    (bytes.block size k).toNat = bytes.toNat / 256 ^ (k * size) % 256 ^ size := by
  have hdigits := bytes.digits_lt
  rw [toNat_eq_ofDigits bytes, Nat.ofDigits_div_pow_eq_ofDigits_drop _ (by decide) _ hdigits,
    Nat.ofDigits_mod_pow_eq_ofDigits_take _ (by decide) _
      (fun d hd => hdigits d (List.mem_of_mem_drop hd)),
    toNat_eq_ofDigits, block, List.map_take, List.map_drop]

/-- Numbers written one after the other are the digits of the whole, each modulo the
    range of the size it is written in. -/
theorem toNat_flatMap_littleEndian {α : Type} (xs : List α) (f : α → Nat) (size : Nat) :
    toNat (xs.flatMap fun x => littleEndian size (f x)) =
      Nat.ofDigits (256 ^ size) (xs.map fun x => f x % 256 ^ size) := by
  induction xs with
  | nil => rfl
  | cons x rest ih =>
    rw [List.flatMap_cons, toNat_append, ih, length_littleEndian, toNat_littleEndian,
      List.map_cons, Nat.ofDigits_cons]
    rfl

/-- The bytes of a word see a number only modulo the word's range. -/
theorem littleEndian_mod (width n : Nat) :
    littleEndian width (n % 256 ^ width) = littleEndian width n := by
  induction width generalizing n with
  | zero => rfl
  | succ width ih =>
    rw [littleEndian, littleEndian, Nat.pow_succ', Nat.mod_mul_right_mod,
      Nat.mod_mul_right_div_self, ih]

theorem length_flatMap_littleEndian (digits : List Nat) (size : Nat) :
    (digits.flatMap (littleEndian size)).length = digits.length * size :=
  length_flatMap_of_length_eq _ _ size fun d _ => length_littleEndian size d

theorem flatMap_littleEndian_one (bytes : Bytes) :
    (bytes.map UInt8.toNat).flatMap (littleEndian 1) = bytes := by
  induction bytes with
  | nil => rfl
  | cons b rest ih =>
    have hbyte : littleEndian 1 b.toNat = [b] := by
      simp [littleEndian]
    rw [List.map_cons, List.flatMap_cons, ih, hbyte, List.singleton_append]

/-- Numbers that agree modulo the range of a word have the same bytes, one after the
    other. -/
theorem flatMap_littleEndian_congr {α : Type} {xs : List α} {f g : α → Nat} {width : Nat}
    (h : ∀ x ∈ xs, f x % 256 ^ width = g x) :
    (xs.flatMap fun x => littleEndian width (f x)) = (xs.map g).flatMap (littleEndian width) := by
  rw [List.flatMap_map]
  apply List.flatMap_congr
  intro x hx
  rw [← h x hx, littleEndian_mod]

end Bytes

/-- The low bytes of an integer spell it modulo their range, negative or not. -/
theorem toNat_mod_pow {n width : Nat} (x : BitVec n) (h : 8 * width ≤ n) :
    x.toNat % 256 ^ width = (x.toInt % 256 ^ width).toNat := by
  have hall : x.toInt % (2 ^ n : Nat) = x.toNat := by
    rw [BitVec.toInt_eq_toNat_bmod, Int.bmod_emod]
    exact Int.emod_eq_of_lt (by omega) (by exact_mod_cast x.isLt)
  have hdvd : (256 ^ width : Nat) ∣ 2 ^ n := by
    rw [show (256 : Nat) = 2 ^ 8 from rfl, ← pow_mul]
    exact pow_dvd_pow 2 h
  rw [← Int.emod_emod_of_dvd _ (by exact_mod_cast hdvd : (256 ^ width : Int) ∣ (2 ^ n : Nat)), hall]
  norm_cast

/-- The widths that elements have. -/
theorem ElementType.width?_mem {type : ElementType} {width : Nat}
    (h : type.width? = some width) : width ∈ [1, 2, 4, 8, 16] := by
  cases type <;> cases h <;> decide

theorem ElementType.width?_pos {type : ElementType} {width : Nat} (h : type.width? = some width) :
    0 < width := by
  have hall : ∀ w ∈ [1, 2, 4, 8, 16], 0 < w := by decide
  exact hall width (width?_mem h)

namespace Tensor

/-- The size of the numbers that data is kept in, in bytes, and these numbers.  Integers
    kept in wider numbers have the size of an element and count modulo its range. -/
def digits? (t : Tensor) : Option (Nat × List Nat) :=
  match t.payload with
  | .raw bytes => some (1, bytes.map UInt8.toNat)
  | .floats xs => some (4, xs.map fun x => x.bits.toNat)
  | .doubles xs => some (8, xs.map fun x => x.bits.toNat)
  | .int64s ns => some (8, ns.map fun n => (n.toInt % 256 ^ 8).toNat)
  | .int32s ns => do
    let width ← t.elementType.width?.filter (· ≤ 4)
    return (width, ns.map fun n => (n.toInt % 256 ^ width).toNat)
  | .uint64s ns => do
    let width ← t.elementType.width?.filter (· ∈ [4, 8])
    return (width, ns.map fun n => n.toNat % 256 ^ width)
  | .strings _ => none

def element? (t : Tensor) (k : Nat) : Option Nat := do
  let width ← t.elementType.width?
  let (size, digits) ← t.digits?
  if (k + 1) * width ≤ digits.length * size then
    return Nat.ofDigits (256 ^ size) digits / 256 ^ (k * width) % 256 ^ width
  else none

theorem fitsInt32_eq {type : ElementType} {width : Nat} (h : type.width? = some width) :
    fitsInt32 width = decide (width ≤ 4) := by
  have hall : ∀ w ∈ [1, 2, 4, 8, 16], fitsInt32 w = decide (w ≤ 4) := by decide
  exact hall width (ElementType.width?_mem h)

theorem fitsUInt64_eq (width : Nat) : fitsUInt64 width = decide (width ∈ [4, 8]) := by
  simp [fitsUInt64]

/-- The bytes that a tensor gives out are those of its numbers, in order. -/
theorem rawBytes?_eq_map_digits? (t : Tensor) :
    t.rawBytes? = t.digits?.map fun p => p.2.flatMap (Bytes.littleEndian p.1) := by
  unfold rawBytes? digits?
  cases t.payload with
  | raw bytes => exact congrArg some (Bytes.flatMap_littleEndian_one bytes).symm
  | floats xs =>
    refine congrArg some (Bytes.flatMap_littleEndian_congr ?_)
    intro x _
    exact Nat.mod_eq_of_lt x.bits.toNat_lt
  | doubles xs =>
    refine congrArg some (Bytes.flatMap_littleEndian_congr ?_)
    intro x _
    exact Nat.mod_eq_of_lt x.bits.toNat_lt
  | int64s ns =>
    refine congrArg some (Bytes.flatMap_littleEndian_congr ?_)
    intro n _
    exact toNat_mod_pow n.toBitVec (by decide)
  | int32s ns =>
    cases hw : t.elementType.width? with
    | none => rfl
    | some width =>
      simp only [fitsInt32_eq hw, Option.filter_some, decide_eq_true_eq]
      split
      · next hle =>
        refine congrArg some (Bytes.flatMap_littleEndian_congr ?_)
        intro n _
        exact toNat_mod_pow n.toBitVec (by omega)
      · rfl
  | uint64s ns =>
    cases t.elementType.width? with
    | none => rfl
    | some width =>
      simp only [fitsUInt64_eq, Option.filter_some, decide_eq_true_eq]
      split
      · refine congrArg some (Bytes.flatMap_littleEndian_congr ?_)
        intro n _
        rfl
      · rfl
  | strings ss => rfl

/-- An integer that is taken modulo the range of a word is in this range. -/
theorem toNat_emod_pow_lt (x : Int) (n : Nat) : (x % 256 ^ n).toNat < 256 ^ n := by
  have hpos : (0 : Int) < 256 ^ n := by positivity
  have hlt := Int.emod_lt_of_pos x hpos
  zify
  rwa [Int.toNat_of_nonneg (Int.emod_nonneg x hpos.ne')]

theorem digits?_lt {t : Tensor} {size : Nat} {digits : List Nat}
    (h : t.digits? = some (size, digits)) : ∀ d ∈ digits, d < 256 ^ size := by
  obtain ⟨name, shape, type, payload⟩ := t
  cases payload with
  | raw bytes =>
    cases h
    simpa using bytes.digits_lt
  | floats xs =>
    cases h
    exact List.forall_mem_map.mpr fun x _ => x.bits.toNat_lt
  | doubles xs =>
    cases h
    exact List.forall_mem_map.mpr fun x _ => x.bits.toNat_lt
  | int64s ns =>
    cases h
    exact List.forall_mem_map.mpr fun n _ => toNat_emod_pow_lt n.toInt 8
  | int32s ns =>
    obtain ⟨width, -, h⟩ := Option.bind_eq_some_iff.mp h
    cases h
    exact List.forall_mem_map.mpr fun n _ => toNat_emod_pow_lt n.toInt _
  | uint64s ns =>
    obtain ⟨width, -, h⟩ := Option.bind_eq_some_iff.mp h
    cases h
    exact List.forall_mem_map.mpr fun n _ => Nat.mod_lt _ (by positivity)
  | strings xs => cases h

/-- Bytes and kept numbers are digits of the same number. -/
theorem digits?_of_rawBytes? {t : Tensor} {bytes : Bytes} (h : t.rawBytes? = some bytes) :
    ∃ size digits, t.digits? = some (size, digits) ∧ bytes.length = digits.length * size ∧
      Nat.ofDigits (256 ^ size) digits = bytes.toNat := by
  rw [rawBytes?_eq_map_digits?] at h
  obtain ⟨⟨size, digits⟩, hdigits, rfl⟩ := Option.map_eq_some_iff.mp h
  refine ⟨size, digits, hdigits, ?_, ?_⟩
  · exact Bytes.length_flatMap_littleEndian digits size
  · have hsmall : (digits.map fun d => d % 256 ^ size) = digits.map id :=
      List.map_congr_left fun d hd => Nat.mod_eq_of_lt (digits?_lt hdigits d hd)
    have hvalue : Bytes.toNat (digits.flatMap (Bytes.littleEndian size)) =
        Nat.ofDigits (256 ^ size) (digits.map fun d => d % 256 ^ size) :=
      Bytes.toNat_flatMap_littleEndian digits id size
    rw [hvalue, hsmall, List.map_id]

theorem element?_eq {t : Tensor} {width k : Nat} {bytes : Bytes}
    (hwidth : t.elementType.width? = some width) (hbytes : t.rawBytes? = some bytes)
    (hk : (k + 1) * width ≤ bytes.length) :
    t.element? k = some (bytes.block width k).toNat := by
  obtain ⟨size, digits, hdigits, hlen, hvalue⟩ := digits?_of_rawBytes? hbytes
  simp only [element?, hwidth, hdigits, Option.bind_eq_bind, Option.bind_some]
  rw [← hlen, if_pos hk, hvalue, Bytes.toNat_block]
  rfl

end Tensor

end Mpsx
