/-
  Mpsx/Proofs/Wire/Encoded.lean
  =============================
  **Encoded values read back.**  For every primitive form (variable-length numbers,
  keys, fixed words, lengths) the reader undoes the writer and leaves exactly the
  bytes that follow.  Nothing is assumed of these bytes, so the statements chain:
  a sequence of encoded items is read item by item, and a packed list by
  `readDelimited_encoded` as a whole.

  The bound `2 ^ 64` on numbers and lengths is the one the format has: ten bytes of
  seven bits, of which the last has room for one.
-/

import Mathlib.Algebra.Group.Nat.Defs
import Mpsx.Wire.Message

namespace Mpsx.Wire

namespace Reader

variable {α β : Type}

theorem bind_ok {r : Reader α} {a : α} {c c' : Cursor} (h : r c = .ok (a, c'))
    (f : α → Reader β) : (r >>= f) c = f a c' := by
  rw [bind_apply, h]
  rfl

theorem map_ok {r : Reader α} {a : α} {c c' : Cursor} (h : r c = .ok (a, c'))
    (f : α → β) : (f <$> r) c = .ok (f a, c') := by
  rw [map_eq_pure_bind, bind_ok h]
  rfl

theorem take_append (bytes rest : Bytes) :
    take bytes.length (.of (bytes ++ rest)) = .ok (bytes, .of rest) := by
  rw [take_apply (by simp), List.take_left, List.drop_left]

/-- Items that are written one after the other are collected one after the other.
    Every item takes a byte, so the steps cannot run out before the items do. -/
theorem collect_encoded {item : Reader α} {encode : β → Bytes} {value : β → α} {xs : List β}
    (hitem : ∀ x ∈ xs, ∀ rest, item (.of (encode x ++ rest)) = .ok (value x, .of rest))
    (hpos : ∀ x ∈ xs, 0 < (encode x).length) (rest : Bytes) {steps : Nat}
    (hsteps : (xs.flatMap encode).length ≤ steps) (found : List α) :
    collect item rest.length steps found (.of (xs.flatMap encode ++ rest)) =
      .ok (found.reverse ++ xs.map value, .of rest) := by
  induction xs generalizing steps found with
  | nil =>
    cases steps with
    | zero => simp [collect, pure_apply]
    | succ steps =>
      rw [collect, bind_ok (left_apply _), if_pos (by simp)]
      simp [pure_apply]
  | cons x xs ih =>
    have hx := hpos x (by simp)
    rw [List.flatMap_cons, List.length_append] at hsteps
    cases steps with
    | zero => omega
    | succ steps =>
      rw [collect, bind_ok (left_apply _), if_neg (by simp; omega), List.flatMap_cons,
        List.append_assoc, bind_ok (hitem x (by simp) _),
        ih (fun y hy => hitem y (by simp [hy])) (fun y hy => hpos y (by simp [hy])) (by omega)]
      simp

end Reader

/-! ### Variable-length numbers and keys -/

theorem varintFrom_varintBytes (more n : Nat) (h : n < 2 * 128 ^ more) (rest : Bytes) :
    varintFrom more (.of (varintBytes more n ++ rest)) = .ok (n, .of rest) := by
  induction more generalizing n with
  | zero =>
    have hn : (UInt8.ofNat n).toNat = n := by
      rw [UInt8.toNat_ofNat']
      omega
    rw [varintFrom, varintBytes, List.singleton_append, Reader.bind_ok (Reader.byte_cons _ _), hn,
      if_pos (by omega)]
    rfl
  | succ more ih =>
    rw [varintFrom, varintBytes]
    split
    · next hsmall =>
      have hn : (UInt8.ofNat n).toNat = n := by
        rw [UInt8.toNat_ofNat']
        omega
      rw [List.singleton_append, Reader.bind_ok (Reader.byte_cons _ _), hn, if_pos hsmall]
      rfl
    · next hlarge =>
      have hn : (UInt8.ofNat (n % 128 + 128)).toNat = n % 128 + 128 := by
        rw [UInt8.toNat_ofNat']
        omega
      have hq : n / 128 < 2 * 128 ^ more := by
        rw [Nat.div_lt_iff_lt_mul (by decide)]
        rw [Nat.pow_succ] at h
        omega
      rw [List.cons_append, Reader.bind_ok (Reader.byte_cons _ _), hn, if_neg (by omega),
        Reader.bind_ok (ih _ hq)]
      have hsplit : n % 128 + 128 - 128 + 128 * (n / 128) = n := by omega
      rw [hsplit]
      rfl

theorem readVarint_encodeVarint {n : Nat} (h : n < 2 ^ 64) (rest : Bytes) :
    readVarint (.of (encodeVarint n ++ rest)) = .ok (n, .of rest) :=
  varintFrom_varintBytes 9 n (by omega) rest

theorem length_encodeVarint_pos (n : Nat) : 0 < (encodeVarint n).length := by
  unfold encodeVarint varintBytes
  split <;> simp

/-- Field numbers that a key has room for. -/
def IsFieldNumber (n : Nat) : Prop := 0 < n ∧ n < 2 ^ 29

theorem readKey_encode {k : Key} (h : IsFieldNumber k.number) (rest : Bytes) :
    readKey (.of (k.encode ++ rest)) = .ok (k, .of rest) := by
  obtain ⟨hpos, hlt⟩ := h
  have hcode := k.form.code_lt
  have hform : (8 * k.number + k.form.code) % 8 = k.form.code := by omega
  have hnumber : (8 * k.number + k.form.code) / 8 = k.number := by omega
  rw [readKey, Key.encode, Reader.bind_ok (readVarint_encodeVarint (by omega) _),
    if_neg (by omega), hform, hnumber, WireType.ofCode?_code]
  simp only [if_neg (show k.number ≠ 0 by omega)]
  rfl

theorem Key.length_encode_pos (k : Key) : 0 < k.encode.length := length_encodeVarint_pos _

/-! ### Numbers and lengths -/

theorem Number.length_encode_pos (x : Number) : 0 < x.encode.length := by
  cases x with
  | varint v => exact length_encodeVarint_pos _
  | fixed32 v => simp [encode, Bytes.length_littleEndian]
  | fixed64 v => simp [encode, Bytes.length_littleEndian]

theorem readNumber_encode (x : Number) (rest : Bytes) :
    readNumber x.form (.of (x.encode ++ rest)) = .ok (x, .of rest) := by
  cases x with
  | varint v =>
    have hv : v.toNat < 2 ^ 64 := v.toNat_lt
    simp only [readNumber, Number.form, Number.encode]
    rw [Reader.bind_ok (readVarint_encodeVarint hv _), UInt64.ofNat_toNat]
    rfl
  | fixed32 v =>
    have hv : v.toNat % 256 ^ 4 = v.toNat := Nat.mod_eq_of_lt v.toNat_lt
    have htake := Reader.take_append (Bytes.littleEndian 4 v.toNat) rest
    rw [Bytes.length_littleEndian] at htake
    simp only [readNumber, Number.form, Number.encode]
    rw [Reader.bind_ok htake, Bytes.toNat_littleEndian, Nat.pow_eq, hv, UInt32.ofNat_toNat]
    rfl
  | fixed64 v =>
    have hv : v.toNat % 256 ^ 8 = v.toNat := Nat.mod_eq_of_lt v.toNat_lt
    have htake := Reader.take_append (Bytes.littleEndian 8 v.toNat) rest
    rw [Bytes.length_littleEndian] at htake
    simp only [readNumber, Number.form, Number.encode]
    rw [Reader.bind_ok htake, Bytes.toNat_littleEndian, Nat.pow_eq, hv, UInt64.ofNat_toNat]
    rfl

theorem readLength_encode {bytes : Bytes} (h : bytes.length < 2 ^ 64) (rest : Bytes) :
    readLength (.of (encodeVarint bytes.length ++ (bytes ++ rest))) =
      .ok (bytes.length, .of (bytes ++ rest)) := by
  rw [readLength, Reader.bind_ok (readVarint_encodeVarint h _),
    Reader.bind_ok (Reader.left_apply _), if_neg (by simp)]
  rfl

theorem readDelimited_encoded {α β : Type} {item : Reader α} {encode : β → Bytes} {value : β → α}
    {xs : List β}
    (hitem : ∀ x ∈ xs, ∀ rest, item (.of (encode x ++ rest)) = .ok (value x, .of rest))
    (hpos : ∀ x ∈ xs, 0 < (encode x).length) (hlen : (xs.flatMap encode).length < 2 ^ 64)
    (rest : Bytes) :
    readDelimited item
        (.of (encodeVarint (xs.flatMap encode).length ++ (xs.flatMap encode ++ rest))) =
      .ok (xs.map value, .of rest) := by
  -- reading stops when as much is left as follows the list
  have hlimit : (xs.flatMap encode ++ rest).length - (xs.flatMap encode).length = rest.length := by
    simp
  rw [readDelimited, Reader.bind_ok (readLength_encode hlen _),
    Reader.bind_ok (Reader.left_apply _)]
  simp only [hlimit]
  rw [Reader.bind_ok (Reader.collect_encoded hitem hpos rest (Nat.le_refl _) []),
    Reader.bind_ok (Reader.left_apply _), if_pos rfl]
  rfl

end Mpsx.Wire
