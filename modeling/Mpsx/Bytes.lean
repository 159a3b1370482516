/-
  Mpsx/Bytes.lean
  ===============
  **Byte strings and little-endian words.**  Files, tensor data and messages are
  all lists of bytes here.  A list keeps every law about cutting and joining them
  an ordinary list law, and reading from the front is one step per byte.

  `littleEndian` and `toNat` are the two directions of the word format every
  other module uses; `words16` and `words32` cut a byte string into whole words
  and drop what is left over.
-/

namespace Mpsx

/-- A byte string. -/
abbrev Bytes := List UInt8

namespace Bytes

/-- The `width` low bytes of `n`, lowest first. -/
def littleEndian : (width : Nat) → (n : Nat) → Bytes
  | 0, _ => []
  | width + 1, n => UInt8.ofNat (n % 256) :: littleEndian width (n / 256)

/-- The number whose base-256 digits are the given bytes, lowest first. -/
def toNat : Bytes → Nat
  | [] => 0
  | b :: rest => b.toNat + 256 * toNat rest

/-- The bytes of a string in UTF-8. -/
def ofString (s : String) : Bytes := s.toUTF8.data.toList

/-! ### Whole words -/

/-- Collects 16-bit words, newest first, until fewer than two bytes are left. -/
def collect16 (found : List UInt16) : Bytes → List UInt16
  | a :: b :: rest => collect16 (UInt16.ofNat (toNat [a, b]) :: found) rest
  | _ => found.reverse

/-- The whole 16-bit words of a byte string; an odd last byte is dropped. -/
def words16 (bytes : Bytes) : List UInt16 := collect16 [] bytes

/-- Collects 32-bit words, newest first, until fewer than four bytes are left. -/
def collect32 (found : List UInt32) : Bytes → List UInt32
  | a :: b :: c :: d :: rest => collect32 (UInt32.ofNat (toNat [a, b, c, d]) :: found) rest
  | _ => found.reverse

/-- The whole 32-bit words of a byte string; up to three last bytes are dropped. -/
def words32 (bytes : Bytes) : List UInt32 := collect32 [] bytes

theorem length_littleEndian (width n : Nat) : (littleEndian width n).length = width := by
  induction width generalizing n with
  | zero => rfl
  | succ width ih => simp [littleEndian, ih]

/-- Reading back a written word gives the number modulo the word's range. -/
theorem toNat_littleEndian (width n : Nat) :
    toNat (littleEndian width n) = n % Nat.pow 256 width := by
  induction width generalizing n with
  | zero => simp [littleEndian, toNat, Nat.mod_one]
  | succ width ih =>
    have hlow : (UInt8.ofNat (n % 256)).toNat = n % 256 := by simp
    rw [littleEndian, toNat, ih, hlow, Nat.pow_eq, Nat.pow_eq, Nat.pow_succ', Nat.mod_mul]

theorem collect16_eq : ∀ (found : List UInt16) (bytes : Bytes),
    collect16 found bytes = found.reverse ++ words16 bytes
  | found, a :: b :: rest => by
    rw [words16, collect16, collect16, collect16_eq _ rest, collect16_eq [_] rest]; simp
  | found, [] => by simp [words16, collect16]
  | found, [_] => by simp [words16, collect16]

theorem collect32_eq : ∀ (found : List UInt32) (bytes : Bytes),
    collect32 found bytes = found.reverse ++ words32 bytes
  | found, a :: b :: c :: d :: rest => by
    rw [words32, collect32, collect32, collect32_eq _ rest, collect32_eq [_] rest]; simp
  | found, [] => by simp [words32, collect32]
  | found, [_] => by simp [words32, collect32]
  | found, [_, _] => by simp [words32, collect32]
  | found, [_, _, _] => by simp [words32, collect32]

@[simp] theorem words16_cons (a b : UInt8) (rest : Bytes) :
    words16 (a :: b :: rest) = UInt16.ofNat (toNat [a, b]) :: words16 rest := by
  rw [words16, collect16, collect16_eq]; simp

@[simp] theorem words32_cons (a b c d : UInt8) (rest : Bytes) :
    words32 (a :: b :: c :: d :: rest) = UInt32.ofNat (toNat [a, b, c, d]) :: words32 rest := by
  rw [words32, collect32, collect32_eq]; simp

end Bytes

end Mpsx
