/-
  Mpsx/Wire/Reader.lean
  =====================
  **Reading bytes from the front.**  A reader takes the unread part of the input
  and returns a value with what is still unread, or a fault.  All readers share
  one cursor over the whole input: a length announced for a nested value tells
  where that value has to end, and does not hide the bytes behind it.

  The cursor counts its bytes, so that a length can be compared with what is left
  without walking the list.  Every cursor is `Cursor.of` its bytes, and the lemmas
  below state what the two primitive readers do there.
-/

import Mpsx.Bytes
import Mpsx.Wire.Fault

namespace Mpsx.Wire

/-- The unread part of an input, with its size. -/
structure Cursor where
  rest : Bytes
  left : Nat
  left_eq : left = rest.length

namespace Cursor

def of (bytes : Bytes) : Cursor := ⟨bytes, bytes.length, rfl⟩

@[simp] theorem rest_of (bytes : Bytes) : (of bytes).rest = bytes := rfl

@[simp] theorem left_of (bytes : Bytes) : (of bytes).left = bytes.length := rfl

/-- A cursor is determined by its bytes. -/
theorem eq_of (c : Cursor) : c = of c.rest := by
  cases c with
  | mk rest left left_eq => subst left_eq; rfl

end Cursor

/-- Reads a value from the front of a cursor. -/
abbrev Reader := StateT Cursor (Except Fault)

namespace Reader

variable {α β : Type}

def fail (cause : Cause) : Reader α := fun _ => .error ⟨[], cause⟩

/-- How many bytes are unread. -/
def left : Reader Nat := fun c => .ok (c.left, c)

/-- The next byte. -/
def byte : Reader UInt8 := fun c =>
  match c with
  | ⟨[], _, _⟩ => .error ⟨[], .varint⟩
  | ⟨b :: rest, left, h⟩ => .ok (b, ⟨rest, left - 1, by simp [h]⟩)

/-- The next `n` bytes. -/
def take (n : Nat) : Reader Bytes := fun c =>
  if n ≤ c.left then
    .ok (c.rest.take n, ⟨c.rest.drop n, c.left - n, by rw [List.length_drop, c.left_eq]⟩)
  else .error ⟨[], .underflow⟩

/-- Adds a message and field name to a fault. -/
def within (message field : String) (r : Reader α) : Reader α := fun c =>
  match r c with
  | .ok x => .ok x
  | .error f => .error { f with path := f.path ++ [(message, field)] }

/-- Reads items while more than `limit` bytes are unread, at most `steps` of them;
    `found` holds the items so far, the newest first. -/
def collect (item : Reader α) (limit : Nat) : (steps : Nat) → (found : List α) → Reader (List α)
  | 0, found => return found.reverse
  | steps + 1, found => do
    if (← left) ≤ limit then return found.reverse
    collect item limit steps ((← item) :: found)

/-- Reads items while bytes are unread.  An item takes at least one byte, so there
    are at most as many items as bytes. -/
def all (item : Reader α) : Reader (List α) := do
  collect item 0 (← left) []

/-! ### The primitive readers, and readers in sequence -/

theorem bind_apply (r : Reader α) (f : α → Reader β) (c : Cursor) :
    (r >>= f) c = (r c).bind fun p => f p.1 p.2 := rfl

theorem pure_apply (a : α) (c : Cursor) : (pure a : Reader α) c = .ok (a, c) := rfl

@[simp] theorem left_apply (bytes : Bytes) :
    left (.of bytes) = .ok (bytes.length, .of bytes) := rfl

@[simp] theorem byte_nil : byte (.of []) = .error ⟨[], .varint⟩ := rfl

@[simp] theorem byte_cons (b : UInt8) (rest : Bytes) :
    byte (.of (b :: rest)) = .ok (b, .of rest) := rfl

theorem take_apply {n : Nat} {bytes : Bytes} (h : n ≤ bytes.length) :
    take n (.of bytes) = .ok (bytes.take n, .of (bytes.drop n)) := by
  rw [take, if_pos (show n ≤ (Cursor.of bytes).left from h)]
  exact congrArg (fun c => Except.ok (bytes.take n, c)) (Cursor.eq_of _)

theorem take_apply_of_lt {n : Nat} {bytes : Bytes} (h : bytes.length < n) :
    take n (.of bytes) = .error ⟨[], .underflow⟩ :=
  if_neg (show ¬ n ≤ (Cursor.of bytes).left from Nat.not_le.mpr h)

end Reader

end Mpsx.Wire
