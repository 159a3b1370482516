/-
  Mpsx/Text/Utf8.lean
  ===================
  **Reading text from bytes.**  `Utf8.decode` returns the string whose UTF-8 form
  the bytes are.  Where there is none, it tells where reading stops: at which
  byte, and whether a wrong sequence stands there or the bytes end too early.

  A wrong sequence is as long as the part of it that could still have been the
  start of a character, and at least one byte.
-/

import Mpsx.Bytes

namespace Mpsx.Utf8

/-- Why bytes are not text: where the first character that cannot be read begins,
    and the length of the wrong sequence there, or `none` if the bytes end first. -/
structure Invalid where
  index : Nat
  length : Option Nat
deriving DecidableEq, Repr

def Invalid.message (e : Invalid) : String :=
  match e.length with
  | some n => "invalid utf-8 sequence of " ++ toString n ++ " bytes from index " ++ toString e.index
  | none => "incomplete utf-8 byte sequence from index " ++ toString e.index

/-- The bytes that may follow a given first byte, one span for each; `none` if no
    character starts with it. -/
def followers (first : UInt8) : Option (List (UInt8 × UInt8)) :=
  if first < 0x80 then some []
  else if first < 0xC2 then none
  else if first < 0xE0 then some [(0x80, 0xBF)]
  else if first = 0xE0 then some [(0xA0, 0xBF), (0x80, 0xBF)]
  else if first = 0xED then some [(0x80, 0x9F), (0x80, 0xBF)]
  else if first < 0xF0 then some [(0x80, 0xBF), (0x80, 0xBF)]
  else if first = 0xF0 then some [(0x90, 0xBF), (0x80, 0xBF), (0x80, 0xBF)]
  else if first < 0xF4 then some [(0x80, 0xBF), (0x80, 0xBF), (0x80, 0xBF)]
  else if first = 0xF4 then some [(0x80, 0x8F), (0x80, 0xBF), (0x80, 0xBF)]
  else none

/-- Walks over bytes at `index`.  `start` is where the character under way began,
    and `wanted` are the spans its further bytes have to lie in. -/
def stop (start index : Nat) (wanted : List (UInt8 × UInt8)) : Bytes → Invalid
  | [] => ⟨start, none⟩
  | b :: rest =>
    match wanted with
    | (low, high) :: more =>
      if low ≤ b ∧ b ≤ high then
        match more with
        | [] => stop (index + 1) (index + 1) [] rest
        | _ :: _ => stop start (index + 1) more rest
      else ⟨start, some (index - start)⟩
    | [] =>
      match followers b with
      | none => ⟨index, some 1⟩
      | some [] => stop (index + 1) (index + 1) [] rest
      | some more => stop index (index + 1) more rest

/-- The string with the given UTF-8 form, or where reading it stops. -/
def decode (bytes : Bytes) : Except Invalid String :=
  match String.fromUTF8? ⟨bytes.toArray⟩ with
  | some s => .ok s
  | none => .error (stop 0 0 [] bytes)

@[simp] theorem decode_ofString (s : String) : decode (Bytes.ofString s) = .ok s := by
  have h : String.fromUTF8? s.toByteArray = some s := by
    unfold String.fromUTF8?
    split
    · rfl
    · next hnot => exact absurd s.isValidUTF8 hnot
  simp [decode, Bytes.ofString, h]

/-- Bytes are read as the text whose form they are, and as no other. -/
theorem decode_eq_ok_iff {bytes : Bytes} {s : String} :
    decode bytes = .ok s ↔ Bytes.ofString s = bytes := by
  constructor
  · intro h
    unfold decode at h
    split at h
    · next t ht =>
      cases h
      unfold String.fromUTF8? at ht
      split at ht
      · cases ht
        rfl
      · cases ht
    · cases h
  · rintro rfl
    exact decode_ofString s

end Mpsx.Utf8
