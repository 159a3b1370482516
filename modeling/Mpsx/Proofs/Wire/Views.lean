/-
  Mpsx/Proofs/Wire/Views.lean
  ===========================
  **Views of messages that are built field by field.**  A view of a message looks
  at each field by itself, so it goes through every way of putting fields
  together.  With these equations as simplification rules, a view of a written
  message is computed from the fields that are written.
-/

import Mpsx.Wire.Message

namespace Mpsx.Wire

@[simp] theorem filterMap_never {α β : Type} (xs : List α) :
    (xs.filterMap fun _ => (none : Option β)) = [] :=
  List.filterMap_eq_nil_iff.mpr fun _ _ => rfl

@[simp] theorem flatMap_never {α β : Type} (xs : List α) :
    (xs.flatMap fun _ => ([] : List β)) = [] :=
  List.flatMap_eq_nil_iff.mpr fun _ _ => rfl

namespace Message

variable {α : Type} (m k : Message) (f : Field) (n : Nat) (F : α → Field) (xs : List α)

@[simp] theorem numbers_nil : numbers [] n = [] := rfl

@[simp] theorem numbers_cons : numbers (f :: m) n = f.numbers n ++ numbers m n :=
  List.flatMap_cons

@[simp] theorem numbers_append : numbers (m ++ k) n = numbers m n ++ numbers k n :=
  List.flatMap_append

@[simp] theorem numbers_map : numbers (xs.map F) n = xs.flatMap fun x => (F x).numbers n :=
  List.flatMap_map _ _ _

@[simp] theorem texts_nil : texts [] n = [] := rfl

@[simp] theorem texts_cons : texts (f :: m) n = (f.text? n).toList ++ texts m n := by
  cases h : f.text? n <;> simp [texts, h]

@[simp] theorem texts_append : texts (m ++ k) n = texts m n ++ texts k n :=
  List.filterMap_append

@[simp] theorem texts_map : texts (xs.map F) n = xs.filterMap fun x => (F x).text? n :=
  List.filterMap_map

@[simp] theorem blobs_nil : blobs [] n = [] := rfl

@[simp] theorem blobs_cons : blobs (f :: m) n = (f.bytes? n).toList ++ blobs m n := by
  cases h : f.bytes? n <;> simp [blobs, h]

@[simp] theorem blobs_append : blobs (m ++ k) n = blobs m n ++ blobs k n :=
  List.filterMap_append

@[simp] theorem blobs_map : blobs (xs.map F) n = xs.filterMap fun x => (F x).bytes? n :=
  List.filterMap_map

@[simp] theorem messages_nil : messages [] n = [] := rfl

@[simp] theorem messages_cons : messages (f :: m) n = (f.message? n).toList ++ messages m n := by
  cases h : f.message? n <;> simp [messages, h]

@[simp] theorem messages_append : messages (m ++ k) n = messages m n ++ messages k n :=
  List.filterMap_append

@[simp] theorem messages_map : messages (xs.map F) n = xs.filterMap fun x => (F x).message? n :=
  List.filterMap_map

end Message

end Mpsx.Wire
