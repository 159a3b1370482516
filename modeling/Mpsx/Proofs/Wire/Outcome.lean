/-
  Mpsx/Proofs/Wire/Outcome.lean
  =============================
  **What becomes of an encoded message, deep or not.**  A message whose type declares
  its fields is read back, or is nested too deeply; then the fault is the one of the
  first field that cannot be entered, with the names of the fields around it.  The
  outcome of reading is one or the other, and it is the outcomes of the fields, one
  after the other.

  Outcomes do not mention values.  So two messages that are nested alike have the same
  outcome, and if it is a fault, it is the same fault.
-/

import Mathlib.Algebra.Group.Nat.Defs
import Mpsx.Proofs.Wire.RoundTrip

namespace Mpsx.Wire.Schema

variable {τ : Type} (S : Schema τ)

/-- An encoded field is read as it was, or with a fault, whatever follows it. -/
def FieldReadsAs (budget : Nat) (type : τ) (f : Field) (outcome : Except Fault Unit) : Prop :=
  ∀ rest, S.readField budget type (.of (f.encode ++ rest)) =
    outcome.map fun _ => (some f, .of rest)

def ReadsAs (budget : Nat) (type : τ) (m : Message) (outcome : Except Fault Unit) : Prop :=
  ∀ (rest : Bytes) (steps : Nat) (found : List (Option Field)), (encodeMessage m).length ≤ steps →
    Reader.collect (S.readField budget type) rest.length steps found
        (.of (encodeMessage m ++ rest)) =
      outcome.map fun _ => (found.reverse ++ m.map some, .of rest)

def EntersAs (budget : Nat) (type : τ) (m : Message) (outcome : Except Fault Unit) : Prop :=
  ∀ rest, S.enter budget type
      (.of (encodeVarint (encodeMessage m).length ++ (encodeMessage m ++ rest))) =
    outcome.map fun _ => (m, .of rest)

def named (type : τ) (d : Declaration τ) (outcome : Except Fault Unit) : Except Fault Unit :=
  outcome.mapError fun fault => { fault with path := fault.path ++ [(S.name type, d.name)] }

variable {S} {type inner : τ} {budget : Nat} {m : Message} {f : Field}
  {outcome outcome' : Except Fault Unit}

/-! ### Lists of fields -/

theorem readsAs_nil : S.ReadsAs budget type [] (.ok ()) := by
  intro rest steps found _
  cases steps with
  | zero => simp [Reader.collect, Reader.pure_apply, encodeMessage, Except.map]
  | succ steps =>
    rw [Reader.collect, Reader.bind_ok (Reader.left_apply _), if_pos (by simp [encodeMessage])]
    simp [Reader.pure_apply, encodeMessage, Except.map]

/-- The first field that cannot be read ends the reading. -/
theorem readsAs_cons (hf : S.FieldReadsAs budget type f outcome)
    (hm : S.ReadsAs budget type m outcome') :
    S.ReadsAs budget type (f :: m) (outcome >>= fun _ => outcome') := by
  intro rest steps found hsteps
  have hpos := f.length_encode_pos
  rw [encodeMessage, List.length_append] at hsteps
  cases steps with
  | zero => omega
  | succ steps =>
    rw [Reader.collect, Reader.bind_ok (Reader.left_apply _), encodeMessage,
      if_neg (by simp; omega), List.append_assoc, Reader.bind_apply, hf]
    cases outcome with
    | error fault => rfl
    | ok _ =>
      refine (hm rest steps (some f :: found) (by omega)).trans ?_
      simp
      rfl

/-- A message is read up to the length that is announced for it. -/
theorem readDelimited_of_readsAs (hm : S.ReadsAs budget type m outcome)
    (hlen : (encodeMessage m).length < 2 ^ 64) (rest : Bytes) :
    readDelimited (S.readField budget type)
        (.of (encodeVarint (encodeMessage m).length ++ (encodeMessage m ++ rest))) =
      outcome.map fun _ => (m.map some, .of rest) := by
  -- reading stops when as much is left as follows the message
  have hlimit : (encodeMessage m ++ rest).length - (encodeMessage m).length = rest.length := by
    simp
  rw [readDelimited, Reader.bind_ok (readLength_encode hlen _),
    Reader.bind_ok (Reader.left_apply _)]
  simp only [hlimit]
  rw [Reader.bind_apply, hm rest _ [] (Nat.le_refl _)]
  cases outcome with
  | error fault => rfl
  | ok _ =>
    show (Reader.left >>= _) (.of rest) = _
    rw [Reader.bind_ok (Reader.left_apply _), if_pos rfl]
    rfl

/-! ### Fields -/

/-- A field without anything nested in it is always read. -/
theorem fieldReadsAs_flat (hS : S.Keyed) (hf : S.Admits type f) (hdepth : f.depth = 0)
    (hlen : f.encode.length < 2 ^ 64) (budget : Nat) : S.FieldReadsAs budget type f (.ok ()) := by
  intro rest
  exact S.readField_encode hS hf (by omega) hlen rest

/-- Without a budget no message is entered. -/
theorem entersAs_zero : S.EntersAs 0 type m (.error ⟨[], .nesting⟩) := by
  intro rest
  rfl

theorem entersAs_succ (hm : S.ReadsAs budget type m outcome)
    (hlen : (encodeMessage m).length < 2 ^ 64) : S.EntersAs (budget + 1) type m outcome := by
  intro rest
  rw [enter, map_eq_pure_bind, Reader.bind_apply, readDelimited_of_readsAs hm hlen]
  cases outcome with
  | error fault => rfl
  | ok _ =>
    show Except.ok (List.filterMap id (m.map some), _) = Except.ok (m, _)
    rw [List.filterMap_map, Function.id_comp, List.filterMap_some]

theorem fieldReadsAs_message (hS : S.Keyed) {n : Nat} {d : Declaration τ}
    (hd : S.field? type n = some d) (hkind : d.kind = .message inner)
    (hm : S.EntersAs budget inner m outcome) :
    S.FieldReadsAs budget type (.message n m) (S.named type d outcome) := by
  intro rest
  rw [readField_eq, readFieldWith, Field.encode, encodeDelimited, List.append_assoc,
    List.append_assoc, Reader.bind_ok (readKey_encode (hS _ _ _ hd) _), hd]
  simp only [Reader.within, hkind, readValue, map_eq_pure_bind]
  rw [Reader.bind_apply, Reader.bind_ok (expect_self ⟨n, .delimited⟩ _), Reader.bind_apply, hm]
  cases outcome with
  | error fault => rfl
  | ok _ => rfl

/-! ### Whole messages -/

theorem decode_of_readsAs (hm : S.ReadsAs nestingLimit type m outcome) :
    S.decode type (encodeMessage m) = outcome.map fun _ => m := by
  have hcollect := hm [] _ [] (Nat.le_refl _)
  rw [List.append_nil] at hcollect
  have hall : Reader.all (S.readField nestingLimit type) (.of (encodeMessage m)) =
      outcome.map fun _ => (m.map some, .of []) := by
    rw [Reader.all, Reader.bind_ok (Reader.left_apply _)]
    exact hcollect
  rw [decode, hall]
  cases outcome with
  | error fault => rfl
  | ok _ =>
    simp only [Except.map, List.filterMap_map, Function.id_comp, List.filterMap_some]

end Mpsx.Wire.Schema
