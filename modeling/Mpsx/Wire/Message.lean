/-
  Mpsx/Wire/Message.lean
  ======================
  **Messages.**  A message is the list of its fields in the order they arrive.
  Reading a field again is then no operation at all: the value of a field that
  occurs once is its last occurrence, a repeated field is all occurrences in
  order, and a nested message given in several pieces is their concatenation.

  `encodeMessage` writes the fields one after the other.  The views below are what
  the rest of the library knows about a message.
-/

import Mpsx.Wire.Number

namespace Mpsx.Wire

/-- A field: its number and its value. -/
inductive Field where
  | number (number : Nat) (value : Number)
  /-- Several numbers behind one key. -/
  | packed (number : Nat) (values : List Number)
  | text (number : Nat) (value : String)
  | bytes (number : Nat) (value : Bytes)
  | message (number : Nat) (fields : List Field)
deriving Repr

abbrev Message := List Field

/-- A value behind its key and its length. -/
def encodeDelimited (number : Nat) (value : Bytes) : Bytes :=
  Key.encode ⟨number, .delimited⟩ ++ encodeVarint value.length ++ value

mutual

def Field.encode : Field → Bytes
  | .number n x => Key.encode ⟨n, x.form.wireType⟩ ++ x.encode
  | .packed n xs => encodeDelimited n (xs.flatMap Number.encode)
  | .text n s => encodeDelimited n (Bytes.ofString s)
  | .bytes n b => encodeDelimited n b
  | .message n fields => encodeDelimited n (encodeMessage fields)

def encodeMessage : List Field → Bytes
  | [] => []
  | f :: rest => f.encode ++ encodeMessage rest

end

/-! ### Views -/

namespace Field

def numbers (n : Nat) : Field → List Number
  | .number k x => if k = n then [x] else []
  | .packed k xs => if k = n then xs else []
  | _ => []

def text? (n : Nat) : Field → Option String
  | .text k s => if k = n then some s else none
  | _ => none

def bytes? (n : Nat) : Field → Option Bytes
  | .bytes k b => if k = n then some b else none
  | _ => none

def message? (n : Nat) : Field → Option Message
  | .message k fields => if k = n then some fields else none
  | _ => none

end Field

namespace Message

/-- All numbers of a field, single or packed, in order. -/
def numbers (m : Message) (n : Nat) : List Number := m.flatMap (Field.numbers n)

def varints (m : Message) (n : Nat) : List UInt64 := (m.numbers n).filterMap Number.varint?

def fixed32s (m : Message) (n : Nat) : List UInt32 := (m.numbers n).filterMap Number.fixed32?

def fixed64s (m : Message) (n : Nat) : List UInt64 := (m.numbers n).filterMap Number.fixed64?

def texts (m : Message) (n : Nat) : List String := m.filterMap (Field.text? n)

def blobs (m : Message) (n : Nat) : List Bytes := m.filterMap (Field.bytes? n)

/-- All messages of a repeated field. -/
def messages (m : Message) (n : Nat) : List Message := m.filterMap (Field.message? n)

/-- The last number of a field. -/
def varint? (m : Message) (n : Nat) : Option UInt64 := (m.varints n).getLast?

def fixed32? (m : Message) (n : Nat) : Option UInt32 := (m.fixed32s n).getLast?

def text? (m : Message) (n : Nat) : Option String := (m.texts n).getLast?

def bytes? (m : Message) (n : Nat) : Option Bytes := (m.blobs n).getLast?

/-- The message of a field that occurs once; pieces are put together. -/
def message? (m : Message) (n : Nat) : Option Message :=
  if (m.messages n).isEmpty then none else some (m.messages n).flatten

/-- Of several fields that exclude each other, the last one given, with the pieces
    that follow each other without another one in between. -/
def chosen? (m : Message) (ns : List Nat) : Option (Nat × Message) :=
  m.foldl (fun state f =>
    match f with
    | .message k fields =>
      if k ∈ ns then
        match state with
        | some (j, earlier) => if j = k then some (k, earlier ++ fields) else some (k, fields)
        | none => some (k, fields)
      else state
    | _ => state) none

end Message

/-! ### Size

A nested message is smaller than the message around it, also when it is put
together from several pieces. -/

mutual

/-- How many fields a field has, itself and nested ones. -/
def Field.weight : Field → Nat
  | .message _ fields => 1 + fieldsWeight fields
  | .number _ _ => 1
  | .packed _ _ => 1
  | .text _ _ => 1
  | .bytes _ _ => 1

def fieldsWeight : List Field → Nat
  | [] => 0
  | f :: rest => f.weight + fieldsWeight rest

end

/-- How many fields a message has, nested ones counted too. -/
def Message.weight (m : Message) : Nat := fieldsWeight m

namespace Message

theorem fieldsWeight_append (m k : List Field) :
    fieldsWeight (m ++ k) = fieldsWeight m + fieldsWeight k := by
  induction m with
  | nil => simp [fieldsWeight]
  | cons f rest ih => simp [fieldsWeight, ih]; omega

/-- The pieces of a field together are smaller than the message by their number. -/
theorem weight_flatten_messages (m : Message) (n : Nat) :
    fieldsWeight (m.messages n).flatten + (m.messages n).length ≤ fieldsWeight m := by
  induction m with
  | nil => simp [messages, fieldsWeight]
  | cons f rest ih =>
    unfold messages at ih ⊢
    cases hf : Field.message? n f with
    | none =>
      rw [List.filterMap_cons_none hf, fieldsWeight]
      omega
    | some fields =>
      rw [List.filterMap_cons_some hf]
      have hw : f.weight = 1 + fieldsWeight fields := by
        cases f <;> simp [Field.message?] at hf
        obtain ⟨_, rfl⟩ := hf
        rfl
      simp only [List.flatten_cons, fieldsWeight_append, List.length_cons, fieldsWeight]
      omega

theorem fieldsWeight_le_flatten {m : Message} {ms : List Message} (h : m ∈ ms) :
    fieldsWeight m ≤ fieldsWeight ms.flatten := by
  induction ms with
  | nil => cases h
  | cons k rest ih =>
    rw [List.flatten_cons, fieldsWeight_append]
    cases h with
    | head => omega
    | tail _ h => have := ih h; omega

theorem weight_lt_of_mem_messages {m k : Message} {n : Nat} (h : k ∈ m.messages n) :
    k.weight < m.weight := by
  have h1 := m.weight_flatten_messages n
  have h2 := fieldsWeight_le_flatten h
  have h3 := List.length_pos_of_mem h
  unfold weight
  omega

theorem weight_lt_of_message? {m k : Message} {n : Nat} (h : m.message? n = some k) :
    k.weight < m.weight := by
  unfold message? at h
  split at h
  · cases h
  · next hne =>
    obtain rfl := Option.some.inj h
    have h1 := m.weight_flatten_messages n
    have h3 : 0 < (m.messages n).length := by
      rw [List.length_pos_iff]
      simpa using hne
    unfold weight
    omega

end Message

end Mpsx.Wire
