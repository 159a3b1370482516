/-
  Mpsx/Proofs/Wire/RoundTrip.lean
  ===============================
  **Messages read back.**  `Schema.Admits` says which fields a message type
  declares and in which form; it is the grammar that the schema stands for.  A
  message of admitted fields that is not nested too deeply is read back from its
  encoding field for field (`Schema.decode_encodeMessage`).

  The proof is one induction over the derivation that a field is admitted.  Each
  form of field is the key, which is read by one lemma for all of them, and a
  value that the primitive readers give back; in a nested message the budget is
  one less and the fields are admitted by a shorter derivation.
-/

import Mpsx.Proofs.Wire.Depth

namespace Mpsx.Wire

theorem encodeMessage_eq_flatMap (m : Message) : encodeMessage m = m.flatMap Field.encode := by
  induction m with
  | nil => rfl
  | cons f rest ih => rw [encodeMessage, ih, List.flatMap_cons]

theorem length_encode_le_of_mem {m : Message} {f : Field} (h : f ∈ m) :
    f.encode.length ≤ (encodeMessage m).length := by
  induction m with
  | nil => cases h
  | cons g rest ih =>
    rw [encodeMessage, List.length_append]
    rcases List.mem_cons.mp h with rfl | h
    · omega
    · have := ih h
      omega

theorem length_encodeDelimited (n : Nat) (value : Bytes) :
    value.length < (encodeDelimited n value).length := by
  have := Key.length_encode_pos ⟨n, .delimited⟩
  simp only [encodeDelimited, List.length_append]
  omega

theorem Field.length_encode_pos (f : Field) : 0 < f.encode.length := by
  cases f with
  | number n x =>
    have := x.length_encode_pos
    rw [Field.encode, List.length_append]
    omega
  | packed n xs => exact Nat.zero_lt_of_lt (length_encodeDelimited n _)
  | text n s => exact Nat.zero_lt_of_lt (length_encodeDelimited n _)
  | bytes n b => exact Nat.zero_lt_of_lt (length_encodeDelimited n _)
  | message n fields => exact Nat.zero_lt_of_lt (length_encodeDelimited n _)

namespace Schema

variable {τ : Type} (S : Schema τ)

def kind? (type : τ) (n : Nat) : Option (FieldKind τ) := (S.field? type n).map (·.kind)

def Keyed : Prop := ∀ type n d, S.field? type n = some d → IsFieldNumber n

/-- The fields that a message type declares, in the form it declares them. -/
inductive Admits : τ → Field → Prop
  | single {type : τ} {n : Nat} {x : Number} (hkind : S.kind? type n = some (.single x.form)) :
      Admits type (.number n x)
  | item {type : τ} {n : Nat} {x : Number} (hkind : S.kind? type n = some (.repeated x.form)) :
      Admits type (.number n x)
  | packed {type : τ} {n : Nat} {xs : List Number} {form : NumberForm}
      (hkind : S.kind? type n = some (.repeated form)) (hform : ∀ x ∈ xs, x.form = form) :
      Admits type (.packed n xs)
  | text {type : τ} {n : Nat} {s : String} (hkind : S.kind? type n = some .text) :
      Admits type (.text n s)
  | bytes {type : τ} {n : Nat} {b : Bytes} (hkind : S.kind? type n = some .bytes) :
      Admits type (.bytes n b)
  | message {type inner : τ} {n : Nat} {fields : List Field}
      (hkind : S.kind? type n = some (.message inner)) (hfields : ∀ f ∈ fields, Admits inner f) :
      Admits type (.message n fields)

def enter : (budget : Nat) → τ → Reader Message
  | 0, _ => Reader.fail .nesting
  | budget + 1, type => List.filterMap id <$> readDelimited (S.readField budget type)

theorem readField_eq (budget : Nat) (type : τ) :
    S.readField budget type = S.readFieldWith (skip budget) (S.enter budget) type := by
  cases budget <;> rfl

/-! ### One field -/

theorem readFieldWith_encode (hS : S.Keyed) {skipField : Key → Reader Unit}
    {enter : τ → Reader Message} {type : τ} {key : Key} {kind : FieldKind τ} {f : Field}
    {value rest : Bytes} (hkind : S.kind? type key.number = some kind)
    (hvalue : readValue enter key kind (.of (value ++ rest)) = .ok (f, .of rest)) :
    S.readFieldWith skipField enter type (.of ((key.encode ++ value) ++ rest)) =
      .ok (some f, .of rest) := by
  obtain ⟨d, hd, rfl⟩ := Option.map_eq_some_iff.mp hkind
  rw [readFieldWith, List.append_assoc, Reader.bind_ok (readKey_encode (hS _ _ _ hd) _), hd]
  simp only [Reader.within, Reader.map_ok hvalue]

theorem expect_self (key : Key) (c : Cursor) : expect key key.form c = .ok ((), c) := by
  rw [expect, if_pos rfl]
  rfl

theorem readValue_single (enter : τ → Reader Message) (n : Nat) (x : Number) (rest : Bytes) :
    readValue enter ⟨n, x.form.wireType⟩ (.single x.form) (.of (x.encode ++ rest)) =
      .ok (.number n x, .of rest) := by
  rw [readValue, Reader.bind_ok (expect_self _ _), Reader.bind_ok (readNumber_encode x rest)]
  rfl

theorem readValue_item (enter : τ → Reader Message) (n : Nat) (x : Number) (rest : Bytes) :
    readValue enter ⟨n, x.form.wireType⟩ (.repeated x.form) (.of (x.encode ++ rest)) =
      .ok (.number n x, .of rest) := by
  have hform : x.form.wireType ≠ .delimited := by cases x.form <;> decide
  rw [readValue, if_neg hform, Reader.bind_ok (expect_self _ _),
    Reader.bind_ok (readNumber_encode x rest)]
  rfl

theorem readValue_packed (enter : τ → Reader Message) (n : Nat) {xs : List Number}
    {form : NumberForm} (hform : ∀ x ∈ xs, x.form = form)
    (hlen : (xs.flatMap Number.encode).length < 2 ^ 64) (rest : Bytes) :
    readValue enter ⟨n, .delimited⟩ (.repeated form)
        (.of (encodeVarint (xs.flatMap Number.encode).length ++ xs.flatMap Number.encode ++ rest)) =
      .ok (.packed n xs, .of rest) := by
  have hitem : ∀ x ∈ xs, ∀ rest,
      readNumber form (.of (x.encode ++ rest)) = .ok (id x, .of rest) := by
    intro x hx rest
    rw [← hform x hx]
    exact readNumber_encode x rest
  have hread := readDelimited_encoded hitem (fun x _ => x.length_encode_pos) hlen rest
  rw [readValue, if_pos rfl, List.append_assoc, Reader.bind_ok hread, List.map_id]
  rfl

theorem readValue_text (enter : τ → Reader Message) (n : Nat) {s : String}
    (hlen : (Bytes.ofString s).length < 2 ^ 64) (rest : Bytes) :
    readValue enter ⟨n, .delimited⟩ .text
        (.of (encodeVarint (Bytes.ofString s).length ++ Bytes.ofString s ++ rest)) =
      .ok (.text n s, .of rest) := by
  rw [readValue, Reader.bind_ok (expect_self ⟨n, .delimited⟩ _), List.append_assoc,
    Reader.bind_ok (readVarint_encodeVarint hlen _), Reader.bind_ok (Reader.take_append _ _),
    Utf8.decode_ofString]
  rfl

theorem readValue_bytes (enter : τ → Reader Message) (n : Nat) {b : Bytes}
    (hlen : b.length < 2 ^ 64) (rest : Bytes) :
    readValue enter ⟨n, .delimited⟩ .bytes (.of (encodeVarint b.length ++ b ++ rest)) =
      .ok (.bytes n b, .of rest) := by
  rw [readValue, Reader.bind_ok (expect_self ⟨n, .delimited⟩ _), List.append_assoc,
    Reader.bind_ok (readVarint_encodeVarint hlen _), Reader.bind_ok (Reader.take_append _ _)]
  rfl

/-- A nested message is read back if each of its fields is, with one level less. -/
theorem readValue_message (budget n : Nat) {inner : τ} {fields : Message}
    (hfields : ∀ f ∈ fields, ∀ rest,
      S.readField budget inner (.of (f.encode ++ rest)) = .ok (some f, .of rest))
    (hlen : (encodeMessage fields).length < 2 ^ 64) (rest : Bytes) :
    readValue (S.enter (budget + 1)) ⟨n, .delimited⟩ (.message inner)
        (.of (encodeVarint (encodeMessage fields).length ++ encodeMessage fields ++ rest)) =
      .ok (.message n fields, .of rest) := by
  rw [encodeMessage_eq_flatMap] at hlen ⊢
  have hread := readDelimited_encoded hfields (fun f _ => f.length_encode_pos) hlen rest
  rw [readValue, Reader.bind_ok (expect_self ⟨n, .delimited⟩ _), enter, List.append_assoc,
    Reader.bind_ok (Reader.map_ok hread _), List.filterMap_map]
  simp only [Function.id_comp, List.filterMap_some]
  rfl

/-- **A field reads back.**  Whatever follows it stays unread. -/
theorem readField_encode (hS : S.Keyed) {type : τ} {f : Field} (hf : S.Admits type f)
    {budget : Nat} (hdepth : f.depth ≤ budget) (hlen : f.encode.length < 2 ^ 64) (rest : Bytes) :
    S.readField budget type (.of (f.encode ++ rest)) = .ok (some f, .of rest) := by
  induction hf generalizing budget rest with
  | @single type n x hkind =>
    rw [readField_eq]
    exact S.readFieldWith_encode hS hkind (readValue_single _ n x rest)
  | @item type n x hkind =>
    rw [readField_eq]
    exact S.readFieldWith_encode hS hkind (readValue_item _ n x rest)
  | @packed type n xs form hkind hform =>
    have hvalue := Nat.lt_trans (length_encodeDelimited n _) hlen
    rw [readField_eq, Field.encode, encodeDelimited, List.append_assoc (Key.encode _)]
    exact S.readFieldWith_encode hS hkind (readValue_packed _ n hform hvalue rest)
  | @text type n s hkind =>
    have hvalue := Nat.lt_trans (length_encodeDelimited n _) hlen
    rw [readField_eq, Field.encode, encodeDelimited, List.append_assoc (Key.encode _)]
    exact S.readFieldWith_encode hS hkind (readValue_text _ n hvalue rest)
  | @bytes type n b hkind =>
    have hvalue := Nat.lt_trans (length_encodeDelimited n _) hlen
    rw [readField_eq, Field.encode, encodeDelimited, List.append_assoc (Key.encode _)]
    exact S.readFieldWith_encode hS hkind (readValue_bytes _ n hvalue rest)
  | @message type inner n fields hkind hfields ih =>
    have hvalue := Nat.lt_trans (length_encodeDelimited n _) hlen
    -- entering the message takes one level of the budget, which its depth leaves room for
    rw [Message.depth_message] at hdepth
    obtain ⟨budget, rfl⟩ : ∃ b, budget = b + 1 := ⟨budget - 1, by omega⟩
    have hinner : ∀ g ∈ fields, ∀ rest,
        S.readField budget inner (.of (g.encode ++ rest)) = .ok (some g, .of rest) := by
      intro g hg rest
      have hg_depth := Message.depth_le_of_mem hg
      have hg_len := length_encode_le_of_mem hg
      exact ih g hg (by omega) (by omega) rest
    rw [readField_eq, Field.encode, encodeDelimited, List.append_assoc (Key.encode _)]
    exact S.readFieldWith_encode hS hkind (S.readValue_message budget n hinner hvalue rest)

/-! ### Whole messages -/

/-- **A message reads back from its encoding**, if its type declares what it holds and
    it is not nested too deeply. -/
theorem decode_encodeMessage (hS : S.Keyed) {type : τ} {m : Message}
    (hm : ∀ f ∈ m, S.Admits type f) (hdepth : m.depth ≤ nestingLimit)
    (hlen : (encodeMessage m).length < 2 ^ 64) :
    S.decode type (encodeMessage m) = .ok m := by
  have hitem : ∀ f ∈ m, ∀ rest,
      S.readField nestingLimit type (.of (f.encode ++ rest)) = .ok (some f, .of rest) := by
    intro f hf rest
    have hf_depth := Message.depth_le_of_mem hf
    have hf_len := length_encode_le_of_mem hf
    exact S.readField_encode hS (hm f hf) (by omega) (by omega) rest
  have hcollect := Reader.collect_encoded hitem (fun f _ => f.length_encode_pos) []
    (Nat.le_refl _) []
  rw [List.append_nil, ← encodeMessage_eq_flatMap] at hcollect
  have hall : Reader.all (S.readField nestingLimit type) (.of (encodeMessage m)) =
      .ok (m.map some, .of []) := by
    rw [Reader.all, Reader.bind_ok (Reader.left_apply _)]
    exact hcollect
  rw [decode, hall]
  simp only [List.filterMap_map, Function.id_comp, List.filterMap_some]

end Schema

end Mpsx.Wire
