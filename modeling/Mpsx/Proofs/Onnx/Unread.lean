/-
  Mpsx/Proofs/Onnx/Unread.lean
  ============================
  **Fields that do not matter.**  Of a model's fields some are not declared, and some are
  declared and then never looked at: where the model comes from, its version, its
  documentation and its metadata.  Such fields can stand before everything else in a
  file without any effect, also on what is reported and refused, and behind everything
  else as soon as what precedes them can be read (`decode_unread`).

  Undeclared fields are walked over within the nesting limit.  Groups that are nested
  deeper are well formed too, but a file that begins with them is refused
  (`decode_nestedGroups_ne`).
-/

import Mpsx.Proofs.Onnx.Reading
import Mpsx.Proofs.Wire.Undeclared
import Mpsx.Proofs.Wire.Views

namespace Mpsx.Wire

/-! ### Fields of other numbers -/

def Field.fieldNumber : Field → Nat
  | .number n _ => n
  | .packed n _ => n
  | .text n _ => n
  | .bytes n _ => n
  | .message n _ => n

theorem Field.views_of_ne {f : Field} {n : Nat} (h : f.fieldNumber ≠ n) :
    f.numbers n = [] ∧ f.text? n = none ∧ f.message? n = none := by
  cases f with
  | number k x => exact ⟨if_neg h, rfl, rfl⟩
  | packed k xs => exact ⟨if_neg h, rfl, rfl⟩
  | text k s => exact ⟨rfl, if_neg h, rfl⟩
  | bytes k b => exact ⟨rfl, rfl, rfl⟩
  | message k fields => exact ⟨rfl, rfl, if_neg h⟩

end Mpsx.Wire

namespace Mpsx.Onnx

open Wire

/-! ### Unread fields -/

def unreadNames : List String := ["domain", "model_version", "doc_string", "metadata_props"]

/-- An encoded field that is not looked at: an undeclared one, nested at most the given
    number of levels deep, or one of the unread declared fields with a value that can be
    read. -/
inductive Unread (levels : Nat) : Bytes → Prop
  | undeclared {number : Nat} {bytes : Bytes} (hnumber : schema.field? .model number = none)
      (hfield : RawField levels number bytes) : Unread levels bytes
  | declared {f : Field} {d : Declaration MessageType} {bytes : Bytes}
      (hd : schema.field? .model f.fieldNumber = some d) (hname : d.name ∈ unreadNames)
      (hvalue : schema.decode .model bytes = .ok [f]) : Unread levels bytes

def readNumbers : List Nat :=
  [ModelField.irVersion, ModelField.producerName, ModelField.producerVersion, ModelField.graph,
    ModelField.operatorSet]

theorem not_mem_readNumbers {n : Nat} {d : Declaration MessageType}
    (hd : schema.field? .model n = some d) (hname : d.name ∈ unreadNames) : n ∉ readNumbers := by
  intro hn
  have hread : ∀ n ∈ readNumbers, ∀ d ∈ schema.field? .model n, d.name ∉ unreadNames := by
    decide
  exact hread n hn d hd hname

def Silent (m : Message) : Prop := ∀ f ∈ m, f.fieldNumber ∉ readNumbers

theorem Silent.views {m : Message} (h : Silent m) {n : Nat} (hn : n ∈ readNumbers) :
    m.numbers n = [] ∧ m.texts n = [] ∧ m.messages n = [] := by
  have hviews : ∀ f ∈ m, f.numbers n = [] ∧ f.text? n = none ∧ f.message? n = none := by
    intro f hf
    apply Field.views_of_ne
    rintro rfl
    exact h f hf hn
  exact ⟨List.flatMap_eq_nil_iff.mpr fun f hf => (hviews f hf).1,
    List.filterMap_eq_nil_iff.mpr fun f hf => (hviews f hf).2.1,
    List.filterMap_eq_nil_iff.mpr fun f hf => (hviews f hf).2.2⟩

theorem Unread.decode_silent {bytes : Bytes} (h : Unread nestingLimit bytes) :
    ∃ m, schema.decode .model bytes = .ok m ∧ Silent m := by
  cases h with
  | undeclared hnumber hfield =>
    exact ⟨[], schema.decode_undeclared hnumber hfield, by simp [Silent]⟩
  | @declared f d _ hd hname hvalue =>
    refine ⟨[f], hvalue, ?_⟩
    intro g hg
    obtain rfl := List.mem_singleton.mp hg
    exact not_mem_readNumbers hd hname

/-- Unread fields one after the other. -/
theorem decode_flatten_silent {fields : List Bytes}
    (h : ∀ field ∈ fields, Unread nestingLimit field) :
    ∃ m, schema.decode .model fields.flatten = .ok m ∧ Silent m := by
  induction fields with
  | nil => exact ⟨[], rfl, by simp [Silent]⟩
  | cons field fields ih =>
    obtain ⟨first, hfirst, hsilent⟩ := (h field (by simp)).decode_silent
    obtain ⟨rest, hrest, hsilent'⟩ := ih fun g hg => h g (by simp [hg])
    refine ⟨first ++ rest, ?_, ?_⟩
    · rw [List.flatten_cons, schema.decode_append hfirst, hrest]
      rfl
    · intro f hf
      rcases List.mem_append.mp hf with hf | hf
      · exact hsilent f hf
      · exact hsilent' f hf

/-- The model in a message depends on the views that `readModel` takes of it. -/
theorem readModel_congr_views (source : Source) {m k : Message}
    (hnumbers : ∀ n ∈ readNumbers, m.numbers n = k.numbers n)
    (htexts : ∀ n ∈ readNumbers, m.texts n = k.texts n)
    (hmessages : ∀ n ∈ readNumbers, m.messages n = k.messages n) :
    readModel source m = readModel source k := by
  simp only [readNumbers, List.forall_mem_cons] at hnumbers htexts hmessages
  simp only [readModel, Message.message?, Message.varint?, Message.varints, Message.text?,
    hnumbers, htexts, hmessages]

theorem readModel_insert (source : Source) {u : Message} (hu : Silent u) (before after : Message) :
    readModel source (before ++ u ++ after) = readModel source (before ++ after) := by
  apply readModel_congr_views
  · intro n hn
    simp only [Message.numbers_append, (hu.views hn).1, List.append_nil]
  · intro n hn
    simp only [Message.texts_append, (hu.views hn).2.1, List.append_nil]
  · intro n hn
    simp only [Message.messages_append, (hu.views hn).2.2, List.append_nil]

/-- **Unread fields have no effect**, in front of anything and behind anything that is a
    message.  What is reported on the way and every error are the same too. -/
theorem decode_unread (source : Source) {fields : List Bytes}
    (h : ∀ field ∈ fields, Unread nestingLimit field) :
    (∀ bytes, decode source (fields.flatten ++ bytes) = decode source bytes) ∧
      ∀ bytes m, schema.decode .model bytes = .ok m →
        decode source (bytes ++ fields.flatten) = decode source bytes := by
  obtain ⟨u, hu, hsilent⟩ := decode_flatten_silent h
  constructor
  · intro bytes
    rw [decode, decode, schema.decode_append hu]
    cases schema.decode .model bytes with
    | error fault => rfl
    | ok m => exact readModel_insert source hsilent [] m
  · intro bytes m hm
    have hread := readModel_insert source hsilent m []
    rw [List.append_nil, List.append_nil] at hread
    rw [decode, decode, schema.decode_append hm, hu, hm]
    exact hread

def emptyModel : Bytes := [0x3A, 0x00]

theorem decode_emptyModel : (decode .none emptyModel).result = .ok
    ⟨none, [], none, none, ⟨"", [], [], [], [], none⟩⟩ := by
  have hmessage : schema.decode .model emptyModel = .ok [.message ModelField.graph []] := rfl
  have hgraph : (readGraph .none []).result = .ok ⟨"", [], [], [], [], none⟩ :=
    readGraph_eq_ok_iff.mpr ⟨rfl, rfl, rfl, .nil, .nil, .nil, .nil⟩
  rw [decode, hmessage]
  exact Traced.bind_eq_ok_iff.mpr ⟨[], rfl, Traced.bind_eq_ok_iff.mpr ⟨_, hgraph, rfl⟩⟩

/-- Fields that a model does not declare, one of them a group that holds a zero in two
    bytes, then documentation and an empty piece of metadata. -/
def strayFields : List Bytes :=
  [[0xCA, 0x01, 0x02, 0xFF, 0xFF], [0x4B, 0x08, 0x80, 0x00, 0x4C], [0x32, 0x01, 0x61], [0x72, 0x00]]

theorem unread_strayFields : ∀ field ∈ strayFields, Unread nestingLimit field := by
  have hblob : RawField nestingLimit 25 ([0xCA, 0x01] ++ ([0x02] ++ [0xFF, 0xFF])) := by
    have hkey : IsVarint 202 [0xCA, 0x01] :=
      ⟨.more (b := 0xCA) (by decide) (.last (b := 0x01) (by decide)), by decide, by decide⟩
    exact .delimited ⟨⟨by decide, by decide⟩, hkey⟩ (.byte (b := 0x02) (by decide))
  have hzero : RawField 99 1 ([0x08] ++ [0x80, 0x00]) :=
    .varint (.byte rfl (by decide) (by decide))
      ⟨.more (b := 0x80) (by decide) (.last (b := 0x00) (by decide)), by decide, by decide⟩
  have hgroup : RawField nestingLimit 9
      ([0x4B] ++ ([(1, [0x08, 0x80, 0x00])].flatMap Prod.snd ++ [0x4C])) := by
    refine .group (.byte rfl (by decide) (by decide)) ?_ (.byte rfl (by decide) (by decide))
    intro f hf
    obtain rfl := List.mem_singleton.mp hf
    exact hzero
  intro field hfield
  simp only [strayFields, List.mem_cons, List.not_mem_nil, or_false] at hfield
  rcases hfield with rfl | rfl | rfl | rfl
  · exact .undeclared rfl hblob
  · exact .undeclared rfl hgroup
  · exact .declared (f := .text 6 "a") rfl (by decide) rfl
  · exact .declared (f := .message 14 []) rfl (by decide) rfl

/-- Stray fields around a model. -/
theorem decode_unread_strayFields :
    (∀ field ∈ strayFields, Unread nestingLimit field) ∧
      decode .none (strayFields.flatten ++ emptyModel) = decode .none emptyModel ∧
      decode .none (emptyModel ++ strayFields.flatten) = decode .none emptyModel := by
  obtain ⟨hbefore, hafter⟩ := decode_unread .none unread_strayFields
  exact ⟨unread_strayFields, hbefore _, hafter _ _ rfl⟩

/-- **Well-formed fields that do have an effect.**  Groups that a model does not declare,
    nested one level deeper than the limit, in front of a model that can be read. -/
theorem decode_nestedGroups_ne :
    Unread (nestingLimit + 1) (nestedGroups [0x4B] [0x4C] (nestingLimit + 1)) ∧
      decode .none (nestedGroups [0x4B] [0x4C] (nestingLimit + 1) ++ emptyModel) ≠
        decode .none emptyModel := by
  have hstart : IsKey ⟨9, .startGroup⟩ [0x4B] := .byte rfl (by decide) (by decide)
  have hstop : IsKey ⟨9, .endGroup⟩ [0x4C] := .byte rfl (by decide) (by decide)
  refine ⟨.undeclared rfl (RawField.nestedGroups hstart hstop nestingLimit), ?_⟩
  intro h
  have hresult := congrArg Traced.result h
  rw [decode_emptyModel, decode, schema.decode_nestedGroups rfl hstart] at hresult
  cases hresult

end Mpsx.Onnx
