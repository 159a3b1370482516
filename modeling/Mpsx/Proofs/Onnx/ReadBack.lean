/-
  Mpsx/Proofs/Onnx/ReadBack.lean
  ==============================
  **Reading what was written.**  For each part of a model, its message is read as
  that part again, from any source: nothing that is written refers to another
  file.  What the conditions of `Representable` are for shows here: a tensor comes
  back if its dimensions, its type and the form of its data do.

  The views of written messages are computed by the rules of `Wire.Message`; each
  lemma names the view it needs.
-/

import Mpsx.Proofs.Onnx.Reading
import Mpsx.Proofs.Onnx.Representable
import Mpsx.Proofs.Onnx.Written
import Mpsx.Proofs.Wire.Views

namespace Mpsx.Onnx

open Wire

/-! ### Numbers and optional texts -/

/-- A 32-bit number survives its extension to 64 bits. -/
theorem toInt32_toUInt64 (v : Int32) : toInt32 v.toInt64.toUInt64 = v := by
  have hlow : toInt32 v.toInt64.toUInt64 = v.toInt64.toInt32 := by
    apply Int32.toBitVec_inj.mp
    rw [Int64.toBitVec_toInt32, BitVec.signExtend_eq_setWidth_of_le _ (by decide)]
    rfl
  rw [hlow, Int32.toInt32_toInt64]

section

variable (k n : Nat) (values : List Number) (s : String) (o : Option String)

@[simp] theorem numbers_ofPacked :
    Message.numbers (ofPacked k values) n = if k = n then values else [] := by
  cases values <;> simp [ofPacked, Field.numbers]

@[simp] theorem texts_ofPacked : Message.texts (ofPacked k values) n = [] := by
  cases values <;> simp [ofPacked, Field.text?]

@[simp] theorem blobs_ofPacked : Message.blobs (ofPacked k values) n = [] := by
  cases values <;> simp [ofPacked, Field.bytes?]

@[simp] theorem numbers_ofText? : Message.numbers (ofText? k o) n = [] := by
  cases o <;> simp [ofText?, Field.numbers]

@[simp] theorem texts_ofText? :
    Message.texts (ofText? k o) n = if k = n then o.toList else [] := by
  cases o with
  | none => simp [ofText?]
  | some t =>
    simp only [ofText?, Option.map_some, Option.toList_some, Message.texts_cons, Field.text?,
      Message.texts_nil, List.append_nil]
    split <;> rfl

@[simp] theorem messages_ofText? : Message.messages (ofText? k o) n = [] := by
  cases o <;> simp [ofText?, Field.message?]

@[simp] theorem texts_ofNonempty :
    Message.texts (ofNonempty k s) n = if k = n ∧ s ≠ "" then [s] else [] := by
  unfold ofNonempty
  split <;> simp_all [Field.text?]
  split <;> rfl

@[simp] theorem getLast?_toList : o.toList.getLast? = o := by
  cases o <;> rfl

/-- A text that is not written is the empty one. -/
@[simp] theorem getD_getLast?_nonempty :
    (if s = "" then [] else [s]).getLast?.getD "" = s := by
  split
  · next h => exact h.symm
  · rfl

@[simp] theorem messages_ofNonempty : Message.messages (ofNonempty k s) n = [] := by
  unfold ofNonempty
  split <;> simp [Field.message?]

end

/-! ### Tensors -/

section

variable (t : Tensor)

theorem textOf_writeTensor : textOf (writeTensor t) TensorField.name = t.name := by
  cases t with
  | mk name shape elementType payload =>
    cases payload <;>
      simp +decide [textOf, Message.text?, writeTensor, writeShape, ofElementType, ofInt32,
        writeLowData, writeHighData, Field.text?]

theorem dims_writeTensor : Message.varints (writeTensor t) TensorField.dims = t.shape := by
  cases t with
  | mk name shape elementType payload =>
    cases payload <;>
      simp +decide [Message.varints, writeTensor, writeShape, ofElementType, ofInt32, writeLowData,
        writeHighData, Field.numbers, ← List.map_eq_flatMap, Function.comp_def, Number.varint?]

theorem elementTypeOf_writeTensor :
    elementTypeOf (writeTensor t) TensorField.elementType = .ofCode t.elementType.code := by
  cases t with
  | mk name shape elementType payload =>
    cases payload <;>
      simp +decide [elementTypeOf, Message.varint?, Message.varints, writeTensor, writeShape,
        ofElementType, ofInt32, writeLowData, writeHighData, Field.numbers, Number.varint?,
        toInt32_toUInt64]

theorem isExternal_writeTensor : isExternal (writeTensor t) = false := by
  cases t with
  | mk name shape elementType payload =>
    cases payload <;>
      simp +decide [isExternal, Message.varint?, Message.varints, writeTensor, writeShape,
        ofElementType, ofInt32, writeLowData, writeHighData, Field.numbers]

/-- Raw bytes are found in their field, which no other payload fills. -/
theorem bytes?_writeTensor :
    Message.bytes? (writeTensor t) TensorField.raw =
      match t.payload with
      | .raw bytes => some bytes
      | _ => none := by
  cases t with
  | mk name shape elementType payload =>
    cases payload <;>
      simp +decide [Message.bytes?, writeTensor, writeShape, ofElementType, ofInt32, writeLowData,
        writeHighData, Field.bytes?]

omit t in
/-- Types that have no list of their own keep their data in 32-bit numbers. -/
theorem typedPayload_unlisted (m : Message) {elementType : ElementType}
    (h : elementType ∉ [.float32, .complex64, .float64, .complex128, .int64, .uint32, .uint64,
      .string]) :
    typedPayload m elementType = .int32s ((m.varints TensorField.int32s).map toInt32) := by
  unfold typedPayload
  split <;> simp_all

/-- A typed payload of the form that belongs to the type is found in its field. -/
theorem typedPayload_writeTensor (hraw : ∀ bytes, t.payload ≠ .raw bytes)
    (hsuits : t.payload.Suits t.elementType) :
    typedPayload (writeTensor t) t.elementType = t.payload := by
  obtain ⟨name, shape, elementType, payload⟩ := t
  cases payload with
  | raw bytes => exact absurd rfl (hraw bytes)
  | floats xs =>
    rcases hsuits with rfl | rfl <;>
      simp +decide [typedPayload, Message.fixed32s, writeTensor, writeShape, ofElementType, ofInt32,
        writeLowData, writeHighData, Field.numbers, Function.comp_def, Number.fixed32?]
  | doubles xs =>
    rcases hsuits with rfl | rfl <;>
      simp +decide [typedPayload, Message.fixed64s, writeTensor, writeShape, ofElementType, ofInt32,
        writeLowData, writeHighData, Field.numbers, Function.comp_def, Number.fixed64?]
  | int64s ns =>
    obtain rfl := hsuits
    simp +decide [typedPayload, Message.varints, writeTensor, writeShape, ofElementType, ofInt32,
      writeLowData, writeHighData, Field.numbers, Function.comp_def, Number.varint?]
  | uint64s ns =>
    rcases hsuits with rfl | rfl <;>
      simp +decide [typedPayload, Message.varints, writeTensor, writeShape, ofElementType, ofInt32,
        writeLowData, writeHighData, Field.numbers, Function.comp_def, Number.varint?]
  | strings ss =>
    obtain rfl := hsuits
    simp +decide [typedPayload, writeTensor, writeShape, ofElementType, ofInt32, writeLowData,
      writeHighData, Field.bytes?]
  | int32s ns =>
    rw [typedPayload_unlisted _ hsuits]
    simp +decide [Message.varints, writeTensor, writeShape, ofElementType, ofInt32, writeLowData,
      writeHighData, Field.numbers, Function.comp_def, Number.varint?, toInt32_toUInt64]

theorem readTensor_writeTensor (source : Source) {t : Tensor} (ht : t.Representable) :
    (readTensor source (writeTensor t)).result = .ok t := by
  have htype : t.elementType = elementTypeOf (writeTensor t) TensorField.elementType := by
    rw [elementTypeOf_writeTensor, ElementType.ofCode_code ht.type]
  have hpayload : ReadsPayload source (writeTensor t) t.payload := by
    rw [ReadsPayload, isExternal_writeTensor, if_neg (by decide), bytes?_writeTensor, ← htype]
    by_cases hraw : ∃ bytes, t.payload = .raw bytes
    · obtain ⟨bytes, hbytes⟩ := hraw
      rw [hbytes]
      rfl
    · have htyped := typedPayload_writeTensor t (fun bytes h => hraw ⟨bytes, h⟩) ht.payload
      rw [htyped]
      cases hp : t.payload with
      | raw bytes => exact absurd ⟨bytes, hp⟩ hraw
      | _ => rfl
  refine readTensor_eq_ok_iff.mpr ⟨?_, (textOf_writeTensor t).symm, (dims_writeTensor t).symm,
    htype, hpayload⟩
  rw [dims_writeTensor]
  exact ht.dims

end

/-! ### Descriptors -/

theorem readDimension_writeDimension (d : Dimension) : readDimension (writeDimension d) = d := by
  cases d with
  | value size => simp [readDimension, writeDimension, ofInt64]
  | param symbol => simp [readDimension, writeDimension]
  | unknown => rfl

theorem elementTypeOf_writeTensorType (v : ValueInfo) :
    elementTypeOf (writeTensorType v) TensorTypeField.elementType = .ofCode v.elementType.code := by
  obtain ⟨name, elementType, shape⟩ := v
  cases shape <;>
    simp +decide [elementTypeOf, Message.varint?, Message.varints, writeTensorType, ofElementType,
      ofInt32, Field.numbers, Number.varint?, toInt32_toUInt64]

theorem shape_writeTensorType (v : ValueInfo) :
    ((Message.message? (writeTensorType v) TensorTypeField.shape).map fun s =>
      (s.messages ShapeField.dim).map readDimension) = v.shape := by
  obtain ⟨name, elementType, shape⟩ := v
  cases shape with
  | none =>
    simp +decide [Message.message?, writeTensorType, ofElementType, ofInt32, Field.message?]
  | some dims =>
    simp +decide [Message.message?, writeTensorType, ofElementType, ofInt32, Field.message?,
      writeDescriptorShape, Function.comp_def, readDimension_writeDimension]

theorem readValueInfo_writeValueInfo {v : ValueInfo} (hv : v.elementType.IsCanonical) :
    (readValueInfo (writeValueInfo v)).result = .ok v := by
  have hname : textOf (writeValueInfo v) ValueInfoField.name = v.name := by
    unfold writeValueInfo
    split <;> simp +decide [textOf, Message.text?, Field.text?]
  have htype : elementTypeOf (writeTensorType v) TensorTypeField.elementType = v.elementType := by
    rw [elementTypeOf_writeTensorType, ElementType.ofCode_code hv]
  have hshape := shape_writeTensorType v
  rw [readValueInfo, hname]
  by_cases hnothing : v.elementType = .undefined ∧ v.shape = none
  · -- nothing is known, and no type is written
    have hmissing : Message.message? (writeValueInfo v) ValueInfoField.type = none := by
      rw [writeValueInfo, if_pos hnothing]
      rfl
    obtain ⟨name, elementType, shape⟩ := v
    obtain ⟨rfl, rfl⟩ := hnothing
    rw [hmissing]
    rfl
  · have hwritten : ((Message.message? (writeValueInfo v) ValueInfoField.type).bind fun t =>
        t.chosen? typeMembers) = some (TypeField.tensor, writeTensorType v) := by
      rw [writeValueInfo, if_neg hnothing]
      rfl
    rw [hwritten]
    simp only [if_true, htype, hshape]
    rfl

/-! ### Attributes -/

section

variable (p : String × Attribute)

theorem textOf_writeNamedAttribute :
    textOf (writeNamedAttribute p) AttributeField.name = p.1 := by
  obtain ⟨name, a⟩ := p
  cases a <;>
    simp +decide [textOf, Message.text?, writeNamedAttribute, writeAttribute, writeGraphs_eq_map,
      Field.text?, ofInt64]

theorem reference_writeNamedAttribute :
    Message.text? (writeNamedAttribute p) AttributeField.reference = none := by
  obtain ⟨name, a⟩ := p
  cases a <;>
    simp +decide [Message.text?, writeNamedAttribute, writeAttribute, writeGraphs_eq_map,
      Field.text?, ofInt64]

/-- An attribute is read by the kind it was written with. -/
theorem selectedKind_writeNamedAttribute : selectedKind (writeNamedAttribute p) = kindOf p.2 := by
  obtain ⟨name, a⟩ := p
  have hkind : Message.varint? (writeNamedAttribute (name, a)) AttributeField.kind =
      some (kindOf a).code := by
    cases a <;>
      simp +decide [Message.varint?, Message.varints, writeNamedAttribute, writeAttribute,
        writeGraphs_eq_map, Field.numbers, Number.varint?, ofInt64]
  rw [selectedKind, declaredKind?, hkind]
  cases a <;> rfl

omit p in
theorem readText_ofString (attr s : String) :
    (readText attr (Bytes.ofString s)).result = .ok s := by
  rw [readText, Utf8.decode_ofString]
  rfl

/-- **An attribute reads back** if the graphs it holds do. -/
theorem readAttribute_writeNamedAttribute (source : Source) {p : String × Attribute}
    (htensors : ∀ t ∈ p.2.heldTensors, t.Representable)
    (hgraphs : ∀ g ∈ p.2.heldGraphs, (readGraph source (writeGraph g)).result = .ok g) :
    (readAttribute source (writeNamedAttribute p)).result = .ok p := by
  rw [readAttribute, reference_writeNamedAttribute, textOf_writeNamedAttribute,
    selectedKind_writeNamedAttribute]
  obtain ⟨name, a⟩ := p
  simp only [Option.isSome_none, Bool.false_eq_true, if_false]
  cases a with
  | float x =>
    simp +decide [kindOf, Message.fixed32?, Message.fixed32s, writeNamedAttribute, writeAttribute,
      Field.numbers, Number.fixed32?]
  | int n =>
    simp +decide [kindOf, Message.varint?, Message.varints, writeNamedAttribute, writeAttribute,
      Field.numbers, Number.varint?, ofInt64]
  | string s =>
    have hvalue : Message.bytes? (writeNamedAttribute (name, .string s)) AttributeField.string =
        some (Bytes.ofString s) := by
      simp +decide [Message.bytes?, writeNamedAttribute, writeAttribute, Field.bytes?]
    simp only [kindOf, hvalue, Option.getD_some, Traced.bind_eq_ok_iff]
    exact ⟨s, readText_ofString name s, rfl⟩
  | tensor t =>
    have hvalue : Message.message? (writeNamedAttribute (name, .tensor t)) AttributeField.tensor =
        some (writeTensor t) := by
      simp +decide [Message.message?, writeNamedAttribute, writeAttribute, Field.message?]
    have ht := readTensor_writeTensor source (htensors t (List.mem_singleton.mpr rfl))
    simp only [kindOf, hvalue, Traced.bind_eq_ok_iff, Traced.require_eq_ok_iff]
    exact ⟨writeTensor t, rfl, t, ht, rfl⟩
  | graph g =>
    have hvalue : Message.message? (writeNamedAttribute (name, .graph g)) AttributeField.graph =
        some (writeGraph g) := by
      simp +decide [Message.message?, writeNamedAttribute, writeAttribute, Field.message?]
    have hg := hgraphs g (List.mem_singleton.mpr rfl)
    simp only [kindOf]
    -- the match carries the proof that its message is a smaller one, so it is split, not rewritten
    split
    · next hnone => exact absurd (hnone.symm.trans hvalue) (by simp)
    · next k hk =>
      obtain rfl := Option.some.inj (hk.symm.trans hvalue)
      exact Traced.bind_eq_ok_iff.mpr ⟨g, hg, rfl⟩
  | floats xs =>
    simp +decide [kindOf, Message.fixed32s, writeNamedAttribute, writeAttribute, Field.numbers,
      Number.fixed32?, ← List.map_eq_flatMap, Function.comp_def]
  | ints ns =>
    simp +decide [kindOf, Message.varints, writeNamedAttribute, writeAttribute, Field.numbers,
      Number.varint?, ofInt64, ← List.map_eq_flatMap, Function.comp_def]
  | strings ss =>
    have hvalue : Message.blobs (writeNamedAttribute (name, .strings ss)) AttributeField.strings =
        ss.map Bytes.ofString := by
      simp +decide [writeNamedAttribute, writeAttribute, Field.bytes?]
    simp only [kindOf, hvalue, Traced.bind_eq_ok_iff, Traced.mapM_eq_ok_iff,
      List.forall₂_map_left_iff]
    exact ⟨ss, List.forall₂_same.mpr fun s _ => readText_ofString name s, rfl⟩
  | tensors ts =>
    have hvalue : Message.messages (writeNamedAttribute (name, .tensors ts))
        AttributeField.tensors = ts.map writeTensor := by
      simp +decide [writeNamedAttribute, writeAttribute, Field.message?]
    simp only [kindOf, hvalue, Traced.bind_eq_ok_iff, Traced.mapM_eq_ok_iff,
      List.forall₂_map_left_iff]
    exact ⟨ts, List.forall₂_same.mpr fun t ht => readTensor_writeTensor source (htensors t ht), rfl⟩
  | graphs gs =>
    have hvalue : Message.messages (writeNamedAttribute (name, .graphs gs)) AttributeField.graphs =
        gs.map writeGraph := by
      simp +decide [writeNamedAttribute, writeAttribute, writeGraphs_eq_map, Field.message?]
    simp only [kindOf]
    rw [List.mapM_subtype (g := readGraph source) (by intros; rfl), List.unattach_attach, hvalue]
    simp only [Traced.bind_eq_ok_iff, Traced.mapM_eq_ok_iff, List.forall₂_map_left_iff]
    exact ⟨gs, List.forall₂_same.mpr hgraphs, rfl⟩

end

/-! ### Nodes, graphs and models -/

theorem forall₂_messages {α : Type} {read : Message → Load α} {write : α → Message} {xs : List α}
    (h : ∀ x ∈ xs, (read (write x)).result = .ok x) :
    List.Forall₂ (fun k x => (read k).result = .ok x) (xs.map write) xs :=
  List.forall₂_map_left_iff.mpr (List.forall₂_same.mpr h)

theorem attributes_writeNode (n : Node) :
    Message.messages (writeNode n) NodeField.attr = n.attributes.map writeNamedAttribute := by
  rw [writeNode_eq]
  simp +decide [Field.message?]

theorem nodes_writeGraph (g : Graph) :
    Message.messages (writeGraph g) GraphField.node = g.nodes.map writeNode := by
  rw [writeGraph_eq]
  simp +decide [Field.message?]

theorem graph_writeModel (m : Model) :
    Message.message? (writeModel m) ModelField.graph = some (writeGraph m.graph) := by
  cases hv : m.irVersion <;>
    simp +decide [Message.message?, writeModel, hv, Field.message?, ofInt64]

theorem readNode_writeNode (source : Source) {n : Node}
    (hattributes : ∀ p ∈ n.attributes,
      (readAttribute source (writeNamedAttribute p)).result = .ok p) :
    (readNode source (writeNode n)).result = .ok n := by
  rw [readNode_eq_ok_iff, attributes_writeNode, writeNode_eq]
  refine ⟨?_, ?_, ?_, ?_, ?_, ?_, forall₂_messages hattributes⟩
  · simp +decide [textOf, Message.text?, Field.text?]
  · simp +decide [textOf, Message.text?, Field.text?]
  · simp +decide [textOf, Message.text?, Field.text?]
  · simp +decide [Field.text?]
  · simp +decide [Field.text?]
  · simp +decide [Message.text?, Field.text?]

/-- **A graph reads back** if a file can represent it, at every depth. -/
theorem readGraph_writeGraph (source : Source) (g : Graph)
    (hg : ∀ h ∈ g.subgraphs, h.Representable) :
    (readGraph source (writeGraph g)).result = .ok g := by
  induction g using Graph.children_induction with
  | step g ih =>
    have hself : g.Representable := hg g (Graph.mem_subgraphs_iff.mpr (.inl rfl))
    have hchild : ∀ h ∈ g.children, (readGraph source (writeGraph h)).result = .ok h := by
      intro h hh
      exact ih h hh fun k hk => hg k (Graph.mem_subgraphs_iff.mpr (.inr ⟨h, hh, hk⟩))
    have hnode : ∀ n ∈ g.nodes, (readNode source (writeNode n)).result = .ok n := by
      intro n hn
      apply readNode_writeNode
      intro p hp
      have hmem : p.2 ∈ g.attributes := Graph.mem_attributes_iff.mpr ⟨n, hn, p.1, hp⟩
      apply readAttribute_writeNamedAttribute
      · intro t ht
        exact hself.tensors t (by simp only [Graph.tensors, List.mem_append, List.mem_flatMap]
                                  exact .inr ⟨p.2, hmem, ht⟩)
      · intro h hh
        exact hchild h (Graph.mem_children_iff.mpr ⟨p.2, hmem, hh⟩)
    have hdescriptor : ∀ v ∈ g.descriptors, (readValueInfo (writeValueInfo v)).result = .ok v :=
      fun v hv => readValueInfo_writeValueInfo (hself.descriptors v hv)
    have htensor : ∀ t ∈ g.initializers, (readTensor source (writeTensor t)).result = .ok t := by
      intro t ht
      exact readTensor_writeTensor source (hself.tensors t (List.mem_append_left _ ht))
    obtain ⟨hinput, houtput⟩ := List.forall_mem_append.mp hdescriptor
    rw [readGraph_eq_ok_iff, writeGraph_eq]
    refine ⟨?_, ?_, ?_, ?_, ?_, ?_, ?_⟩
    · simp +decide [Field.message?]
    · simp +decide [textOf, Message.text?, Field.text?]
    · simp +decide [Message.text?, Field.text?]
    · simp +decide [Field.message?, forall₂_messages hnode]
    · simp +decide [Field.message?, forall₂_messages hinput]
    · simp +decide [Field.message?, forall₂_messages houtput]
    · simp +decide [Field.message?, forall₂_messages htensor]

theorem readModel_writeModel (source : Source) {m : Model}
    (hm : ∀ g ∈ m.graph.subgraphs, g.Representable) :
    (readModel source (writeModel m)).result = .ok m := by
  have hset : ∀ s, readOperatorSet (writeOperatorSet s) = s := by
    intro s
    simp +decide [readOperatorSet, writeOperatorSet, textOf, Message.text?, Message.varint?,
      Message.varints, Field.text?, Field.numbers, Number.varint?, ofInt64]
  rw [readModel, graph_writeModel]
  simp only [Traced.bind_eq_ok_iff, Traced.require_eq_ok_iff]
  refine ⟨writeGraph m.graph, rfl, m.graph, readGraph_writeGraph source m.graph hm, ?_⟩
  obtain ⟨version, sets, producer, release, graph⟩ := m
  cases version <;>
    simp +decide [Message.varint?, Message.varints, Message.text?, writeModel, Field.text?,
      Field.numbers, Field.message?, Number.varint?, ofInt64, hset, Function.comp_def]

end Mpsx.Onnx
