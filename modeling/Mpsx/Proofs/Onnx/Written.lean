/-
  Mpsx/Proofs/Onnx/Written.lean
  =============================
  **What written messages look like.**  Every field that is written is one the
  schema declares, in the declared form (`admits_writeModel`), and the depth of a
  written message is a matter of the graphs in attributes and of the types of
  descriptors (`depth_writeGraph_le_iff` and the lemmas before it).

  Writing recurses through lists of nodes, attributes and graphs; the equations at
  the start turn these companions into maps.
-/

import Mpsx.Onnx.Write
import Mpsx.Proofs.Model.Subgraphs
import Mpsx.Proofs.Wire.RoundTrip

namespace Mpsx.Onnx

open Wire

/-! ### Lists of nodes, attributes and graphs -/

def writeNamedAttribute (p : String × Attribute) : Message :=
  .text AttributeField.name p.1 ::
    (writeAttribute p.2 ++ [.number AttributeField.kind (.varint (kindOf p.2).code)])

theorem writeNodes_eq_map (nodes : List Node) :
    writeNodes nodes = nodes.map fun n => .message GraphField.node (writeNode n) := by
  induction nodes with
  | nil => rfl
  | cons n rest ih => rw [writeNodes, ih, List.map_cons]

theorem writeGraphs_eq_map (graphs : List Graph) :
    writeGraphs graphs = graphs.map fun g => .message AttributeField.graphs (writeGraph g) := by
  induction graphs with
  | nil => rfl
  | cons g rest ih => rw [writeGraphs, ih, List.map_cons]

theorem writeAttributes_eq_map (attributes : List (String × Attribute)) :
    writeAttributes attributes =
      attributes.map fun p => .message NodeField.attr (writeNamedAttribute p) := by
  induction attributes with
  | nil => rfl
  | cons p rest ih =>
    cases p
    rw [writeAttributes, ih, List.map_cons]
    rfl

theorem writeGraph_eq (g : Graph) :
    writeGraph g =
      (g.nodes.map fun n => .message GraphField.node (writeNode n)) ++
        [.text GraphField.name g.name] ++
        (g.initializers.map fun t => .message GraphField.initializer (writeTensor t)) ++
        ofText? GraphField.doc g.doc ++
        (g.inputs.map fun v => .message GraphField.input (writeValueInfo v)) ++
        (g.outputs.map fun v => .message GraphField.output (writeValueInfo v)) := by
  cases g
  rw [writeGraph, writeNodes_eq_map]

theorem writeNode_eq (n : Node) :
    writeNode n =
      n.inputs.map (.text NodeField.input) ++ n.outputs.map (.text NodeField.output) ++
        ofNonempty NodeField.name n.name ++ [.text NodeField.opType n.opType] ++
        (n.attributes.map fun p => .message NodeField.attr (writeNamedAttribute p)) ++
        ofText? NodeField.doc n.doc ++ ofNonempty NodeField.domain n.domain := by
  cases n
  rw [writeNode, writeAttributes_eq_map]

/-! ### Declared fields -/

theorem schema_keyed : schema.Keyed := by
  intro message n d h
  have hall : ∀ p ∈ MessageType.fields message, 0 < p.1 ∧ p.1 < 2 ^ 29 := by
    cases message <;> decide
  obtain ⟨before, after, hsplit, _⟩ := List.lookup_eq_some_iff.mp h
  exact hall (n, d) (by rw [hsplit]; simp)

section

variable {message : MessageType} {n : Nat}

theorem admits_ofText? (h : schema.kind? message n = some .text) (text : Option String) :
    ∀ f ∈ ofText? n text, schema.Admits message f := by
  cases text with
  | none => simp [ofText?]
  | some s =>
    intro f hf
    obtain rfl := List.mem_singleton.mp hf
    exact .text h

theorem admits_ofNonempty (h : schema.kind? message n = some .text) (text : String) :
    ∀ f ∈ ofNonempty n text, schema.Admits message f := by
  intro f hf
  unfold ofNonempty at hf
  split at hf
  · cases hf
  · obtain rfl := List.mem_singleton.mp hf
    exact .text h

theorem admits_ofPacked (form : NumberForm) (h : schema.kind? message n = some (.repeated form))
    {values : List Number} (hform : ∀ x ∈ values, x.form = form) :
    ∀ f ∈ ofPacked n values, schema.Admits message f := by
  intro f hf
  unfold ofPacked at hf
  split at hf
  · cases hf
  · obtain rfl := List.mem_singleton.mp hf
    exact .packed h hform

theorem admits_messages {α : Type} (inner : MessageType)
    (h : schema.kind? message n = some (.message inner)) {xs : List α} {write : α → Message}
    (hwrite : ∀ x ∈ xs, ∀ f ∈ write x, schema.Admits inner f) :
    ∀ f ∈ xs.map fun x => Field.message n (write x), schema.Admits message f := by
  intro f hf
  obtain ⟨x, hx, rfl⟩ := List.mem_map.mp hf
  exact .message h (hwrite x hx)

theorem admits_texts (h : schema.kind? message n = some .text) (texts : List String) :
    ∀ f ∈ texts.map (Field.text n), schema.Admits message f := by
  intro f hf
  obtain ⟨s, _, rfl⟩ := List.mem_map.mp hf
  exact .text h

end

theorem admits_writeTensor (t : Tensor) : ∀ f ∈ writeTensor t, schema.Admits .tensor f := by
  simp only [writeTensor, List.forall_mem_append, List.forall_mem_singleton]
  refine ⟨⟨⟨⟨?_, .single rfl⟩, ?_⟩, .text rfl⟩, ?_⟩
  · intro f hf
    obtain ⟨d, _, rfl⟩ := List.mem_map.mp hf
    exact .item rfl
  · cases t.payload with
    | floats xs => exact admits_ofPacked .fixed32 rfl (by simp [Number.form])
    | int32s ns => exact admits_ofPacked .varint rfl (by simp [Number.form])
    | int64s ns => exact admits_ofPacked .varint rfl (by simp [Number.form])
    | strings ss =>
      intro f hf
      obtain ⟨s, _, rfl⟩ := List.mem_map.mp hf
      exact .bytes rfl
    | _ => simp [writeLowData]
  · cases t.payload with
    | raw bytes =>
      intro f hf
      obtain rfl := List.mem_singleton.mp hf
      exact .bytes rfl
    | doubles xs => exact admits_ofPacked .fixed64 rfl (by simp [Number.form])
    | uint64s ns => exact admits_ofPacked .varint rfl (by simp [Number.form])
    | _ => simp [writeHighData]

theorem admits_writeDimension (d : Dimension) :
    ∀ f ∈ writeDimension d, schema.Admits .dimension f := by
  cases d with
  | value size => exact List.forall_mem_singleton.mpr (.single rfl)
  | param symbol => exact List.forall_mem_singleton.mpr (.text rfl)
  | unknown => simp [writeDimension]

theorem admits_writeTensorType (v : ValueInfo) :
    ∀ f ∈ writeTensorType v, schema.Admits .tensorType f := by
  rw [writeTensorType, List.forall_mem_cons]
  refine ⟨.single rfl, ?_⟩
  cases v.shape with
  | none => simp
  | some dims =>
    have hdims : ∀ f ∈ writeDescriptorShape dims, schema.Admits .tensorShape f :=
      admits_messages .dimension rfl fun d _ => admits_writeDimension d
    exact List.forall_mem_singleton.mpr (.message rfl hdims)

theorem admits_writeValueInfo (v : ValueInfo) :
    ∀ f ∈ writeValueInfo v, schema.Admits .valueInfo f := by
  rw [writeValueInfo, List.forall_mem_cons]
  refine ⟨.text rfl, ?_⟩
  split
  · simp
  · have htensor : schema.Admits .type (.message TypeField.tensor (writeTensorType v)) :=
      .message rfl (admits_writeTensorType v)
    exact List.forall_mem_singleton.mpr (.message rfl (List.forall_mem_singleton.mpr htensor))

/-- An attribute is admitted if the graphs it holds are. -/
theorem admits_writeNamedAttribute (p : String × Attribute)
    (hgraphs : ∀ g ∈ p.2.heldGraphs, ∀ f ∈ writeGraph g, schema.Admits .graph f) :
    ∀ f ∈ writeNamedAttribute p, schema.Admits .attr f := by
  obtain ⟨name, a⟩ := p
  rw [writeNamedAttribute, List.forall_mem_cons, List.forall_mem_append]
  refine ⟨.text rfl, ?_, List.forall_mem_singleton.mpr (.single rfl)⟩
  cases a with
  | float x => exact List.forall_mem_singleton.mpr (.single rfl)
  | int n => exact List.forall_mem_singleton.mpr (.single rfl)
  | string s => exact List.forall_mem_singleton.mpr (.bytes rfl)
  | tensor t => exact List.forall_mem_singleton.mpr (.message rfl (admits_writeTensor t))
  | graph g =>
    exact List.forall_mem_singleton.mpr (.message rfl (hgraphs g (List.mem_singleton.mpr rfl)))
  | floats xs =>
    intro f hf
    obtain ⟨x, _, rfl⟩ := List.mem_map.mp hf
    exact .item rfl
  | ints ns =>
    intro f hf
    obtain ⟨n, _, rfl⟩ := List.mem_map.mp hf
    exact .item rfl
  | strings ss =>
    intro f hf
    obtain ⟨s, _, rfl⟩ := List.mem_map.mp hf
    exact .bytes rfl
  | tensors ts => exact admits_messages .tensor rfl fun t _ => admits_writeTensor t
  | graphs gs =>
    rw [writeAttribute, writeGraphs_eq_map]
    exact admits_messages .graph rfl hgraphs

theorem admits_writeNode (n : Node)
    (hattributes : ∀ p ∈ n.attributes, ∀ f ∈ writeNamedAttribute p, schema.Admits .attr f) :
    ∀ f ∈ writeNode n, schema.Admits .node f := by
  rw [writeNode_eq]
  simp only [List.forall_mem_append, List.forall_mem_singleton]
  refine ⟨⟨⟨⟨⟨⟨?_, ?_⟩, ?_⟩, .text rfl⟩, ?_⟩, ?_⟩, ?_⟩
  · exact admits_texts rfl n.inputs
  · exact admits_texts rfl n.outputs
  · exact admits_ofNonempty rfl n.name
  · exact admits_messages .attr rfl hattributes
  · exact admits_ofText? rfl n.doc
  · exact admits_ofNonempty rfl n.domain

theorem admits_writeGraph (g : Graph) : ∀ f ∈ writeGraph g, schema.Admits .graph f := by
  induction g using Graph.children_induction with
  | step g ih =>
    have hnode : ∀ n ∈ g.nodes, ∀ f ∈ writeNode n, schema.Admits .node f := by
      intro n hn
      apply admits_writeNode
      intro p hp
      apply admits_writeNamedAttribute
      intro h hh
      exact ih h (Graph.mem_children_of_mem hn hp hh)
    rw [writeGraph_eq]
    simp only [List.forall_mem_append, List.forall_mem_singleton]
    refine ⟨⟨⟨⟨⟨?_, .text rfl⟩, ?_⟩, ?_⟩, ?_⟩, ?_⟩
    · exact admits_messages .node rfl hnode
    · exact admits_messages .tensor rfl fun t _ => admits_writeTensor t
    · exact admits_ofText? rfl g.doc
    · exact admits_messages .valueInfo rfl fun v _ => admits_writeValueInfo v
    · exact admits_messages .valueInfo rfl fun v _ => admits_writeValueInfo v

theorem admits_writeModel (m : Model) : ∀ f ∈ writeModel m, schema.Admits .model f := by
  simp only [writeModel, List.forall_mem_append, List.forall_mem_singleton]
  refine ⟨⟨⟨⟨?_, ?_⟩, ?_⟩, .message rfl (admits_writeGraph m.graph)⟩, ?_⟩
  · cases m.irVersion with
    | none => simp
    | some v => exact List.forall_mem_singleton.mpr (.single rfl)
  · exact admits_ofText? rfl m.producerName
  · exact admits_ofText? rfl m.producerVersion
  · refine admits_messages .operatorSet rfl fun s _ => ?_
    rw [writeOperatorSet, List.forall_mem_cons]
    exact ⟨.text rfl, List.forall_mem_singleton.mpr (.single rfl)⟩

/-! ### Depth -/

@[simp] theorem depth_ofText? (n : Nat) (text : Option String) :
    Message.depth (ofText? n text) = 0 := by
  cases text <;> rfl

@[simp] theorem depth_ofNonempty (n : Nat) (text : String) :
    Message.depth (ofNonempty n text) = 0 := by
  unfold ofNonempty
  split <;> rfl

@[simp] theorem depth_ofPacked (n : Nat) (values : List Number) :
    Message.depth (ofPacked n values) = 0 := by
  unfold ofPacked
  split <;> rfl

/-- A tensor has no messages in it. -/
theorem depth_writeTensor (t : Tensor) : Message.depth (writeTensor t) = 0 := by
  have hshape : Message.depth (writeShape t.shape) = 0 := Message.depth_map_eq_zero (fun _ => rfl) _
  have hlow : Message.depth (writeLowData t.payload) = 0 := by
    cases t.payload with
    | strings ss => exact Message.depth_map_eq_zero (fun _ => rfl) _
    | _ => simp [writeLowData]
  have hhigh : Message.depth (writeHighData t.payload) = 0 := by
    cases t.payload <;> simp [writeHighData]
  simp [writeTensor, hshape, hlow, hhigh, ofElementType, ofInt32]

theorem depth_writeDimension (d : Dimension) : Message.depth (writeDimension d) = 0 := by
  cases d <;> rfl

/-- A shape is one level deep if it has an axis. -/
theorem depth_writeDescriptorShape_le_iff {dims : List Dimension} {d : Nat} :
    Message.depth (writeDescriptorShape dims) ≤ d ↔ (dims ≠ [] → 0 < d) :=
  Message.depth_flat_messages_le_iff depth_writeDimension

theorem depth_writeTensorType_le_iff {v : ValueInfo} {d : Nat} :
    Message.depth (writeTensorType v) ≤ d ↔
      ∀ dims, v.shape = some dims → Message.depth (writeDescriptorShape dims) < d := by
  cases hshape : v.shape with
  | none => simp [writeTensorType, hshape, ofElementType, ofInt32]
  | some dims =>
    have hdepth : Message.depth (writeTensorType v) =
        Message.depth (writeDescriptorShape dims) + 1 := by
      simp [writeTensorType, hshape, ofElementType, ofInt32]
    rw [hdepth, Nat.succ_le_iff]
    simp

/-- The type of a descriptor stands two levels down, if it is written. -/
theorem depth_writeValueInfo (v : ValueInfo) :
    Message.depth (writeValueInfo v) =
      if v.elementType = .undefined ∧ v.shape = none then 0
      else Message.depth (writeTensorType v) + 2 := by
  unfold writeValueInfo
  split <;> simp

theorem depth_writeNamedAttribute_le_iff {p : String × Attribute} {d : Nat} :
    Message.depth (writeNamedAttribute p) ≤ d ↔
      (p.2.heldTensors ≠ [] → 0 < d) ∧ ∀ g ∈ p.2.heldGraphs, Message.depth (writeGraph g) < d := by
  obtain ⟨name, a⟩ := p
  have hvalue : Message.depth (writeNamedAttribute (name, a)) =
      Message.depth (writeAttribute a) := by
    simp [writeNamedAttribute]
  rw [hvalue]
  cases a with
  | tensor t =>
    have hdepth : Message.depth (writeAttribute (.tensor t)) = 1 := by
      simp [writeAttribute, depth_writeTensor]
    rw [hdepth, Nat.succ_le_iff]
    simp [Attribute.heldTensors, Attribute.heldGraphs]
  | tensors ts =>
    rw [writeAttribute, Message.depth_flat_messages_le_iff depth_writeTensor]
    simp [Attribute.heldTensors, Attribute.heldGraphs]
  | graph g =>
    have hdepth : Message.depth (writeAttribute (.graph g)) = Message.depth (writeGraph g) + 1 := by
      simp [writeAttribute]
    rw [hdepth, Nat.succ_le_iff]
    simp [Attribute.heldTensors, Attribute.heldGraphs]
  | graphs gs =>
    rw [writeAttribute, writeGraphs_eq_map, Message.depth_messages_le_iff]
    simp [Attribute.heldTensors, Attribute.heldGraphs]
  | floats xs =>
    rw [writeAttribute, Message.depth_map_eq_zero (fun _ => rfl)]
    simp [Attribute.heldTensors, Attribute.heldGraphs]
  | ints ns =>
    rw [writeAttribute, Message.depth_map_eq_zero (fun _ => rfl)]
    simp [Attribute.heldTensors, Attribute.heldGraphs]
  | strings ss =>
    rw [writeAttribute, Message.depth_map_eq_zero (fun _ => rfl)]
    simp [Attribute.heldTensors, Attribute.heldGraphs]
  | _ => simp [writeAttribute, Attribute.heldTensors, Attribute.heldGraphs, ofInt64]

theorem depth_writeNode_le_iff {n : Node} {d : Nat} :
    Message.depth (writeNode n) ≤ d ↔
      ∀ p ∈ n.attributes, Message.depth (writeNamedAttribute p) < d := by
  have htexts : ∀ (k : Nat) (ss : List String), Message.depth (ss.map (.text k)) = 0 :=
    fun k ss => Message.depth_map_eq_zero (fun _ => rfl) ss
  rw [← Message.depth_messages_le_iff (n := NodeField.attr), writeNode_eq]
  simp [htexts]

theorem depth_writeGraph_le_iff {g : Graph} {d : Nat} :
    Message.depth (writeGraph g) ≤ d ↔
      (∀ n ∈ g.nodes, Message.depth (writeNode n) < d) ∧ (g.initializers ≠ [] → 0 < d) ∧
      ∀ v ∈ g.descriptors, Message.depth (writeValueInfo v) < d := by
  rw [writeGraph_eq]
  simp only [Message.depth_append, Message.depth_cons, Message.depth_nil, depth_ofText?,
    Message.depth_text, Nat.max_le, Message.depth_flat_messages_le_iff depth_writeTensor,
    Message.depth_messages_le_iff, Graph.descriptors, List.forall_mem_append]
  simp [and_assoc]

/-- A model is one level deeper than its graph. -/
theorem depth_writeModel_le_iff {m : Model} {d : Nat} :
    Message.depth (writeModel m) ≤ d ↔ Message.depth (writeGraph m.graph) < d := by
  have hversion : Message.depth (m.irVersion.map (ofInt64 ModelField.irVersion)).toList = 0 := by
    cases m.irVersion <;> rfl
  have hset : ∀ s, Message.depth (writeOperatorSet s) = 0 := fun _ => rfl
  simp only [writeModel, Message.depth_append, Message.depth_cons, Message.depth_nil, depth_ofText?,
    hversion, Nat.max_le, Message.depth_flat_messages_le_iff hset, Message.depth_message]
  omega

end Mpsx.Onnx
