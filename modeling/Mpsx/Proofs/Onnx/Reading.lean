/-
  Mpsx/Proofs/Onnx/Reading.lean
  =============================
  **When messages are read.**  For each kind of message: under which conditions
  reading it succeeds, and with what.  Lists of nested messages are read entry by
  entry, so success is stated with `List.Forall₂` between the messages and what
  they are read as.

  Attributes have ten forms, and what the rest of the theory needs of them is the
  same in all: the tensors and graphs they hold are read from messages inside them
  (`readAttribute_held`).
-/

import Mathlib.Algebra.Group.Nat.Defs
import Mpsx.Onnx.Read
import Mpsx.Proofs.Model.Subgraphs
import Mpsx.Proofs.Traced
import Mpsx.Proofs.Wire.Depth

namespace Mpsx.Onnx

open Wire

variable {source : Source}

/-! ### Tensors -/

theorem readShape_eq_ok_iff {name : String} {dims shape : List UInt64} :
    readShape name dims = .ok shape ↔ shape = dims ∧ ∀ d ∈ dims, d.toNat < 2 ^ 63 := by
  unfold readShape
  split
  · next h =>
    constructor
    · intro hok
      cases hok
      exact ⟨rfl, by simpa using h⟩
    · rintro ⟨rfl, _⟩
      rfl
  · next h =>
    constructor
    · intro hok
      cases hok
    · rintro ⟨rfl, hdims⟩
      exact absurd (by simpa using hdims) h

def ReadsPayload (source : Source) (m : Message) (p : Payload) : Prop :=
  if isExternal m then
    ∃ bytes, (externalData source (textOf m TensorField.name) (externalEntries m)).result =
      .ok bytes ∧ p = .raw bytes
  else
    p = ((m.bytes? TensorField.raw).map Payload.raw).getD
      (typedPayload m (elementTypeOf m TensorField.elementType))

theorem readTensor_eq_ok_iff {m : Message} {t : Tensor} :
    (readTensor source m).result = .ok t ↔
      (∀ d ∈ m.varints TensorField.dims, d.toNat < 2 ^ 63) ∧
      t.name = textOf m TensorField.name ∧ t.shape = m.varints TensorField.dims ∧
      t.elementType = elementTypeOf m TensorField.elementType ∧
      ReadsPayload source m t.payload := by
  obtain ⟨name, shape, elementType, payload⟩ := t
  simp only [readTensor, ReadsPayload, Traced.bind_eq_ok_iff, Traced.result_ofExcept,
    readShape_eq_ok_iff]
  constructor
  · rintro ⟨_, ⟨rfl, hdims⟩, h⟩
    refine ⟨hdims, ?_⟩
    split at h
    · next hext =>
      obtain ⟨bytes, hbytes, h⟩ := Traced.bind_eq_ok_iff.mp h
      cases h
      rw [if_pos hext]
      exact ⟨rfl, rfl, rfl, bytes, hbytes, rfl⟩
    · next hext =>
      rw [if_neg hext]
      cases hraw : m.bytes? TensorField.raw <;> rw [hraw] at h <;> cases h <;>
        exact ⟨rfl, rfl, rfl, rfl⟩
  · rintro ⟨hdims, rfl, rfl, rfl, hpayload⟩
    refine ⟨_, ⟨rfl, hdims⟩, ?_⟩
    split at hpayload
    · next hext =>
      obtain ⟨bytes, hbytes, rfl⟩ := hpayload
      rw [if_pos hext]
      exact Traced.bind_eq_ok_iff.mpr ⟨bytes, hbytes, rfl⟩
    · next hext =>
      subst hpayload
      rw [if_neg hext]
      cases m.bytes? TensorField.raw <;> rfl

/-! ### Nodes and graphs -/

theorem readNode_eq_ok_iff {m : Message} {n : Node} :
    (readNode source m).result = .ok n ↔
      n.name = textOf m NodeField.name ∧ n.opType = textOf m NodeField.opType ∧
      n.domain = textOf m NodeField.domain ∧ n.inputs = m.texts NodeField.input ∧
      n.outputs = m.texts NodeField.output ∧ n.doc = m.text? NodeField.doc ∧
      List.Forall₂ (fun k a => (readAttribute source k).result = .ok a)
        (m.messages NodeField.attr) n.attributes := by
  obtain ⟨name, opType, domain, inputs, outputs, attributes, doc⟩ := n
  rw [readNode, List.mapM_subtype (g := readAttribute source) (by intros; rfl),
    List.unattach_attach, Traced.bind_eq_ok_iff]
  simp only [Traced.mapM_eq_ok_iff]
  constructor
  · rintro ⟨as, has, h⟩
    cases h
    exact ⟨rfl, rfl, rfl, rfl, rfl, rfl, has⟩
  · rintro ⟨rfl, rfl, rfl, rfl, rfl, rfl, has⟩
    exact ⟨attributes, has, rfl⟩

theorem readGraph_eq_ok_iff {m : Message} {g : Graph} :
    (readGraph source m).result = .ok g ↔
      m.messages GraphField.sparseInitializer = [] ∧ g.name = textOf m GraphField.name ∧
      g.doc = m.text? GraphField.doc ∧
      List.Forall₂ (fun k n => (readNode source k).result = .ok n)
        (m.messages GraphField.node) g.nodes ∧
      List.Forall₂ (fun k v => (readValueInfo k).result = .ok v)
        (m.messages GraphField.input) g.inputs ∧
      List.Forall₂ (fun k v => (readValueInfo k).result = .ok v)
        (m.messages GraphField.output) g.outputs ∧
      List.Forall₂ (fun k t => (readTensor source k).result = .ok t)
        (m.messages GraphField.initializer) g.initializers := by
  obtain ⟨name, nodes, inputs, outputs, initializers, doc⟩ := g
  rw [readGraph]
  by_cases hsparse : m.messages GraphField.sparseInitializer = []
  · -- events aside, the rest is a sequence of four lists
    simp only [hsparse, List.length_nil, ne_eq, not_true_eq_false, if_false, true_and]
    rw [List.mapM_subtype (g := readNode source) (by intros; rfl), List.unattach_attach,
      Traced.result_ite_report]
    simp only [Traced.bind_eq_ok_iff, Traced.mapM_eq_ok_iff]
    constructor
    · rintro ⟨ns, hns, is, his, os, hos, ts, hts, h⟩
      cases h
      exact ⟨rfl, rfl, hns, his, hos, hts⟩
    · rintro ⟨rfl, rfl, hns, his, hos, hts⟩
      exact ⟨nodes, hns, inputs, his, outputs, hos, initializers, hts, rfl⟩
  · constructor
    · intro h
      rw [if_pos (by simpa using hsparse)] at h
      cases h
    · rintro ⟨hnil, _⟩
      exact absurd hnil hsparse

/-! ### Attributes -/

/-- Tensors and graphs of an attribute are read from messages inside its message. -/
theorem readAttribute_held {m : Message} {p : String × Attribute}
    (h : (readAttribute source m).result = .ok p) :
    (∀ t ∈ p.2.heldTensors, ∃ k : Message,
      k.depth < m.depth ∧ (readTensor source k).result = .ok t) ∧
    (∀ g ∈ p.2.heldGraphs, ∃ k : Message,
      k.depth < m.depth ∧ (readGraph source k).result = .ok g) := by
  rw [readAttribute] at h
  by_cases href : (m.text? AttributeField.reference).isSome = true
  · rw [if_pos href] at h
    cases h
  rw [if_neg href] at h
  cases hkind : selectedKind m with
  | tensor =>
    simp only [hkind, Traced.bind_eq_ok_iff, Traced.require_eq_ok_iff] at h
    obtain ⟨k, hk, t, ht, h⟩ := h
    cases h
    refine ⟨?_, by simp [Attribute.heldGraphs]⟩
    intro t' ht'
    obtain rfl := List.mem_singleton.mp ht'
    exact ⟨k, Message.depth_lt_of_message? hk, ht⟩
  | tensors =>
    simp only [hkind, Traced.bind_eq_ok_iff, Traced.mapM_eq_ok_iff] at h
    obtain ⟨ts, hts, h⟩ := h
    cases h
    refine ⟨?_, by simp [Attribute.heldGraphs]⟩
    intro t ht
    obtain ⟨k, hk, hkt⟩ := exists_of_forall₂_right hts ht
    exact ⟨k, Message.depth_lt_of_mem_messages hk, hkt⟩
  | graph =>
    simp only [hkind] at h
    split at h
    · cases h
    · next k hk =>
      obtain ⟨g, hg, h⟩ := Traced.bind_eq_ok_iff.mp h
      cases h
      refine ⟨by simp [Attribute.heldTensors], ?_⟩
      intro g' hg'
      obtain rfl := List.mem_singleton.mp hg'
      exact ⟨k, Message.depth_lt_of_message? hk, hg⟩
  | graphs =>
    simp only [hkind] at h
    rw [List.mapM_subtype (g := readGraph source) (by intros; rfl), List.unattach_attach,
      Traced.bind_eq_ok_iff] at h
    obtain ⟨gs, hgs, h⟩ := h
    cases h
    refine ⟨by simp [Attribute.heldTensors], ?_⟩
    intro g hg
    obtain ⟨k, hk, hkg⟩ := exists_of_forall₂_right (Traced.mapM_eq_ok_iff.mp hgs) hg
    exact ⟨k, Message.depth_lt_of_mem_messages hk, hkg⟩
  | string =>
    simp only [hkind, Traced.bind_eq_ok_iff] at h
    obtain ⟨s, _, h⟩ := h
    cases h
    simp [Attribute.heldTensors, Attribute.heldGraphs]
  | strings =>
    simp only [hkind, Traced.bind_eq_ok_iff] at h
    obtain ⟨ss, _, h⟩ := h
    cases h
    simp [Attribute.heldTensors, Attribute.heldGraphs]
  | _ =>
    simp only [hkind] at h
    cases h <;> simp [Attribute.heldTensors, Attribute.heldGraphs]

/-! ### What a graph holds -/

section

variable {m : Message} {g : Graph}

/-- The attributes of a node are read from messages inside that of the node. -/
theorem readGraph_attributes (h : (readGraph source m).result = .ok g) {n : Node}
    (hn : n ∈ g.nodes) :
    ∃ k ∈ m.messages GraphField.node, ∀ p ∈ n.attributes,
      ∃ a ∈ k.messages NodeField.attr, (readAttribute source a).result = .ok p := by
  obtain ⟨-, -, -, hnodes, -, -, -⟩ := readGraph_eq_ok_iff.mp h
  obtain ⟨k, hk, hread⟩ := exists_of_forall₂_right hnodes hn
  obtain ⟨-, -, -, -, -, -, hattributes⟩ := readNode_eq_ok_iff.mp hread
  exact ⟨k, hk, fun p hp => exists_of_forall₂_right hattributes hp⟩

theorem readGraph_held (h : (readGraph source m).result = .ok g) {a : Attribute}
    (ha : a ∈ g.attributes) : ∃ k name, (readAttribute source k).result = .ok (name, a) := by
  obtain ⟨n, hn, name, hp⟩ := Graph.mem_attributes_iff.mp ha
  obtain ⟨_, -, hattributes⟩ := readGraph_attributes h hn
  obtain ⟨k, -, hread⟩ := hattributes _ hp
  exact ⟨k, name, hread⟩

theorem readGraph_tensors (h : (readGraph source m).result = .ok g) {t : Tensor}
    (ht : t ∈ g.tensors) : ∃ k, (readTensor source k).result = .ok t := by
  rcases List.mem_append.mp ht with ht | ht
  · obtain ⟨-, -, -, -, -, -, hinitializers⟩ := readGraph_eq_ok_iff.mp h
    obtain ⟨k, -, hread⟩ := exists_of_forall₂_right hinitializers ht
    exact ⟨k, hread⟩
  · obtain ⟨a, ha, hta⟩ := List.mem_flatMap.mp ht
    obtain ⟨k, name, hread⟩ := readGraph_held h ha
    obtain ⟨k', -, hread'⟩ := (readAttribute_held hread).1 t hta
    exact ⟨k', hread'⟩

theorem readGraph_children (h : (readGraph source m).result = .ok g) {child : Graph}
    (hchild : child ∈ g.children) : ∃ k, (readGraph source k).result = .ok child := by
  obtain ⟨a, ha, hheld⟩ := Graph.mem_children_iff.mp hchild
  obtain ⟨k, name, hread⟩ := readGraph_held h ha
  obtain ⟨k', -, hread'⟩ := (readAttribute_held hread).2 child hheld
  exact ⟨k', hread'⟩

end

end Mpsx.Onnx
