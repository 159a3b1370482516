/-
  Mpsx/Proofs/Model/Stripped.lean
  ===============================
  **A model without its documentation.**  Removing documentation goes through a graph
  as the graph is built: the graphs below the result are the graphs below the
  original, each without its documentation, and the tensors and descriptors in them
  are the same.  So there is no documentation left at any depth, and a file that can
  represent a model can represent it without its documentation too.
-/

import Mathlib.Data.List.Basic
import Mpsx.Model.Documentation
import Mpsx.Proofs.Model.Subgraphs
import Mpsx.Proofs.Onnx.Representable
import Mpsx.Proofs.Onnx.Written

namespace Mpsx

/-- A graph without documentation on itself or its nodes; the graphs inside it are not
    looked at. -/
def Graph.Undocumented (g : Graph) : Prop := g.doc = none ∧ ∀ n ∈ g.nodes, n.doc = none

/-! ### What stripping keeps -/

theorem Node.strip_eq (n : Node) :
    n.strip = { n with
      attributes := n.attributes.map fun p => (p.1, p.2.strip)
      doc := none } := by
  cases n
  rw [Node.strip, stripAttributes_eq_map]

theorem Graph.strip_eq (g : Graph) :
    g.strip = { g with
      nodes := g.nodes.map Node.strip
      doc := none } := by
  cases g
  rw [Graph.strip, stripNodes_eq_map]

theorem Attribute.heldGraphs_strip (a : Attribute) :
    a.strip.heldGraphs = a.heldGraphs.map Graph.strip := by
  cases a with
  | graphs gs => rw [strip, heldGraphs, heldGraphs, stripGraphs_eq_map]
  | _ => rfl

theorem Attribute.heldTensors_strip (a : Attribute) : a.strip.heldTensors = a.heldTensors := by
  cases a <;> rfl

namespace Graph

variable (g : Graph)

theorem attributes_strip : g.strip.attributes = g.attributes.map Attribute.strip := by
  rw [attributes, strip_eq, attributes, List.flatMap_map, List.map_flatMap]
  simp only [Node.strip_eq, List.map_map]
  rfl

theorem tensors_strip : g.strip.tensors = g.tensors := by
  rw [tensors, attributes_strip, List.flatMap_map, tensors]
  simp only [Attribute.heldTensors_strip, strip_eq]

theorem descriptors_strip : g.strip.descriptors = g.descriptors := by
  rw [descriptors, strip_eq, descriptors]

theorem children_strip : g.strip.children = g.children.map strip := by
  rw [children, attributes_strip, List.flatMap_map, children, List.map_flatMap]
  simp only [Attribute.heldGraphs_strip]

/-- The graphs inside a stripped graph are the stripped graphs inside it. -/
theorem subgraphs_strip : g.strip.subgraphs = g.subgraphs.map strip := by
  induction g using children_induction with
  | step g ih =>
    rw [subgraphs_eq, subgraphs_eq g, children_strip, List.map_cons, List.flatMap_map,
      List.map_flatMap]
    congr 1
    exact List.flatMap_congr ih

/-! ### What stripping removes -/

theorem undocumented_strip : g.strip.Undocumented := by
  rw [strip_eq]
  refine ⟨rfl, ?_⟩
  intro n hn
  obtain ⟨n, -, rfl⟩ := List.mem_map.mp hn
  rw [Node.strip_eq]

/-- No documentation is left at any depth. -/
theorem undocumented_of_mem_subgraphs_strip {h : Graph} (hh : h ∈ g.strip.subgraphs) :
    h.Undocumented := by
  rw [subgraphs_strip] at hh
  obtain ⟨k, -, rfl⟩ := List.mem_map.mp hh
  exact k.undocumented_strip

end Graph

/-! ### Files -/

namespace Onnx

/-- A stripped graph is nested no deeper. -/
theorem depth_writeGraph_strip_le (g : Graph) :
    Wire.Message.depth (writeGraph g.strip) ≤ Wire.Message.depth (writeGraph g) := by
  induction g using Graph.children_induction with
  | step g ih =>
    obtain ⟨hnodes, htensors, hdescriptors⟩ :=
      depth_writeGraph_le_iff.mp (Nat.le_refl (Wire.Message.depth (writeGraph g)))
    rw [depth_writeGraph_le_iff, Graph.descriptors_strip, Graph.strip_eq]
    refine ⟨?_, htensors, hdescriptors⟩
    intro n' hn'
    obtain ⟨n, hn, rfl⟩ := List.mem_map.mp hn'
    apply Nat.lt_of_le_of_lt _ (hnodes n hn)
    rw [Node.strip_eq, depth_writeNode_le_iff]
    intro p' hp'
    obtain ⟨p, hp, rfl⟩ := List.mem_map.mp hp'
    have hattribute := depth_writeNode_le_iff.mp (Nat.le_refl _) p hp
    apply Nat.lt_of_le_of_lt _ hattribute
    obtain ⟨hheld, hgraphs⟩ := depth_writeNamedAttribute_le_iff.mp
      (Nat.le_refl (Wire.Message.depth (writeNamedAttribute p)))
    rw [depth_writeNamedAttribute_le_iff, Attribute.heldTensors_strip, Attribute.heldGraphs_strip]
    refine ⟨hheld, ?_⟩
    intro k' hk'
    obtain ⟨k, hk, rfl⟩ := List.mem_map.mp hk'
    have hchild : k ∈ g.children := Graph.mem_children_of_mem hn hp hk
    exact Nat.lt_of_le_of_lt (ih k hchild) (hgraphs k hk)

end Onnx

theorem Graph.strip_representable {g : Graph} (h : g.Representable) : g.strip.Representable where
  tensors := by
    rw [tensors_strip]
    exact h.tensors
  descriptors := by
    rw [descriptors_strip]
    exact h.descriptors

theorem Model.strip_representable {m : Model} (h : m.Representable) : m.strip.Representable where
  graphs := by
    intro g' hg'
    rw [strip, Graph.subgraphs_strip] at hg'
    obtain ⟨g, hg, rfl⟩ := List.mem_map.mp hg'
    exact Graph.strip_representable (h.graphs g hg)
  depth := by
    have hdepth := h.depth
    rw [Onnx.depth_writeModel_le_iff] at hdepth ⊢
    exact Nat.lt_of_le_of_lt (Onnx.depth_writeGraph_strip_le m.graph) hdepth

end Mpsx
