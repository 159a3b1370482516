/-
  Mpsx/Proofs/Model/Subgraphs.lean
  ================================
  **Graphs inside graphs.**  An attribute may hold graphs, and these again have
  nodes with attributes.  `Graph.subgraphs` lists a graph with everything below
  it; "at every depth" in a statement means all entries of this list.

  `Graph.children_induction` is the induction that goes with it: what passes from
  the graphs held by a graph's attributes to the graph itself holds of every graph.
  It takes the place of a mutual induction over graphs, nodes and attributes.
-/

import Mpsx.Model.Basic

namespace Mpsx

/-! ### What a graph holds itself -/

def Attribute.heldGraphs : Attribute → List Graph
  | .graph g => [g]
  | .graphs gs => gs
  | _ => []

def Attribute.heldTensors : Attribute → List Tensor
  | .tensor t => [t]
  | .tensors ts => ts
  | _ => []

namespace Graph

def attributes (g : Graph) : List Attribute :=
  g.nodes.flatMap fun n => n.attributes.map Prod.snd

def children (g : Graph) : List Graph := g.attributes.flatMap Attribute.heldGraphs

def tensors (g : Graph) : List Tensor :=
  g.initializers ++ g.attributes.flatMap Attribute.heldTensors

def descriptors (g : Graph) : List ValueInfo := g.inputs ++ g.outputs

theorem mem_attributes_iff {g : Graph} {a : Attribute} :
    a ∈ g.attributes ↔ ∃ n ∈ g.nodes, ∃ name, (name, a) ∈ n.attributes := by
  simp [attributes]

theorem mem_children_iff {g h : Graph} :
    h ∈ g.children ↔ ∃ a ∈ g.attributes, h ∈ a.heldGraphs := by
  simp [children]

theorem mem_children_of_mem {g h : Graph} {n : Node} {p : String × Attribute} (hn : n ∈ g.nodes)
    (hp : p ∈ n.attributes) (hh : h ∈ p.2.heldGraphs) : h ∈ g.children :=
  mem_children_iff.mpr ⟨p.2, mem_attributes_iff.mpr ⟨n, hn, p.1, hp⟩, hh⟩

end Graph

/-! ### All graphs at every depth -/

mutual

/-- A graph and all graphs inside it. -/
def Graph.subgraphs : Graph → List Graph
  | ⟨name, nodes, inputs, outputs, initializers, doc⟩ =>
    ⟨name, nodes, inputs, outputs, initializers, doc⟩ :: nodesSubgraphs nodes

def nodesSubgraphs : List Node → List Graph
  | [] => []
  | n :: rest => n.subgraphs ++ nodesSubgraphs rest

def Node.subgraphs : Node → List Graph
  | ⟨_, _, _, _, _, attributes, _⟩ => attributesSubgraphs attributes

def attributesSubgraphs : List (String × Attribute) → List Graph
  | [] => []
  | (_, a) :: rest => a.subgraphs ++ attributesSubgraphs rest

def Attribute.subgraphs : Attribute → List Graph
  | .graph g => g.subgraphs
  | .graphs gs => graphsSubgraphs gs
  | .float _ => []
  | .int _ => []
  | .string _ => []
  | .tensor _ => []
  | .floats _ => []
  | .ints _ => []
  | .strings _ => []
  | .tensors _ => []

def graphsSubgraphs : List Graph → List Graph
  | [] => []
  | g :: rest => g.subgraphs ++ graphsSubgraphs rest

end

theorem graphsSubgraphs_eq (gs : List Graph) :
    graphsSubgraphs gs = gs.flatMap Graph.subgraphs := by
  induction gs with
  | nil => rfl
  | cons g rest ih => rw [graphsSubgraphs, ih, List.flatMap_cons]

theorem Attribute.subgraphs_eq (a : Attribute) :
    a.subgraphs = a.heldGraphs.flatMap Graph.subgraphs := by
  cases a with
  | graph g => simp [subgraphs, heldGraphs]
  | graphs gs => simp [subgraphs, heldGraphs, graphsSubgraphs_eq]
  | _ => rfl

theorem attributesSubgraphs_eq (attributes : List (String × Attribute)) :
    attributesSubgraphs attributes = attributes.flatMap fun p => p.2.subgraphs := by
  induction attributes with
  | nil => rfl
  | cons p rest ih =>
    cases p
    rw [attributesSubgraphs, ih, List.flatMap_cons]

theorem nodesSubgraphs_eq (nodes : List Node) :
    nodesSubgraphs nodes = nodes.flatMap fun n => n.attributes.flatMap fun p => p.2.subgraphs := by
  induction nodes with
  | nil => rfl
  | cons n rest ih =>
    rw [nodesSubgraphs, ih, List.flatMap_cons]
    cases n
    rw [Node.subgraphs, attributesSubgraphs_eq]

namespace Graph

/-- A graph, then what its children hold. -/
theorem subgraphs_eq (g : Graph) : g.subgraphs = g :: g.children.flatMap subgraphs := by
  cases g with
  | mk name nodes inputs outputs initializers doc =>
    rw [subgraphs, nodesSubgraphs_eq]
    simp only [children, attributes, List.flatMap_assoc, List.flatMap_map, Attribute.subgraphs_eq]

theorem mem_subgraphs_iff {g h : Graph} :
    h ∈ g.subgraphs ↔ h = g ∨ ∃ k ∈ g.children, h ∈ k.subgraphs := by
  rw [subgraphs_eq, List.mem_cons, List.mem_flatMap]

/-! ### Induction -/

theorem sizeOf_lt_of_mem_children {g h : Graph} (hmem : h ∈ g.children) : sizeOf h < sizeOf g := by
  obtain ⟨a, ha, hh⟩ := mem_children_iff.mp hmem
  obtain ⟨n, hn, name, hp⟩ := mem_attributes_iff.mp ha
  have h_lt_a : sizeOf h < sizeOf a := by
    cases a with
    | graph k =>
      simp only [Attribute.heldGraphs, List.mem_singleton] at hh
      subst hh
      simp
    | graphs ks =>
      have := List.sizeOf_lt_of_mem (show h ∈ ks from hh)
      simp only [Attribute.graphs.sizeOf_spec]
      omega
    | _ => cases hh
  have a_lt_n : sizeOf a < sizeOf n := by
    have := List.sizeOf_lt_of_mem hp
    cases n
    simp only [Node.mk.sizeOf_spec, Prod.mk.sizeOf_spec] at this ⊢
    omega
  have n_lt_g : sizeOf n < sizeOf g := by
    have := List.sizeOf_lt_of_mem hn
    cases g
    simp only [Graph.mk.sizeOf_spec] at this ⊢
    omega
  omega

/-- What passes from the children of a graph to the graph holds of all graphs. -/
theorem children_induction {P : Graph → Prop} (step : ∀ g : Graph, (∀ h ∈ g.children, P h) → P g)
    (g : Graph) : P g :=
  step g fun h _ => children_induction step h
termination_by sizeOf g
decreasing_by exact sizeOf_lt_of_mem_children (by assumption)

end Graph

end Mpsx
