/-
  Mpsx/Model/Documentation.lean
  =============================
  **Documentation.**  Graphs and nodes carry free text for readers.  `strip`
  removes it at every depth and leaves all else alone.
-/

import Mpsx.Model.Basic

namespace Mpsx

mutual

def Graph.strip : Graph → Graph
  | ⟨name, nodes, inputs, outputs, initializers, _⟩ =>
    ⟨name, stripNodes nodes, inputs, outputs, initializers, none⟩

def stripNodes : List Node → List Node
  | [] => []
  | n :: rest => n.strip :: stripNodes rest

def Node.strip : Node → Node
  | ⟨name, opType, domain, inputs, outputs, attributes, _⟩ =>
    ⟨name, opType, domain, inputs, outputs, stripAttributes attributes, none⟩

def stripAttributes : List (String × Attribute) → List (String × Attribute)
  | [] => []
  | (key, a) :: rest => (key, a.strip) :: stripAttributes rest

def Attribute.strip : Attribute → Attribute
  | .graph g => .graph g.strip
  | .graphs gs => .graphs (stripGraphs gs)
  | .float x => .float x
  | .int n => .int n
  | .string s => .string s
  | .tensor t => .tensor t
  | .floats xs => .floats xs
  | .ints ns => .ints ns
  | .strings ss => .strings ss
  | .tensors ts => .tensors ts

def stripGraphs : List Graph → List Graph
  | [] => []
  | g :: rest => g.strip :: stripGraphs rest

end

/-- The model without documentation on any graph or node. -/
def Model.strip (m : Model) : Model := { m with graph := m.graph.strip }

theorem stripNodes_eq_map (nodes : List Node) : stripNodes nodes = nodes.map Node.strip := by
  induction nodes with
  | nil => rfl
  | cons n rest ih => simp [stripNodes, ih]

theorem stripGraphs_eq_map (graphs : List Graph) : stripGraphs graphs = graphs.map Graph.strip := by
  induction graphs with
  | nil => rfl
  | cons g rest ih => simp [stripGraphs, ih]

theorem stripAttributes_eq_map (attributes : List (String × Attribute)) :
    stripAttributes attributes = attributes.map fun p => (p.1, p.2.strip) := by
  induction attributes with
  | nil => rfl
  | cons p rest ih => cases p; simp [stripAttributes, ih]

end Mpsx
