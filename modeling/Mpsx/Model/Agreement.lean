/-
  Mpsx/Model/Agreement.lean
  =========================
  **When two models say the same.**  Everything has to be equal, in the same
  order and form; only floats are compared as numbers, so a NaN agrees with
  nothing and the two zeros agree.
-/

import Mpsx.Model.Basic

namespace Mpsx

/-- Whether two lists are equally long and related entry by entry. -/
def pairwise {α β : Type} (related : α → β → Bool) : List α → List β → Bool
  | [], [] => true
  | a :: as, b :: bs => related a b && pairwise related as bs
  | _, _ => false

def Payload.agrees : Payload → Payload → Bool
  | .floats xs, .floats ys => pairwise Binary32.sameNumber xs ys
  | .doubles xs, .doubles ys => pairwise Binary64.sameNumber xs ys
  | p, q => p == q

def Tensor.agrees (s t : Tensor) : Bool :=
  s.name == t.name && s.shape == t.shape && s.elementType == t.elementType &&
    s.payload.agrees t.payload

mutual

def Graph.agrees : Graph → Graph → Bool
  | ⟨name, nodes, inputs, outputs, initializers, doc⟩, g =>
    name == g.name && nodesAgree nodes g.nodes && inputs == g.inputs && outputs == g.outputs &&
      pairwise Tensor.agrees initializers g.initializers && doc == g.doc

def nodesAgree : List Node → List Node → Bool
  | [], [] => true
  | m :: ms, n :: ns => m.agrees n && nodesAgree ms ns
  | _, _ => false

def Node.agrees : Node → Node → Bool
  | ⟨name, opType, domain, inputs, outputs, attributes, doc⟩, n =>
    name == n.name && opType == n.opType && domain == n.domain && inputs == n.inputs &&
      outputs == n.outputs && attributesAgree attributes n.attributes && doc == n.doc

def attributesAgree : List (String × Attribute) → List (String × Attribute) → Bool
  | [], [] => true
  | (key, a) :: rest, (other, b) :: others =>
    key == other && a.agrees b && attributesAgree rest others
  | _, _ => false

def Attribute.agrees : Attribute → Attribute → Bool
  | .float x, .float y => x.sameNumber y
  | .int m, .int n => m == n
  | .string s, .string t => s == t
  | .tensor s, .tensor t => s.agrees t
  | .graph g, .graph h => g.agrees h
  | .floats xs, .floats ys => pairwise Binary32.sameNumber xs ys
  | .ints ms, .ints ns => ms == ns
  | .strings ss, .strings ts => ss == ts
  | .tensors ss, .tensors ts => pairwise Tensor.agrees ss ts
  | .graphs gs, .graphs hs => graphsAgree gs hs
  | _, _ => false

def graphsAgree : List Graph → List Graph → Bool
  | [], [] => true
  | g :: gs, h :: hs => g.agrees h && graphsAgree gs hs
  | _, _ => false

end

def Model.agrees (m n : Model) : Bool :=
  m.irVersion == n.irVersion && m.operatorSets == n.operatorSets &&
    m.producerName == n.producerName && m.producerVersion == n.producerVersion &&
    m.graph.agrees n.graph

end Mpsx
