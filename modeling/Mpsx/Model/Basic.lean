/-
  Mpsx/Model/Basic.lean
  =====================
  **Models.**  A model is one graph with the versions it was written for and the
  producer that wrote it.  Graphs hold nodes, nodes hold attributes, and an
  attribute may hold graphs again (the branches of a conditional, the body of a
  loop), so the three types are mutually inductive.

  Numbers have the widths the file format gives them; floats are bit patterns.
-/

import Mpsx.Bytes
import Mpsx.Binary.Format
import Mpsx.Model.ElementType

namespace Mpsx

/-- The data of a tensor: its bytes, or a list of numbers or strings. -/
inductive Payload where
  | raw (bytes : Bytes)
  | floats (values : List Binary32)
  | int32s (values : List Int32)
  | int64s (values : List Int64)
  | doubles (values : List Binary64)
  | uint64s (values : List UInt64)
  | strings (values : List Bytes)
deriving DecidableEq, Repr

structure Tensor where
  name : String
  shape : List UInt64
  elementType : ElementType
  payload : Payload
deriving DecidableEq, Repr

/-- One axis of a descriptor: a size, a symbol, or nothing known. -/
inductive Dimension where
  | value (size : Int64)
  | param (symbol : String)
  | unknown
deriving DecidableEq, Repr

/-- The descriptor of a graph input or output. -/
structure ValueInfo where
  name : String
  elementType : ElementType
  shape : Option (List Dimension)
deriving DecidableEq, Repr

mutual

structure Graph where
  name : String
  nodes : List Node
  inputs : List ValueInfo
  outputs : List ValueInfo
  initializers : List Tensor
  doc : Option String

structure Node where
  name : String
  opType : String
  domain : String
  inputs : List String
  outputs : List String
  attributes : List (String × Attribute)
  doc : Option String

inductive Attribute where
  | float (value : Binary32)
  | int (value : Int64)
  | string (value : String)
  | tensor (value : Tensor)
  | graph (value : Graph)
  | floats (values : List Binary32)
  | ints (values : List Int64)
  | strings (values : List String)
  | tensors (values : List Tensor)
  | graphs (values : List Graph)

end

/-- An operator set that a model relies on. -/
structure OperatorSet where
  domain : String
  version : Int64
deriving DecidableEq, Repr

structure Model where
  irVersion : Option Int64
  operatorSets : List OperatorSet
  producerName : Option String
  producerVersion : Option String
  graph : Graph

/-- The graph without a name or anything in it. -/
def Graph.empty : Graph := ⟨"", [], [], [], [], none⟩

/-- The model that nothing has been read into yet. -/
def Model.empty : Model := ⟨none, [], none, none, Graph.empty⟩

/-- The first attribute of a node with the given name. -/
def Node.attribute? (node : Node) (name : String) : Option Attribute :=
  node.attributes.lookup name

end Mpsx
