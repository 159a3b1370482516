/-
  Mpsx/Onnx/Schema.lean
  =====================
  **The ONNX messages.**  Which messages a model file holds and which fields each
  of them declares.  The numbers that the library reads or writes have names; the
  other declared fields are checked when they occur and otherwise ignored.

  Names of messages and fields appear in faults.
-/

import Mpsx.Wire.Schema

namespace Mpsx.Onnx

inductive MessageType where
  | attr
  | valueInfo
  | node
  | model
  | stringEntry
  | graph
  | tensor
  | sparseTensor
  | tensorShape
  | dimension
  | type
  | tensorType
  | sequenceType
  | mapType
  | optionalType
  | operatorSet
deriving DecidableEq, Repr

/-! ### Field numbers -/

namespace ModelField

abbrev irVersion : Nat := 1
abbrev producerName : Nat := 2
abbrev producerVersion : Nat := 3
abbrev graph : Nat := 7
abbrev operatorSet : Nat := 8

end ModelField

namespace OperatorSetField

abbrev domain : Nat := 1
abbrev version : Nat := 2

end OperatorSetField

namespace GraphField

abbrev node : Nat := 1
abbrev name : Nat := 2
abbrev initializer : Nat := 5
abbrev doc : Nat := 10
abbrev input : Nat := 11
abbrev output : Nat := 12
abbrev valueInfo : Nat := 13
abbrev sparseInitializer : Nat := 15

end GraphField

namespace NodeField

abbrev input : Nat := 1
abbrev output : Nat := 2
abbrev name : Nat := 3
abbrev opType : Nat := 4
abbrev attr : Nat := 5
abbrev doc : Nat := 6
abbrev domain : Nat := 7

end NodeField

namespace AttributeField

abbrev name : Nat := 1
abbrev float : Nat := 2
abbrev int : Nat := 3
abbrev string : Nat := 4
abbrev tensor : Nat := 5
abbrev graph : Nat := 6
abbrev floats : Nat := 7
abbrev ints : Nat := 8
abbrev strings : Nat := 9
abbrev tensors : Nat := 10
abbrev graphs : Nat := 11
abbrev kind : Nat := 20
abbrev reference : Nat := 21

end AttributeField

namespace TensorField

abbrev dims : Nat := 1
abbrev elementType : Nat := 2
abbrev floats : Nat := 4
abbrev int32s : Nat := 5
abbrev strings : Nat := 6
abbrev int64s : Nat := 7
abbrev name : Nat := 8
abbrev raw : Nat := 9
abbrev doubles : Nat := 10
abbrev uint64s : Nat := 11
abbrev external : Nat := 13
abbrev location : Nat := 14

end TensorField

namespace EntryField

abbrev key : Nat := 1
abbrev value : Nat := 2

end EntryField

namespace ValueInfoField

abbrev name : Nat := 1
abbrev type : Nat := 2

end ValueInfoField

namespace TypeField

abbrev tensor : Nat := 1
abbrev sequence : Nat := 4
abbrev map : Nat := 5
abbrev optional : Nat := 9

end TypeField

namespace TensorTypeField

abbrev elementType : Nat := 1
abbrev shape : Nat := 2

end TensorTypeField

namespace ShapeField

abbrev dim : Nat := 1

end ShapeField

namespace DimensionField

abbrev size : Nat := 1
abbrev symbol : Nat := 2

end DimensionField

/-! ### Declarations -/

namespace MessageType

def name : MessageType → String
  | attr => "AttributeProto"
  | valueInfo => "ValueInfoProto"
  | node => "NodeProto"
  | model => "ModelProto"
  | stringEntry => "StringStringEntryProto"
  | graph => "GraphProto"
  | tensor => "TensorProto"
  | sparseTensor => "SparseTensorProto"
  | tensorShape => "TensorShapeProto"
  | dimension => "Dimension"
  | type => "TypeProto"
  | tensorType => "Tensor"
  | sequenceType => "Sequence"
  | mapType => "Map"
  | optionalType => "Optional"
  | operatorSet => "OperatorSetIdProto"

open Wire in
/-- The declared fields with their numbers. -/
def fields : MessageType → List (Nat × Declaration MessageType)
  | attr =>
    [(1, ⟨"name", .text⟩), (2, ⟨"f", .single .fixed32⟩), (3, ⟨"i", .single .varint⟩),
     (4, ⟨"s", .bytes⟩), (5, ⟨"t", .message tensor⟩), (6, ⟨"g", .message graph⟩),
     (7, ⟨"floats", .repeated .fixed32⟩), (8, ⟨"ints", .repeated .varint⟩),
     (9, ⟨"strings", .bytes⟩), (10, ⟨"tensors", .message tensor⟩),
     (11, ⟨"graphs", .message graph⟩), (13, ⟨"doc_string", .text⟩), (14, ⟨"tp", .message type⟩),
     (15, ⟨"type_protos", .message type⟩), (20, ⟨"r#type", .single .varint⟩),
     (21, ⟨"ref_attr_name", .text⟩), (22, ⟨"sparse_tensor", .message sparseTensor⟩),
     (23, ⟨"sparse_tensors", .message sparseTensor⟩)]
  | valueInfo =>
    [(1, ⟨"name", .text⟩), (2, ⟨"r#type", .message type⟩), (3, ⟨"doc_string", .text⟩),
     (4, ⟨"metadata_props", .message stringEntry⟩)]
  | node =>
    [(1, ⟨"input", .text⟩), (2, ⟨"output", .text⟩), (3, ⟨"name", .text⟩),
     (4, ⟨"op_type", .text⟩), (5, ⟨"attribute", .message attr⟩),
     (6, ⟨"doc_string", .text⟩), (7, ⟨"domain", .text⟩), (8, ⟨"overload", .text⟩),
     (9, ⟨"metadata_props", .message stringEntry⟩)]
  | model =>
    [(1, ⟨"ir_version", .single .varint⟩), (2, ⟨"producer_name", .text⟩),
     (3, ⟨"producer_version", .text⟩), (4, ⟨"domain", .text⟩),
     (5, ⟨"model_version", .single .varint⟩), (6, ⟨"doc_string", .text⟩),
     (7, ⟨"graph", .message graph⟩), (8, ⟨"opset_import", .message operatorSet⟩),
     (14, ⟨"metadata_props", .message stringEntry⟩)]
  | stringEntry => [(1, ⟨"key", .text⟩), (2, ⟨"value", .text⟩)]
  | graph =>
    [(1, ⟨"node", .message node⟩), (2, ⟨"name", .text⟩), (5, ⟨"initializer", .message tensor⟩),
     (10, ⟨"doc_string", .text⟩), (11, ⟨"input", .message valueInfo⟩),
     (12, ⟨"output", .message valueInfo⟩), (13, ⟨"value_info", .message valueInfo⟩),
     (15, ⟨"sparse_initializer", .message sparseTensor⟩),
     (16, ⟨"metadata_props", .message stringEntry⟩)]
  | tensor =>
    [(1, ⟨"dims", .repeated .varint⟩), (2, ⟨"data_type", .single .varint⟩),
     (4, ⟨"float_data", .repeated .fixed32⟩), (5, ⟨"int32_data", .repeated .varint⟩),
     (6, ⟨"string_data", .bytes⟩), (7, ⟨"int64_data", .repeated .varint⟩), (8, ⟨"name", .text⟩),
     (9, ⟨"raw_data", .bytes⟩), (10, ⟨"double_data", .repeated .fixed64⟩),
     (11, ⟨"uint64_data", .repeated .varint⟩), (12, ⟨"doc_string", .text⟩),
     (13, ⟨"external_data", .message stringEntry⟩), (14, ⟨"data_location", .single .varint⟩),
     (16, ⟨"metadata_props", .message stringEntry⟩)]
  | sparseTensor =>
    [(1, ⟨"values", .message tensor⟩), (2, ⟨"indices", .message tensor⟩),
     (3, ⟨"dims", .repeated .varint⟩)]
  | tensorShape => [(1, ⟨"dim", .message dimension⟩)]
  | dimension =>
    [(1, ⟨"value", .single .varint⟩), (2, ⟨"value", .text⟩), (3, ⟨"denotation", .text⟩)]
  | type =>
    [(1, ⟨"value", .message tensorType⟩), (4, ⟨"value", .message sequenceType⟩),
     (5, ⟨"value", .message mapType⟩), (6, ⟨"denotation", .text⟩),
     (9, ⟨"value", .message optionalType⟩)]
  | tensorType => [(1, ⟨"elem_type", .single .varint⟩), (2, ⟨"shape", .message tensorShape⟩)]
  | sequenceType => [(1, ⟨"elem_type", .message type⟩)]
  | mapType => [(1, ⟨"key_type", .single .varint⟩), (2, ⟨"value_type", .message type⟩)]
  | optionalType => [(1, ⟨"elem_type", .message type⟩)]
  | operatorSet => [(1, ⟨"domain", .text⟩), (2, ⟨"version", .single .varint⟩)]

end MessageType

/-- The schema of model files. -/
def schema : Wire.Schema MessageType where
  name := MessageType.name
  field? message number := (MessageType.fields message).lookup number

/-! ### Kinds of attributes -/

/-- What an attribute declares to hold. -/
inductive AttributeKind where
  | undefined
  | float
  | int
  | string
  | tensor
  | graph
  | floats
  | ints
  | strings
  | tensors
  | graphs
  | sparseTensor
  | sparseTensors
  | type
  | types
deriving DecidableEq, Repr

namespace AttributeKind

def code : AttributeKind → UInt64
  | undefined => 0
  | float => 1
  | int => 2
  | string => 3
  | tensor => 4
  | graph => 5
  | floats => 6
  | ints => 7
  | strings => 8
  | tensors => 9
  | graphs => 10
  | sparseTensor => 11
  | sparseTensors => 12
  | type => 13
  | types => 14

/-- The kind with a given code; the code has 32 bits. -/
def ofCode? (code : UInt32) : Option AttributeKind :=
  match code.toNat with
  | 0 => some undefined
  | 1 => some float
  | 2 => some int
  | 3 => some string
  | 4 => some tensor
  | 5 => some graph
  | 6 => some floats
  | 7 => some ints
  | 8 => some strings
  | 9 => some tensors
  | 10 => some graphs
  | 11 => some sparseTensor
  | 12 => some sparseTensors
  | 13 => some type
  | 14 => some types
  | _ => none

def name : AttributeKind → String
  | undefined => "Undefined"
  | float => "Float"
  | int => "Int"
  | string => "String"
  | tensor => "Tensor"
  | graph => "Graph"
  | floats => "Floats"
  | ints => "Ints"
  | strings => "Strings"
  | tensors => "Tensors"
  | graphs => "Graphs"
  | sparseTensor => "SparseTensor"
  | sparseTensors => "SparseTensors"
  | type => "TypeProto"
  | types => "TypeProtos"

end AttributeKind

end Mpsx.Onnx
