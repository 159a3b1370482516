/-
  Mpsx/Onnx/Write.lean
  ====================
  **Messages from models.**  Fields stand in the order of their numbers.  Empty
  lists are not written, nor are empty names and domains of nodes, nor the type of
  a descriptor about which nothing is known.

  Numbers in the data of a tensor are packed behind one key; dimensions and the
  numbers of an attribute have a key each.
-/

import Mpsx.Model.Basic
import Mpsx.Onnx.Schema

namespace Mpsx.Onnx

open Wire

def ofInt64 (number : Nat) (v : Int64) : Field := .number number (.varint v.toUInt64)

/-- A 32-bit number, with its sign extended to 64 bits. -/
def ofInt32 (number : Nat) (v : Int32) : Field := .number number (.varint v.toInt64.toUInt64)

def ofElementType (number : Nat) (t : ElementType) : Field := ofInt32 number t.code

/-- A text field, if there is a text. -/
def ofText? (number : Nat) (text : Option String) : Message :=
  (text.map (Field.text number)).toList

/-- A text field, if the text is not empty. -/
def ofNonempty (number : Nat) (text : String) : Message :=
  if text = "" then [] else [.text number text]

/-- Numbers behind one key, if there are any. -/
def ofPacked (number : Nat) (values : List Number) : Message :=
  if values.isEmpty then [] else [.packed number values]

/-! ### Tensors -/

def writeShape (shape : List UInt64) : Message :=
  shape.map fun d => .number TensorField.dims (.varint d)

/-- The data fields with numbers below that of the name. -/
def writeLowData : Payload → Message
  | .floats xs => ofPacked TensorField.floats (xs.map fun x => .fixed32 x.bits)
  | .int32s ns => ofPacked TensorField.int32s (ns.map fun n => .varint n.toInt64.toUInt64)
  | .strings ss => ss.map (.bytes TensorField.strings)
  | .int64s ns => ofPacked TensorField.int64s (ns.map fun n => .varint n.toUInt64)
  | _ => []

/-- The data fields with numbers above that of the name. -/
def writeHighData : Payload → Message
  | .raw bytes => [.bytes TensorField.raw bytes]
  | .doubles xs => ofPacked TensorField.doubles (xs.map fun x => .fixed64 x.bits)
  | .uint64s ns => ofPacked TensorField.uint64s (ns.map fun n => .varint n)
  | _ => []

def writeTensor (t : Tensor) : Message :=
  writeShape t.shape ++ [ofElementType TensorField.elementType t.elementType] ++
    writeLowData t.payload ++ [.text TensorField.name t.name] ++ writeHighData t.payload

/-! ### Descriptors -/

def writeDimension : Dimension → Message
  | .value size => [ofInt64 DimensionField.size size]
  | .param symbol => [.text DimensionField.symbol symbol]
  | .unknown => []

def writeDescriptorShape (dims : List Dimension) : Message :=
  dims.map fun d => .message ShapeField.dim (writeDimension d)

def writeTensorType (v : ValueInfo) : Message :=
  ofElementType TensorTypeField.elementType v.elementType ::
    (v.shape.map fun dims => Field.message TensorTypeField.shape (writeDescriptorShape dims)).toList

def writeValueInfo (v : ValueInfo) : Message :=
  .text ValueInfoField.name v.name ::
    if v.elementType = .undefined ∧ v.shape = none then []
    else [.message ValueInfoField.type [.message TypeField.tensor (writeTensorType v)]]

/-! ### Attributes, nodes and graphs -/

/-- The kind that is declared for an attribute. -/
def kindOf : Attribute → AttributeKind
  | .float _ => .float
  | .int _ => .int
  | .string _ => .string
  | .tensor _ => .tensor
  | .graph _ => .graph
  | .floats _ => .floats
  | .ints _ => .ints
  | .strings _ => .strings
  | .tensors _ => .tensors
  | .graphs _ => .graphs

mutual

def writeGraph : Graph → Message
  | ⟨name, nodes, inputs, outputs, initializers, doc⟩ =>
    writeNodes nodes ++ [.text GraphField.name name] ++
      initializers.map (fun t => .message GraphField.initializer (writeTensor t)) ++
      ofText? GraphField.doc doc ++
      inputs.map (fun v => .message GraphField.input (writeValueInfo v)) ++
      outputs.map (fun v => .message GraphField.output (writeValueInfo v))

def writeNodes : List Node → Message
  | [] => []
  | n :: rest => .message GraphField.node (writeNode n) :: writeNodes rest

def writeNode : Node → Message
  | ⟨name, opType, domain, inputs, outputs, attributes, doc⟩ =>
    inputs.map (.text NodeField.input) ++ outputs.map (.text NodeField.output) ++
      ofNonempty NodeField.name name ++ [.text NodeField.opType opType] ++
      writeAttributes attributes ++ ofText? NodeField.doc doc ++
      ofNonempty NodeField.domain domain

def writeAttributes : List (String × Attribute) → Message
  | [] => []
  | (name, a) :: rest =>
    .message NodeField.attr (.text AttributeField.name name :: (writeAttribute a ++
      [.number AttributeField.kind (.varint (kindOf a).code)])) :: writeAttributes rest

/-- The value field of an attribute. -/
def writeAttribute : Attribute → Message
  | .float x => [.number AttributeField.float (.fixed32 x.bits)]
  | .int n => [ofInt64 AttributeField.int n]
  | .string s => [.bytes AttributeField.string (Bytes.ofString s)]
  | .tensor t => [.message AttributeField.tensor (writeTensor t)]
  | .graph g => [.message AttributeField.graph (writeGraph g)]
  | .floats xs => xs.map fun x => .number AttributeField.floats (.fixed32 x.bits)
  | .ints ns => ns.map (ofInt64 AttributeField.ints)
  | .strings ss => ss.map fun s => .bytes AttributeField.strings (Bytes.ofString s)
  | .tensors ts => ts.map fun t => .message AttributeField.tensors (writeTensor t)
  | .graphs gs => writeGraphs gs

def writeGraphs : List Graph → Message
  | [] => []
  | g :: rest => .message AttributeField.graphs (writeGraph g) :: writeGraphs rest

end

/-! ### Models -/

def writeOperatorSet (s : OperatorSet) : Message :=
  [.text OperatorSetField.domain s.domain, ofInt64 OperatorSetField.version s.version]

def writeModel (m : Model) : Message :=
  (m.irVersion.map (ofInt64 ModelField.irVersion)).toList ++
    ofText? ModelField.producerName m.producerName ++
    ofText? ModelField.producerVersion m.producerVersion ++
    [.message ModelField.graph (writeGraph m.graph)] ++
    m.operatorSets.map fun s => .message ModelField.operatorSet (writeOperatorSet s)

/-- The bytes of the file that holds a model. -/
def encode (m : Model) : Bytes := encodeMessage (writeModel m)

end Mpsx.Onnx
