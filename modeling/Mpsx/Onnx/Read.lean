/-
  Mpsx/Onnx/Read.lean
  ===================
  **Models from messages.**  Reading a message gives a model, or the first thing
  in it that a model cannot express.  Graphs are read in a fixed order: nodes,
  inputs, outputs, initializers; the first error on that way is the result.

  An attribute holds what it declares to hold.  Where it declares nothing that is
  known, the first field that is filled decides.
-/

import Mpsx.Model.Basic
import Mpsx.Onnx.ExternalData

namespace Mpsx.Onnx

open Wire

/-- The low 32 bits of a number, as a signed number. -/
def toInt32 (v : UInt64) : Int32 := v.toUInt32.toInt32

/-- A text field, empty if it is missing. -/
def textOf (m : Message) (number : Nat) : String := (m.text? number).getD ""

/-- The element type in a numeric field. -/
def elementTypeOf (m : Message) (number : Nat) : ElementType :=
  ElementType.ofCode (((m.varint? number).map toInt32).getD 0)

/-! ### Tensors -/

/-- A tensor's dimensions; the file keeps them as signed numbers. -/
def readShape (tensor : String) (dims : List UInt64) : Except LoadError (List UInt64) :=
  if dims.all fun d => d.toNat < 0x8000000000000000 then .ok dims
  else .error (.negativeShape tensor (dims.map UInt64.toInt64))

/-- The typed data of a tensor, from the field that belongs to its element type. -/
def typedPayload (m : Message) : ElementType → Payload
  | .float32 | .complex64 => .floats ((m.fixed32s TensorField.floats).map Binary32.mk)
  | .float64 | .complex128 => .doubles ((m.fixed64s TensorField.doubles).map Binary64.mk)
  | .int64 => .int64s ((m.varints TensorField.int64s).map UInt64.toInt64)
  | .uint32 | .uint64 => .uint64s (m.varints TensorField.uint64s)
  | .string => .strings (m.blobs TensorField.strings)
  | _ => .int32s ((m.varints TensorField.int32s).map toInt32)

/-- Whether a tensor's data stands in another file. -/
def isExternal (m : Message) : Bool :=
  (m.varint? TensorField.location).map UInt64.toUInt32 = some 1

/-- The entries that describe external data. -/
def externalEntries (m : Message) : List (String × String) :=
  (m.messages TensorField.external).map fun e =>
    (textOf e EntryField.key, textOf e EntryField.value)

def readTensor (source : Source) (m : Message) : Load Tensor := do
  let name := textOf m TensorField.name
  let elementType := elementTypeOf m TensorField.elementType
  let shape ← Traced.ofExcept (readShape name (m.varints TensorField.dims))
  if isExternal m then
    let bytes ← externalData source name (externalEntries m)
    return ⟨name, shape, elementType, .raw bytes⟩
  else
    match m.bytes? TensorField.raw with
    | some bytes => return ⟨name, shape, elementType, .raw bytes⟩
    | none => return ⟨name, shape, elementType, typedPayload m elementType⟩

/-! ### Descriptors -/

/-- One axis of a descriptor: of size and symbol, the last one given. -/
def readDimension (m : Message) : Dimension :=
  m.foldl (fun d f =>
    match f with
    | .number k (.varint v) => if k = DimensionField.size then .value v.toInt64 else d
    | .text k s => if k = DimensionField.symbol then .param s else d
    | _ => d) .unknown

/-- The members of a type, of which one is given. -/
def typeMembers : List Nat :=
  [TypeField.tensor, TypeField.sequence, TypeField.map, TypeField.optional]

def readValueInfo (m : Message) : Load ValueInfo :=
  let name := textOf m ValueInfoField.name
  match (m.message? ValueInfoField.type).bind fun t => t.chosen? typeMembers with
  | none => return ⟨name, .undefined, none⟩
  | some (number, t) =>
    if number = TypeField.tensor then
      return ⟨name, elementTypeOf t TensorTypeField.elementType,
        (t.message? TensorTypeField.shape).map fun s =>
          (s.messages ShapeField.dim).map readDimension⟩
    else Traced.fail (.notTensor name)

/-! ### Attributes, nodes and graphs -/

/-- The kind an attribute declares, if it is known and not the undefined one. -/
def declaredKind? (m : Message) : Option AttributeKind :=
  ((m.varint? AttributeField.kind).bind fun v => AttributeKind.ofCode? v.toUInt32).filter
    (· ≠ .undefined)

/-- The kind of the first field that is filled. -/
def filledKind (m : Message) : AttributeKind :=
  if (m.fixed32? AttributeField.float).isSome then .float
  else if (m.varint? AttributeField.int).isSome then .int
  else if (m.bytes? AttributeField.string).isSome then .string
  else if (m.message? AttributeField.tensor).isSome then .tensor
  else if (m.message? AttributeField.graph).isSome then .graph
  else if !(m.fixed32s AttributeField.floats).isEmpty then .floats
  else if !(m.varints AttributeField.ints).isEmpty then .ints
  else if !(m.blobs AttributeField.strings).isEmpty then .strings
  else if !(m.messages AttributeField.tensors).isEmpty then .tensors
  else if !(m.messages AttributeField.graphs).isEmpty then .graphs
  else .undefined

/-- The kind by which an attribute is read. -/
def selectedKind (m : Message) : AttributeKind := (declaredKind? m).getD (filledKind m)

/-- The text of an attribute. -/
def readText (attr : String) (bytes : Bytes) : Load String :=
  match Utf8.decode bytes with
  | .ok s => return s
  | .error why => Traced.fail (.notText attr why)

mutual

def readGraph (source : Source) (m : Message) : Load Graph := do
  let name := textOf m GraphField.name
  let sparse := (m.messages GraphField.sparseInitializer).length
  let values := (m.messages GraphField.valueInfo).length
  if sparse ≠ 0 then Traced.fail (.sparseInitializers name sparse)
  else
    if values ≠ 0 then Traced.report (.droppedValues values name)
    let nodes ← (m.messages GraphField.node).attach.mapM fun ⟨n, _⟩ => readNode source n
    let inputs ← (m.messages GraphField.input).mapM readValueInfo
    let outputs ← (m.messages GraphField.output).mapM readValueInfo
    let initializers ← (m.messages GraphField.initializer).mapM (readTensor source)
    return ⟨name, nodes, inputs, outputs, initializers, m.text? GraphField.doc⟩
termination_by m.weight
decreasing_by exact Message.weight_lt_of_mem_messages (by assumption)

def readNode (source : Source) (m : Message) : Load Node := do
  let attributes ← (m.messages NodeField.attr).attach.mapM fun ⟨a, _⟩ => readAttribute source a
  return ⟨textOf m NodeField.name, textOf m NodeField.opType, textOf m NodeField.domain,
    m.texts NodeField.input, m.texts NodeField.output, attributes, m.text? NodeField.doc⟩
termination_by m.weight
decreasing_by exact Message.weight_lt_of_mem_messages (by assumption)

def readAttribute (source : Source) (m : Message) : Load (String × Attribute) := do
  let name := textOf m AttributeField.name
  if (m.text? AttributeField.reference).isSome then Traced.fail (.functionAttribute name)
  else
    match selectedKind m with
    | .float => return (name, .float ⟨(m.fixed32? AttributeField.float).getD 0⟩)
    | .int => return (name, .int ((m.varint? AttributeField.int).getD 0).toInt64)
    | .string =>
      let text ← readText name ((m.bytes? AttributeField.string).getD [])
      return (name, .string text)
    | .tensor =>
      let tensor ← Traced.require (m.message? AttributeField.tensor) (.missingTensor name)
      return (name, .tensor (← readTensor source tensor))
    | .graph =>
      match _h : m.message? AttributeField.graph with
      | none => Traced.fail (.missingSubgraph name)
      | some g => return (name, .graph (← readGraph source g))
    | .floats => return (name, .floats ((m.fixed32s AttributeField.floats).map Binary32.mk))
    | .ints => return (name, .ints ((m.varints AttributeField.ints).map UInt64.toInt64))
    | .strings =>
      return (name, .strings (← (m.blobs AttributeField.strings).mapM (readText name)))
    | .tensors =>
      return (name, .tensors (← (m.messages AttributeField.tensors).mapM (readTensor source)))
    | .graphs =>
      let graphs ← (m.messages AttributeField.graphs).attach.mapM fun ⟨g, _⟩ => readGraph source g
      return (name, .graphs graphs)
    | kind => Traced.fail (.attributeKind name kind)
termination_by m.weight
decreasing_by
  · exact Message.weight_lt_of_message? (by assumption)
  · exact Message.weight_lt_of_mem_messages (by assumption)

end

/-! ### Models -/

def readOperatorSet (m : Message) : OperatorSet :=
  ⟨textOf m OperatorSetField.domain, ((m.varint? OperatorSetField.version).getD 0).toInt64⟩

def readModel (source : Source) (m : Message) : Load Model := do
  let graph ← Traced.require (m.message? ModelField.graph) .missingGraph
  let graph ← readGraph source graph
  return { irVersion := (m.varint? ModelField.irVersion).map UInt64.toInt64
           operatorSets := (m.messages ModelField.operatorSet).map readOperatorSet
           producerName := m.text? ModelField.producerName
           producerVersion := m.text? ModelField.producerVersion
           graph }

/-- The model in the bytes of a file. -/
def decode (source : Source) (bytes : Bytes) : Load Model :=
  match schema.decode .model bytes with
  | .ok m => readModel source m
  | .error fault => Traced.fail (.malformed fault)

end Mpsx.Onnx
