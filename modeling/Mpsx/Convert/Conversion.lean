/-
  Mpsx/Convert/Conversion.lean
  ============================
  **Converting a model.**  The weights of grouped convolutions whose first
  dimension is the group count get their two leading axes exchanged, and all
  single and half floats are cast to one precision.  Nodes stay as they are, and
  so do tensors that need neither.

  A tensor that is moved or cast has to hold exactly the bytes its shape asks
  for.  The check goes by the size of the whole tensor, so a weight without columns
  passes it with blocks of any size, and stops the conversion if the size of a block
  can be no offset.  Models that list their weights as inputs too have the
  descriptors of moved weights changed along with them.  The result is tagged, so
  that a second conversion leaves it alone.
-/

import Mpsx.Convert.Axes
import Mpsx.Convert.Cast
import Mpsx.Convert.Grouped
import Mpsx.Model.Tensor

namespace Mpsx

/-- The producer name of a converted model. -/
def producerTag : String := "MPSX"

/-- The producer version of a converted model. -/
def producerRelease : String := "0.1.0"

/-! ### Initializers -/

/-- Whether a tensor's leading axes are to be exchanged: its first dimension is the
    group count recorded for it. -/
def swapsAxes (group : Option Int64) (shape : List UInt64) : Bool :=
  match group, shape with
  | some g, d :: _ => (d.toNat : Int) = g.toInt
  | _, _ => false

/-- The precision a tensor is to be cast from. -/
def castSource? (elementType : ElementType) (target : Precision) : Option Precision :=
  elementType.precision?.filter (· ≠ target)

/-- The raw data of a tensor whose elements have the given width, if it is all there
    and nothing more. -/
def Tensor.exactBytes (t : Tensor) (width : Nat) : Except ConvertError Bytes :=
  match t.elementCount?.bind (product? · width) with
  | none => .error (.tooLarge t.name t.shape)
  | some expected =>
    match t.rawBytes? with
    | none => .error (.noRawForm t.name t.elementType)
    | some bytes =>
      if bytes.length = expected then .ok bytes
      else .error (.wrongSize t.name bytes.length t.shape t.elementType expected)

/-- The shape and data of a weight after its leading axes are exchanged. -/
def Tensor.swapStep (t : Tensor) (width : Nat) (bytes : Bytes) : Convert (List UInt64 × Bytes) := do
  Traced.report (.swappedAxes t.name t.shape)
  let data ← Traced.require (swapLeadingAxes? bytes t.shape width) .overflow
  return (swapFirstTwo t.shape, data)

/-- One initializer after conversion; `group` is the group count recorded for it. -/
def Tensor.convert (t : Tensor) (group : Option Int64) (target : Precision) : Convert Tensor := do
  let swap := swapsAxes group t.shape
  let source := castSource? t.elementType target
  match group with
  | some g => if !swap then Traced.report (.keptLayout t.name t.shape g)
  | none => pure ()
  if !swap && source.isNone then return t
  else if swap && t.shape.length ≠ 4 then Traced.fail (.refused (.notFourAxes t.name t.shape))
  else
    let width ← Traced.require t.elementType.width? (.refused (.noWidth t.name t.elementType))
    let bytes ← (Traced.ofExcept (t.exactBytes width)).mapError .refused
    let (shape, data) ← if swap then t.swapStep width bytes else pure (t.shape, bytes)
    match source with
    | none => return ⟨t.name, shape, t.elementType, .raw data⟩
    | some p =>
      Traced.report (.cast t.name p target)
      return ⟨t.name, shape, target.elementType, .raw (castFloats data p target)⟩

/-! ### Descriptors -/

/-- A descriptor with its float type changed to the target. -/
def ValueInfo.retype (v : ValueInfo) (target : Precision) : ValueInfo :=
  match castSource? v.elementType target with
  | some _ => { v with elementType := target.elementType }
  | none => v

/-- The descriptor of an input; one of a moved weight follows it if it has four axes. -/
def ValueInfo.convertInput (v : ValueInfo) (moved : List String) (target : Precision) :
    Convert ValueInfo :=
  let v := v.retype target
  match v.shape with
  | some dims =>
    if v.name ∈ moved ∧ dims.length = 4 then do
      Traced.report (.swappedInput v.name)
      return { v with shape := some (swapFirstTwo dims) }
    else return v
  | none => return v

/-! ### Models -/

/-- The names of the initializers whose shape has changed, each once. -/
def movedNames (before after : List Tensor) : List String :=
  (((before.zip after).filter fun p => p.1.shape ≠ p.2.shape).map fun p => p.1.name).eraseDups

/-- The model with its initializers and descriptors converted, for group counts that
    are known. -/
def Model.convertWith (m : Model) (groups : Groups) (target : Precision) : Convert Model := do
  let g := m.graph
  let initializers ← g.initializers.mapM fun t => t.convert (Table.get? groups t.name) target
  let moved := movedNames g.initializers initializers
  let inputs ← g.inputs.mapM fun v => v.convertInput moved target
  Traced.report (.convertedGraph g.name initializers.length moved.length target)
  return { m with
    producerName := some producerTag
    producerVersion := some producerRelease
    graph := { g with
      inputs
      outputs := g.outputs.map fun v => v.retype target
      initializers } }

/-- The converted model. -/
def Model.convert (m : Model) (target : Precision) : Convert Model := do
  let groups ← (groupedWeights m.graph.nodes).mapError .refused
  m.convertWith groups target

/-- Whether a model is a converted one. -/
def Model.isConverted (m : Model) : Bool := m.producerName = some producerTag

/-- What conversion has done. -/
inductive Conversion where
  | unchanged
  | converted (model : Model)

/-- The model that is there afterwards. -/
def Conversion.result (c : Conversion) (source : Model) : Model :=
  match c with
  | unchanged => source
  | converted model => model

/-- Converts a model that is not a converted one. -/
def Model.convertOnce (m : Model) (target : Precision) : Convert Conversion :=
  if m.isConverted then do
    Traced.report (.alreadyConverted m.graph.name)
    return .unchanged
  else do
    let converted ← m.convert target
    return .converted converted

end Mpsx
