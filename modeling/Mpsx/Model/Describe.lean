/-
  Mpsx/Model/Describe.lean
  ========================
  **Diagnostic text.**  How values appear in messages: lists in brackets, records
  with their field names, strings quoted, floats with the fewest digits that read
  back.  An attribute is shown whole, with every graph inside it.
-/

import Mpsx.Decimal.Layout
import Mpsx.Model.Basic
import Mpsx.Text.Quoted

namespace Mpsx.Describe

/-- A bracketed list. -/
def list (texts : List String) : String := "[" ++ ", ".intercalate texts ++ "]"

/-- A name with one part in parentheses. -/
def tagged (name part : String) : String := name ++ "(" ++ part ++ ")"

/-- An optional part. -/
def optional : Option String → String
  | some text => tagged "Some" text
  | none => "None"

/-- A record: its name, then each field with its text. -/
def record (name : String) (fields : List (String × String)) : String :=
  name ++ " \x7b " ++ ", ".intercalate (fields.map fun f => f.1 ++ ": " ++ f.2) ++ " \x7d"

def dimensions (dims : List UInt64) : String := list (dims.map fun d => toString d.toNat)

def integerList (ns : List Int64) : String := list (ns.map fun n => toString n.toInt)

def byteList (bs : Bytes) : String := list (bs.map fun b => toString b.toNat)

def floatList (xs : List Binary32) : String := list (xs.map Binary32.render)

def textList (ss : List String) : String := list (ss.map Text.quoted)

end Mpsx.Describe

namespace Mpsx

open Describe

def Payload.describe : Payload → String
  | .raw bs => tagged "Raw" (byteList bs)
  | .floats xs => tagged "Floats" (floatList xs)
  | .int32s ns => tagged "Int32s" (list (ns.map fun n => toString n.toInt))
  | .int64s ns => tagged "Int64s" (integerList ns)
  | .doubles xs => tagged "Doubles" (list (xs.map Binary64.render))
  | .uint64s ns => tagged "Uint64s" (list (ns.map fun n => toString n.toNat))
  | .strings ss => tagged "Strings" (list (ss.map byteList))

def Tensor.describe (t : Tensor) : String :=
  record "Tensor" [("name", Text.quoted t.name), ("shape", dimensions t.shape),
    ("data_type", t.elementType.name), ("data", t.payload.describe)]

def Dimension.describe : Dimension → String
  | .value n => tagged "Value" (toString n.toInt)
  | .param s => tagged "Param" (Text.quoted s)
  | .unknown => "Unknown"

def ValueInfo.describe (v : ValueInfo) : String :=
  record "ValueInfo" [("name", Text.quoted v.name), ("data_type", v.elementType.name),
    ("shape", optional (v.shape.map fun dims => list (dims.map Dimension.describe)))]

mutual

def Graph.describe : Graph → String
  | ⟨name, nodes, inputs, outputs, initializers, doc⟩ =>
    record "Graph" [("name", Text.quoted name), ("nodes", list (describeNodes nodes)),
      ("inputs", list (inputs.map ValueInfo.describe)),
      ("outputs", list (outputs.map ValueInfo.describe)),
      ("initializers", list (initializers.map Tensor.describe)),
      ("doc_string", optional (doc.map Text.quoted))]

def describeNodes : List Node → List String
  | [] => []
  | n :: rest => n.describe :: describeNodes rest

def Node.describe : Node → String
  | ⟨name, opType, domain, inputs, outputs, attributes, doc⟩ =>
    record "Node" [("name", Text.quoted name), ("op_type", Text.quoted opType),
      ("domain", Text.quoted domain), ("inputs", textList inputs), ("outputs", textList outputs),
      ("attributes", list (describeAttributes attributes)),
      ("doc_string", optional (doc.map Text.quoted))]

def describeAttributes : List (String × Attribute) → List String
  | [] => []
  | (key, a) :: rest =>
    ("(" ++ Text.quoted key ++ ", " ++ a.describe ++ ")") :: describeAttributes rest

def Attribute.describe : Attribute → String
  | .float x => tagged "Float" x.render
  | .int n => tagged "Int" (toString n.toInt)
  | .string s => tagged "String" (Text.quoted s)
  | .tensor t => tagged "Tensor" t.describe
  | .graph g => tagged "Graph" g.describe
  | .floats xs => tagged "Floats" (floatList xs)
  | .ints ns => tagged "Ints" (integerList ns)
  | .strings ss => tagged "Strings" (textList ss)
  | .tensors ts => tagged "Tensors" (list (ts.map Tensor.describe))
  | .graphs gs => tagged "Graphs" (list (describeGraphs gs))

def describeGraphs : List Graph → List String
  | [] => []
  | g :: rest => g.describe :: describeGraphs rest

end

end Mpsx
