/-
  Mpsx/Convert/Grouped.lean
  =========================
  **Weights of grouped convolutions.**  A convolution with more than one group
  names its weight as second input and its group count as an attribute.  The scan
  goes over the nodes of the main graph in order; a weight that several grouped
  convolutions use has the group count of the last one.
-/

import Mpsx.Convert.Error
import Mpsx.Table

namespace Mpsx

/-- The weight and group count of a grouped convolution; `none` for every other
    node, an error for a malformed convolution. -/
def Node.groupedWeight? (node : Node) : Except ConvertError (Option (String × Int64)) :=
  if node.opType ≠ "Conv" then .ok none
  else
    match node.inputs[1]? with
    | none => .error (.missingWeight node.name)
    | some weight =>
      if weight = "" then .error (.missingWeight node.name)
      else
        match node.attribute? "group" with
        | none => .ok none
        | some (.int group) =>
          if group = 1 then .ok none
          else if group < 1 then .error (.groupNotPositive node.name group)
          else .ok (some (weight, group))
        | some value => .error (.groupNotInteger node.name value)

/-- Group counts by the name of the weight. -/
abbrev Groups := Table Int64

/-- Takes one more node into account. -/
def Groups.visit (groups : Groups) (node : Node) : Traced Event ConvertError Groups := do
  match ← Traced.ofExcept node.groupedWeight? with
  | none => return groups
  | some (weight, group) =>
    Traced.report (.groupedUse node.name weight group)
    match Table.get? groups weight with
    | some earlier =>
      if earlier ≠ group then Traced.report (.sharedWeight weight earlier group)
    | none => pure ()
    return Table.set weight group groups

/-- The weights of all grouped convolutions among some nodes. -/
def groupedWeights (nodes : List Node) : Traced Event ConvertError Groups :=
  nodes.foldlM Groups.visit []

end Mpsx
