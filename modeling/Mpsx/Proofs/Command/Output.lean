/-
  Mpsx/Proofs/Command/Output.lean
  ===============================
  **What the command writes.**  The output is read back as the model that was written,
  with no other file at hand.  That model is tagged, has no documentation at any depth
  and no float weight or descriptor of another precision, and is otherwise built from
  the same nodes.  Because it is tagged, a further run on it has nothing to do.
-/

import Mathlib.Algebra.Group.Nat.Defs
import Mpsx.Proofs.Command.Atomic
import Mpsx.Proofs.Convert.Transcode
import Mpsx.Proofs.Model.Stripped

namespace Mpsx

/-! ### Precisions -/

def ElementType.Settled (type : ElementType) (target : Precision) : Prop :=
  type = .float32 ∨ type = .float16 → type = target.elementType

theorem ElementType.settled_iff_castSource? {type : ElementType} {target : Precision} :
    type.Settled target ↔ castSource? type target = none := by
  unfold Settled castSource?
  cases type <;> cases target <;> simp [precision?, Precision.elementType]

theorem Precision.settled_elementType (target : Precision) :
    target.elementType.Settled target := by
  intro _
  rfl

theorem Tensor.settled_of_convert {t t' : Tensor} {group : Option Int64} {target : Precision}
    (h : (t.convert group target).result = .ok t') : t'.elementType.Settled target := by
  rcases convert_eq_ok_iff.mp h with ⟨-, hkept, rfl⟩ | ⟨-, -, width, bytes, data, -, -, -, rfl⟩
  · exact ElementType.settled_iff_castSource?.mpr hkept
  · rw [elementType_rebuild]
    split
    · next hkept => exact ElementType.settled_iff_castSource?.mpr hkept
    · exact target.settled_elementType

theorem ValueInfo.settled_retype (v : ValueInfo) (target : Precision) :
    (v.retype target).elementType.Settled target := by
  unfold retype
  split
  · exact target.settled_elementType
  · next hkept => exact ElementType.settled_iff_castSource?.mpr hkept

/-! ### The model that is written -/

/-- What the model in an output has of its own, and what it has of the model in the
    input. -/
structure Model.ProductOf (m : Model) (target : Precision) (product : Model) : Prop where
  tagged : product.producerName = some "MPSX"
  undocumented : ∀ g ∈ product.graph.subgraphs, g.Undocumented
  initializers : ∀ t ∈ product.graph.initializers, t.elementType.Settled target
  inputs : ∀ v ∈ product.graph.inputs, v.elementType.Settled target
  outputs : ∀ v ∈ product.graph.outputs, v.elementType.Settled target
  nodes : product.graph.nodes = m.graph.nodes.map Node.strip
  graphName : product.graph.name = m.graph.name
  operatorSets : product.operatorSets = m.operatorSets
  irVersion : product.irVersion = m.irVersion

/-- Conversion leaves the nodes alone, and with them all that is below them. -/
theorem Model.undocumented_withInitializers {m : Model} {initializers : List Tensor}
    {target : Precision} (h : ∀ g ∈ m.graph.subgraphs, g.Undocumented) :
    ∀ g ∈ (m.withInitializers initializers target).graph.subgraphs, g.Undocumented := by
  intro g hg
  rcases Graph.mem_subgraphs_iff.mp hg with rfl | ⟨child, hchild, hg⟩
  · exact h m.graph (Graph.mem_subgraphs_iff.mpr (.inl rfl))
  · exact h g (Graph.mem_subgraphs_iff.mpr (.inr ⟨child, hchild, hg⟩))

theorem Model.productOf_of_convert {m product : Model} {target : Precision}
    (h : (m.strip.convert target).result = .ok product) : m.ProductOf target product := by
  obtain ⟨groups, -, hwith⟩ := convert_eq_ok_iff.mp h
  obtain ⟨initializers, rfl, hinit⟩ := convertWith_eq_ok_iff.mp hwith
  constructor
  case undocumented =>
    apply undocumented_withInitializers
    intro g hg
    exact m.graph.undocumented_of_mem_subgraphs_strip hg
  case initializers =>
    intro t' ht'
    obtain ⟨t, -, hconvert⟩ := exists_of_forall₂_right hinit ht'
    exact Tensor.settled_of_convert hconvert
  case inputs =>
    intro v' hv'
    obtain ⟨v, -, rfl⟩ := List.mem_map.mp hv'
    rw [ValueInfo.elementType_converted]
    exact v.settled_retype target
  case outputs =>
    intro v' hv'
    obtain ⟨v, -, rfl⟩ := List.mem_map.mp hv'
    exact v.settled_retype target
  case nodes =>
    show m.graph.strip.nodes = _
    rw [Graph.strip_eq]
  case graphName =>
    show m.graph.strip.name = _
    rw [Graph.strip_eq]
  all_goals rfl

namespace Command

/-! ### Reading the output -/

/-- The model that a run writes can be represented: what was read could be, and neither
    stripping nor conversion changes that. -/
theorem representable_of_load {read : Path → Except FileError Bytes} {p : Path}
    {m product : Model} {target : Precision} (hload : (Onnx.load read p).result = .ok m)
    (hconvert : (m.strip.convert target).result = .ok product) : product.Representable := by
  obtain ⟨bytes, -, hdecode⟩ := load_eq_ok_iff.mp hload
  have hstrip := Model.strip_representable (Onnx.decode_representable hdecode)
  exact (Model.convert_result hconvert hstrip).2

/-- **The output is a finished model.**  It is read back whole, from any directory or
    none, as what conversion makes of the input without its documentation, and a further
    run that reads the same bytes does nothing, whatever else it is asked for.  Lengths
    in a file have 64 bits, so the output is taken to be no longer than they can say. -/
theorem run_output {fs after : FileSystem} {arguments : List String} {o : Options}
    (hparse : parse arguments = some (.convert o))
    (hwrite : (convertFile fs o).result = .ok (some after)) :
    (run fs arguments).files = after ∧ ∃ m bytes,
      (Onnx.load fs.read o.input).result = .ok m ∧ after.read o.output = .ok bytes ∧
      (bytes.length < 2 ^ 64 → ∃ product,
        (∀ source, (Onnx.decode source bytes).result = .ok product) ∧
        (Onnx.load after.read o.output).result = .ok product ∧
        m.ProductOf o.target product ∧
        ∀ again o', parse again = some (.convert o') → after.read o'.input = .ok bytes →
          run after again = ⟨0, "", "", after⟩) := by
  rcases convertFile_eq_ok_iff.mp hwrite with ⟨-, hnone⟩ | ⟨place, bytes, hwrites, hafter⟩
  · cases hnone
  · cases hafter
    refine ⟨by rw [run_of_parse fs hparse, convert_of_writes hwrites], ?_⟩
    obtain ⟨m, product, hload, -, hconvert, htarget, rfl⟩ := hwrites
    have hread : (fs.put place (Onnx.encode product)).read o.output =
        .ok (Onnx.encode product) := FileSystem.read_put htarget
    refine ⟨m, _, hload, hread, ?_⟩
    intro hlen
    have hdecode : ∀ source, (Onnx.decode source (Onnx.encode product)).result = .ok product :=
      fun source => Onnx.decode_encode_of_representable source
        (representable_of_load hload hconvert) hlen
    have hproduct := Model.productOf_of_convert hconvert
    refine ⟨product, hdecode, load_eq_ok_iff.mpr ⟨_, hread, hdecode _⟩, hproduct, ?_⟩
    -- a second run loads what was written, and finds its tag
    intro again o' hagain hinput
    rw [run_of_parse _ hagain]
    exact convert_of_skips ⟨product, load_eq_ok_iff.mpr ⟨_, hinput, hdecode _⟩, hproduct.tagged⟩

set_option maxRecDepth 2000 in
theorem run_output_inPlace :
    ∃ after product, parse inPlace = some (.convert ⟨⟨"m"⟩, ⟨"./m"⟩, false⟩) ∧
      (convertFile (shelf (Onnx.encode Onnx.branching)) ⟨⟨"m"⟩, ⟨"./m"⟩, false⟩).result =
        .ok (some after) ∧
      (Onnx.load after.read ⟨"./m"⟩).result = .ok product ∧
      Onnx.branching.ProductOf .single product ∧
      run after ["--input=m", "--half", "--output", "n"] = ⟨0, "", "", after⟩ := by
  have hagain : parse ["--input=m", "--half", "--output", "n"] =
      some (.convert ⟨⟨"m"⟩, ⟨"n"⟩, true⟩) := by decide
  have hwrite := convertFile_eq_ok_iff.mpr (.inr ⟨_, _, writes_shelf, rfl⟩)
  obtain ⟨-, m, bytes, hload, hread, hfinished⟩ := run_output parse_inPlace hwrite
  rw [load_shelf] at hload
  cases hload
  rw [FileSystem.read_put (target_shelf_dotted _)] at hread
  cases hread
  obtain ⟨product, -, hback, hproduct, hidle⟩ := hfinished (by decide)
  exact ⟨_, product, parse_inPlace, hwrite, hback, hproduct,
    hidle _ _ hagain (FileSystem.read_put rfl)⟩

end Command

end Mpsx
