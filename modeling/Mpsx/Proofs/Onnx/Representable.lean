/-
  Mpsx/Proofs/Onnx/Representable.lean
  ===================================
  **Models that a file can represent.**  A model may say more than a file keeps: a
  dimension is a signed number in the file, an element type is only its code, and
  which list of numbers belongs to a tensor is decided by its type.  A model is
  representable if nothing of this is lost, at any depth, and if its messages are
  not nested deeper than a reader goes.

  All conditions can be evaluated.
-/

import Mathlib.Algebra.Group.Nat.Defs
import Mpsx.Onnx.Write
import Mpsx.Proofs.Model.Subgraphs
import Mpsx.Proofs.Wire.Depth

namespace Mpsx

/-! ### Element types -/

/-- A type that is known by a name is not kept under its code. -/
def ElementType.IsCanonical : ElementType → Prop
  | .other c => ¬(0 ≤ c.toInt ∧ c.toInt ≤ 16)
  | _ => True

instance (t : ElementType) : Decidable t.IsCanonical :=
  match t with
  | .other c => inferInstanceAs (Decidable (¬(0 ≤ c.toInt ∧ c.toInt ≤ 16)))
  | .undefined | .float32 | .uint8 | .int8 | .uint16 | .int16 | .int32 | .int64 | .string | .bool
  | .float16 | .float64 | .uint32 | .uint64 | .complex64 | .complex128 | .bfloat16 =>
    inferInstanceAs (Decidable True)

namespace ElementType

theorem isCanonical_ofCode (c : Int32) : (ofCode c).IsCanonical := by
  unfold ofCode
  split
  case h_18 =>
    rintro ⟨hlow, hhigh⟩
    -- every code in the range has a case of its own
    grind
  all_goals trivial

theorem ofCode_code {t : ElementType} (h : t.IsCanonical) : ofCode t.code = t := by
  cases t with
  | other c =>
    have hcode := code_ofCode c
    cases hread : ofCode c with
    | other c' =>
      rw [hread] at hcode
      simp only [code] at hcode
      rw [code, hread, hcode]
    | _ =>
      -- the code of a named type lies in the range
      rw [hread] at hcode
      simp only [code] at hcode
      subst hcode
      exact absurd (by decide) h
  | _ => exact ofCode_code_of_ne_other (by simp)

end ElementType

/-! ### Tensors -/

/-- Whether a payload is of the form that belongs to an element type; raw bytes belong
    to every type. -/
def Payload.Suits : Payload → ElementType → Prop
  | .raw _, _ => True
  | .floats _, t => t = .float32 ∨ t = .complex64
  | .doubles _, t => t = .float64 ∨ t = .complex128
  | .int64s _, t => t = .int64
  | .uint64s _, t => t = .uint32 ∨ t = .uint64
  | .strings _, t => t = .string
  | .int32s _, t => t ∉ [.float32, .complex64, .float64, .complex128, .int64, .uint32, .uint64,
      .string]

instance (p : Payload) (t : ElementType) : Decidable (p.Suits t) := by
  cases p <;> unfold Payload.Suits <;> infer_instance

structure Tensor.Representable (t : Tensor) : Prop where
  dims : ∀ d ∈ t.shape, d.toNat < 2 ^ 63
  type : t.elementType.IsCanonical
  payload : t.payload.Suits t.elementType

instance (t : Tensor) : Decidable t.Representable :=
  -- over the axes there are, not over all 64-bit numbers
  letI : Decidable (∀ d ∈ t.shape, d.toNat < 2 ^ 63) := List.decidableBAll _ t.shape
  decidable_of_iff ((∀ d ∈ t.shape, d.toNat < 2 ^ 63) ∧ t.elementType.IsCanonical ∧
      t.payload.Suits t.elementType)
    ⟨fun h => ⟨h.1, h.2.1, h.2.2⟩, fun h => ⟨h.dims, h.type, h.payload⟩⟩

/-! ### Graphs and models -/

/-- A graph whose own tensors and descriptors a file can represent; the graphs inside
    it are not looked at. -/
structure Graph.Representable (g : Graph) : Prop where
  tensors : ∀ t ∈ g.tensors, t.Representable
  descriptors : ∀ v ∈ g.descriptors, v.elementType.IsCanonical

instance (g : Graph) : Decidable g.Representable :=
  decidable_of_iff ((∀ t ∈ g.tensors, t.Representable) ∧
      ∀ v ∈ g.descriptors, v.elementType.IsCanonical)
    ⟨fun h => ⟨h.1, h.2⟩, fun h => ⟨h.tensors, h.descriptors⟩⟩

structure Model.Representable (m : Model) : Prop where
  graphs : ∀ g ∈ m.graph.subgraphs, g.Representable
  depth : (Onnx.writeModel m).depth ≤ Wire.nestingLimit

instance (m : Model) : Decidable m.Representable :=
  decidable_of_iff ((∀ g ∈ m.graph.subgraphs, g.Representable) ∧
      (Onnx.writeModel m).depth ≤ Wire.nestingLimit)
    ⟨fun h => ⟨h.1, h.2⟩, fun h => ⟨h.graphs, h.depth⟩⟩

end Mpsx
