/-
  Mpsx/Proofs/Convert/Transcode.lean
  ==================================
  **From file to file.**  A file is read, its model converted and the result written.
  Conversion keeps a model representable: the types it gives are known ones, moved
  dimensions are old dimensions, raw bytes suit every type, and no message moves to
  another level.  So the written file reads as the model that was written, and as
  that model is tagged, transcoding the file again gives the same bytes, whatever
  precision is asked for.
-/

import Mpsx.Proofs.Convert.Meaning
import Mpsx.Proofs.Onnx.RoundTrip

namespace Mpsx

/-! ### Initializers stay representable -/

theorem mem_swapFirstTwo_iff {α : Type} {xs : List α} {x : α} :
    x ∈ swapFirstTwo xs ↔ x ∈ xs := by
  match xs with
  | a :: b :: rest =>
    simp only [swapFirstTwo, List.mem_cons]
    exact or_left_comm
  | [] => rfl
  | [_] => rfl

theorem Precision.isCanonical_elementType (p : Precision) : p.elementType.IsCanonical := by
  cases p <;> trivial

theorem Tensor.rebuild_representable {t : Tensor} (ht : t.Representable) (swap : Bool)
    (source : Option Precision) (target : Precision) (data : Bytes) :
    (t.rebuild swap source target data).Representable := by
  constructor
  case dims =>
    intro d hd
    apply ht.dims
    rw [shape_rebuild] at hd
    cases swap with
    | false => exact hd
    | true => exact mem_swapFirstTwo_iff.mp hd
  case type =>
    rw [elementType_rebuild]
    split
    · exact ht.type
    · exact target.isCanonical_elementType
  case payload => cases source <;> trivial

theorem Tensor.convert_representable {t t' : Tensor} {group : Option Int64} {target : Precision}
    (h : (t.convert group target).result = .ok t') (ht : t.Representable) :
    t'.Representable := by
  rcases convert_eq_ok_iff.mp h with ⟨-, -, rfl⟩ | ⟨-, -, width, bytes, data, -, -, -, rfl⟩
  · exact ht
  · exact rebuild_representable ht ..

/-! ### Descriptors stay representable and as deep -/

namespace ValueInfo

theorem retype_isCanonical {v : ValueInfo} (h : v.elementType.IsCanonical) (target : Precision) :
    (v.retype target).elementType.IsCanonical := by
  unfold retype
  split
  · exact target.isCanonical_elementType
  · exact h

theorem shape_converted (v : ValueInfo) (moved : List String) (target : Precision) :
    (v.converted moved target).shape = v.shape ∨
      (v.converted moved target).shape = v.shape.map swapFirstTwo := by
  unfold converted
  cases hshape : v.shape with
  | none => exact .inl (by simpa using hshape)
  | some dims =>
    dsimp only
    split
    · exact .inr rfl
    · exact .inl (by simpa using hshape)

theorem retype_of_undefined {v : ValueInfo} (h : v.elementType = .undefined)
    (target : Precision) : (v.retype target).elementType = .undefined := by
  have hkept : castSource? v.elementType target = none := by
    rw [h]
    rfl
  rw [retype, hkept]
  exact h

end ValueInfo

theorem swapFirstTwo_ne_nil_iff {α : Type} {xs : List α} : swapFirstTwo xs ≠ [] ↔ xs ≠ [] := by
  match xs with
  | _ :: _ :: _ => simp [swapFirstTwo]
  | [] => rfl
  | [_] => rfl

namespace Onnx

theorem depth_writeDescriptorShape_swapFirstTwo (dims : List Dimension) :
    Wire.Message.depth (writeDescriptorShape (swapFirstTwo dims)) ≤
      Wire.Message.depth (writeDescriptorShape dims) := by
  rw [depth_writeDescriptorShape_le_iff, swapFirstTwo_ne_nil_iff,
    ← depth_writeDescriptorShape_le_iff]

/-- A descriptor is not nested deeper for having other axes first, or another type. -/
theorem depth_writeValueInfo_le {v v' : ValueInfo}
    (htype : v.elementType = .undefined → v'.elementType = .undefined)
    (hshape : v'.shape = v.shape ∨ v'.shape = v.shape.map swapFirstTwo) :
    Wire.Message.depth (writeValueInfo v') ≤ Wire.Message.depth (writeValueInfo v) := by
  rw [depth_writeValueInfo, depth_writeValueInfo v]
  by_cases hnothing : v.elementType = .undefined ∧ v.shape = none
  · obtain ⟨hundefined, hnone⟩ := hnothing
    have hshape' : v'.shape = none := by
      rcases hshape with h | h
      · rw [h, hnone]
      · rw [h, hnone]
        rfl
    rw [if_pos ⟨htype hundefined, hshape'⟩]
    exact Nat.zero_le _
  · rw [if_neg hnothing]
    have hinner : Wire.Message.depth (writeTensorType v') ≤
        Wire.Message.depth (writeTensorType v) := by
      rw [depth_writeTensorType_le_iff]
      intro dims' hdims'
      have hall := depth_writeTensorType_le_iff.mp
        (Nat.le_refl (Wire.Message.depth (writeTensorType v)))
      rcases hshape with h | h
      · exact hall dims' (h ▸ hdims')
      · rw [h] at hdims'
        obtain ⟨dims, hdims, rfl⟩ := Option.map_eq_some_iff.mp hdims'
        exact Nat.lt_of_le_of_lt (depth_writeDescriptorShape_swapFirstTwo dims) (hall dims hdims)
    split
    · exact Nat.zero_le _
    · omega

end Onnx

/-! ### Models -/

namespace Model

variable {m : Model} {target : Precision} {initializers : List Tensor}

/-- Every descriptor of the result comes from one of the original. -/
theorem exists_of_mem_descriptors {v' : ValueInfo}
    (h : v' ∈ (m.withInitializers initializers target).graph.descriptors) :
    ∃ v ∈ m.graph.descriptors, v'.elementType = (v.retype target).elementType ∧
      (v'.shape = v.shape ∨ v'.shape = v.shape.map swapFirstTwo) := by
  rcases List.mem_append.mp h with hinput | houtput
  · obtain ⟨v, hv, rfl⟩ := List.mem_map.mp hinput
    exact ⟨v, List.mem_append_left _ hv, v.elementType_converted .., v.shape_converted ..⟩
  · obtain ⟨v, hv, rfl⟩ := List.mem_map.mp houtput
    exact ⟨v, List.mem_append_right _ hv, rfl, .inl (v.shape_retype target)⟩

theorem depth_withInitializers_le (hnil : m.graph.initializers = [] → initializers = []) :
    Wire.Message.depth (Onnx.writeGraph (m.withInitializers initializers target).graph) ≤
      Wire.Message.depth (Onnx.writeGraph m.graph) := by
  obtain ⟨hnodes, htensors, hdescriptors⟩ :=
    Onnx.depth_writeGraph_le_iff.mp (Nat.le_refl (Wire.Message.depth (Onnx.writeGraph m.graph)))
  rw [Onnx.depth_writeGraph_le_iff]
  refine ⟨hnodes, ?_, ?_⟩
  · intro hne
    exact htensors fun h => hne (hnil h)
  · intro v' hv'
    obtain ⟨v, hv, htype, hshape⟩ := exists_of_mem_descriptors hv'
    apply Nat.lt_of_le_of_lt _ (hdescriptors v hv)
    apply Onnx.depth_writeValueInfo_le _ hshape
    intro hundefined
    rw [htype, ValueInfo.retype_of_undefined hundefined]

theorem withInitializers_representable {groups : Groups} (hm : m.Representable)
    (hinit : List.Forall₂ (fun t t' =>
      (t.convert (Table.get? groups t.name) target).result = .ok t')
      m.graph.initializers initializers) :
    (m.withInitializers initializers target).Representable := by
  have hroot : m.graph.Representable := hm.graphs _ (Graph.mem_subgraphs_iff.mpr (.inl rfl))
  constructor
  case graphs =>
    intro g hg
    rcases Graph.mem_subgraphs_iff.mp hg with rfl | ⟨child, hchild, hg⟩
    · constructor
      case tensors =>
        intro t' ht'
        rcases List.mem_append.mp ht' with ht' | ht'
        · obtain ⟨t, ht, hconvert⟩ := exists_of_forall₂_right hinit ht'
          exact Tensor.convert_representable hconvert
            (hroot.tensors t (List.mem_append_left _ ht))
        · exact hroot.tensors t' (List.mem_append_right _ ht')
      case descriptors =>
        intro v' hv'
        obtain ⟨v, hv, htype, -⟩ := exists_of_mem_descriptors hv'
        rw [htype]
        exact ValueInfo.retype_isCanonical (hroot.descriptors v hv) target
    · -- the nodes are the same, and so are the graphs below them
      exact hm.graphs g (Graph.mem_subgraphs_iff.mpr (.inr ⟨child, hchild, hg⟩))
  case depth =>
    have hdepth := hm.depth
    rw [Onnx.depth_writeModel_le_iff] at hdepth ⊢
    apply Nat.lt_of_le_of_lt _ hdepth
    apply depth_withInitializers_le
    intro hnil
    rw [hnil] at hinit
    exact List.forall₂_nil_left_iff.mp hinit

end Model

/-! ### Transcoding -/

structure Transcoded where
  conversion : Conversion
  model : Model
  bytes : Bytes

/-- Reads a file that needs no other files, converts its model and writes it. -/
def transcode (bytes : Bytes) (target : Precision) :
    Except (Onnx.LoadError ⊕ Stop ConvertError) Transcoded := do
  let m ← (Onnx.decode .none bytes).result.mapError .inl
  let c ← (m.convertOnce target).result.mapError .inr
  return ⟨c, c.result m, Onnx.encode (c.result m)⟩

theorem transcode_eq_ok_iff {bytes : Bytes} {target : Precision} {r : Transcoded} :
    transcode bytes target = .ok r ↔
      ∃ m c, (Onnx.decode .none bytes).result = .ok m ∧ (m.convertOnce target).result = .ok c ∧
        r = ⟨c, c.result m, Onnx.encode (c.result m)⟩ := by
  simp only [transcode, exceptBind_eq_ok_iff, mapError_eq_ok_iff]
  constructor
  · rintro ⟨m, hread, c, hconvert, h⟩
    cases h
    exact ⟨m, c, hread, hconvert, rfl⟩
  · rintro ⟨m, c, hread, hconvert, rfl⟩
    exact ⟨m, hread, c, hconvert, rfl⟩

/-- A converted model is tagged, and representable if the model was. -/
theorem Model.convert_result {m m' : Model} {target : Precision}
    (h : (m.convert target).result = .ok m') (hm : m.Representable) :
    m'.isConverted = true ∧ m'.Representable := by
  obtain ⟨groups, -, hwith⟩ := convert_eq_ok_iff.mp h
  obtain ⟨initializers, rfl, hinit⟩ := convertWith_eq_ok_iff.mp hwith
  exact ⟨decide_eq_true rfl, withInitializers_representable hm hinit⟩

theorem Model.convertOnce_result {m : Model} {target : Precision} {c : Conversion}
    (h : (m.convertOnce target).result = .ok c) (hm : m.Representable) :
    (c.result m).isConverted = true ∧ (c.result m).Representable := by
  rcases convertOnce_eq_ok_iff.mp h with ⟨htag, rfl⟩ | ⟨-, m', rfl, hconvert⟩
  · exact ⟨htag, hm⟩
  · exact convert_result hconvert hm

/-- **Transcoding twice is transcoding once.** -/
theorem transcode_transcode {bytes : Bytes} {target : Precision} {r : Transcoded}
    (h : transcode bytes target = .ok r) (hlen : r.bytes.length < 2 ^ 64) (again : Precision) :
    (Onnx.decode .none r.bytes).result = .ok r.model ∧ r.model.producerName = some "MPSX" ∧
      transcode r.bytes again = .ok ⟨.unchanged, r.model, r.bytes⟩ := by
  obtain ⟨m, c, hread, hconvert, rfl⟩ := transcode_eq_ok_iff.mp h
  obtain ⟨htag, hrep⟩ := Model.convertOnce_result hconvert (Onnx.decode_representable hread)
  have hback := Onnx.decode_encode_of_representable .none hrep hlen
  refine ⟨hback, of_decide_eq_true htag, ?_⟩
  -- the second pass starts from the model the first one wrote, and finds its tag
  exact transcode_eq_ok_iff.mpr
    ⟨_, _, hback, Model.convertOnce_of_isConverted htag again, rfl⟩

theorem transcode_mixed :
    ∃ r, transcode (Onnx.encode .mixed) .half = .ok r ∧
      r.model.graph.initializers.head? =
        some ⟨"w", [2, 2, 1, 1], .float16, .raw [0, 60, 0, 66, 0, 64, 0, 68]⟩ ∧
      transcode r.bytes .single = .ok ⟨.unchanged, r.model, r.bytes⟩ := by
  have hread : (Onnx.decode .none (Onnx.encode .mixed)).result = .ok .mixed :=
    Onnx.decode_encode_of_representable .none (by decide +kernel) (by decide +kernel)
  have honce : transcode (Onnx.encode .mixed) .half = .ok _ :=
    transcode_eq_ok_iff.mpr ⟨_, _, hread, rfl, rfl⟩
  obtain ⟨-, -, htwice⟩ := transcode_transcode honce (by decide +kernel) .single
  exact ⟨_, honce, by decide +kernel, htwice⟩

end Mpsx
