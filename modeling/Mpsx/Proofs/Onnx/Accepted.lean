/-
  Mpsx/Proofs/Onnx/Accepted.lean
  ==============================
  **Whatever is read can be written.**  A model that comes out of a message is
  representable, whatever the message was: with fields given several times or in
  pieces, with attributes that declare no kind, with data from other files.

  The part that needs an argument is depth.  A written message can be nested more
  deeply than the message it was read from only if reading invents a level, and it
  does not: every level that is written stands for one that was read
  (`readValueInfo_accepted` for types, `readAttribute_held` for graphs).
-/

import Mpsx.Proofs.Onnx.Reading
import Mpsx.Proofs.Onnx.Representable
import Mpsx.Proofs.Onnx.Written

namespace Mpsx.Onnx

open Wire

variable {source : Source}

/-! ### Tensors and descriptors -/

theorem typedPayload_suits (m : Message) (t : ElementType) : (typedPayload m t).Suits t := by
  unfold typedPayload
  split <;> simp_all [Payload.Suits]

theorem readTensor_representable {m : Message} {t : Tensor}
    (h : (readTensor source m).result = .ok t) : t.Representable := by
  obtain ⟨hdims, -, hshape, htype, hpayload⟩ := readTensor_eq_ok_iff.mp h
  refine ⟨?_, ?_, ?_⟩
  · rw [hshape]
    exact hdims
  · rw [htype]
    exact ElementType.isCanonical_ofCode _
  · rw [ReadsPayload] at hpayload
    split at hpayload
    · obtain ⟨bytes, -, hraw⟩ := hpayload
      rw [hraw]
      trivial
    · rw [hpayload, htype]
      cases m.bytes? TensorField.raw with
      | some bytes => trivial
      | none => exact typedPayload_suits m _

/-- A descriptor that is read has a canonical type and is written no deeper. -/
theorem readValueInfo_accepted {m : Message} {v : ValueInfo}
    (h : (readValueInfo m).result = .ok v) :
    v.elementType.IsCanonical ∧ (writeValueInfo v).depth ≤ m.depth := by
  rw [readValueInfo] at h
  cases htype : (m.message? ValueInfoField.type).bind fun t => t.chosen? typeMembers with
  | none =>
    rw [htype] at h
    cases h
    exact ⟨trivial, Nat.zero_le _⟩
  | some chosen =>
    obtain ⟨number, t⟩ := chosen
    obtain ⟨outer, houter, hchosen⟩ := Option.bind_eq_some_iff.mp htype
    have h1 := Message.depth_lt_of_message? houter
    have h2 := Message.depth_lt_of_chosen? hchosen
    rw [htype] at h
    simp only at h
    split at h
    · cases h
      refine ⟨ElementType.isCanonical_ofCode _, ?_⟩
      -- a written shape stands for one in `t`, a written axis for one in that shape
      have htype : (writeTensorType ⟨textOf m ValueInfoField.name,
          elementTypeOf t TensorTypeField.elementType,
          (t.message? TensorTypeField.shape).map fun s =>
            (s.messages ShapeField.dim).map readDimension⟩).depth ≤ t.depth := by
        rw [depth_writeTensorType_le_iff]
        intro dims hdims
        obtain ⟨s, hs, rfl⟩ := Option.map_eq_some_iff.mp hdims
        have h3 := Message.depth_lt_of_message? hs
        refine Nat.lt_of_le_of_lt (depth_writeDescriptorShape_le_iff.mpr ?_) h3
        intro hne
        obtain ⟨k, hk⟩ := List.exists_mem_of_ne_nil _ (mt List.map_eq_nil_iff.mpr hne)
        exact Nat.zero_lt_of_lt (Message.depth_lt_of_mem_messages hk)
      rw [depth_writeValueInfo]
      split
      · exact Nat.zero_le _
      · omega
    · cases h

theorem readGraph_descriptors {m : Message} {g : Graph} (h : (readGraph source m).result = .ok g) :
    ∀ v ∈ g.descriptors, v.elementType.IsCanonical ∧ (writeValueInfo v).depth < m.depth := by
  have haccepted : ∀ n vs,
      List.Forall₂ (fun k v => (readValueInfo k).result = .ok v) (m.messages n) vs →
      ∀ v ∈ vs, v.elementType.IsCanonical ∧ (writeValueInfo v).depth < m.depth := by
    intro n vs hvs v hv
    obtain ⟨k, hk, hread⟩ := exists_of_forall₂_right hvs hv
    obtain ⟨htype, hdepth⟩ := readValueInfo_accepted hread
    exact ⟨htype, Nat.lt_of_le_of_lt hdepth (Message.depth_lt_of_mem_messages hk)⟩
  obtain ⟨-, -, -, -, hinputs, houtputs, -⟩ := readGraph_eq_ok_iff.mp h
  intro v hv
  rcases List.mem_append.mp hv with hv | hv
  · exact haccepted _ _ hinputs v hv
  · exact haccepted _ _ houtputs v hv

/-! ### Graphs and models -/

/-- A written attribute is no deeper than the one it was read from, if its graphs are not. -/
theorem depth_writeNamedAttribute_le {m : Message} {p : String × Attribute}
    (h : (readAttribute source m).result = .ok p)
    (hgraphs : ∀ g ∈ p.2.heldGraphs, ∀ k : Message,
      (readGraph source k).result = .ok g → (writeGraph g).depth ≤ k.depth) :
    (writeNamedAttribute p).depth ≤ m.depth := by
  obtain ⟨htensors, hsource⟩ := readAttribute_held h
  rw [depth_writeNamedAttribute_le_iff]
  constructor
  · intro hne
    obtain ⟨t, ht⟩ := List.exists_mem_of_ne_nil _ hne
    obtain ⟨k, hk, -⟩ := htensors t ht
    exact Nat.zero_lt_of_lt hk
  · intro g hg
    obtain ⟨k, hk, hread⟩ := hsource g hg
    exact Nat.lt_of_le_of_lt (hgraphs g hg k hread) hk

theorem readGraph_representable {g : Graph} {m : Message}
    (h : (readGraph source m).result = .ok g) : ∀ k ∈ g.subgraphs, k.Representable := by
  induction g using Graph.children_induction generalizing m with
  | step g ih =>
    intro k hk
    rcases Graph.mem_subgraphs_iff.mp hk with rfl | ⟨child, hchild, hk⟩
    · constructor
      · intro t ht
        obtain ⟨m', hread⟩ := readGraph_tensors h ht
        exact readTensor_representable hread
      · intro v hv
        exact (readGraph_descriptors h v hv).1
    · obtain ⟨m', hread⟩ := readGraph_children h hchild
      exact ih child hchild hread k hk

theorem depth_writeGraph_le {g : Graph} {m : Message} (h : (readGraph source m).result = .ok g) :
    (writeGraph g).depth ≤ m.depth := by
  induction g using Graph.children_induction generalizing m with
  | step g ih =>
    rw [depth_writeGraph_le_iff]
    refine ⟨?_, ?_, fun v hv => (readGraph_descriptors h v hv).2⟩
    · intro n hn
      obtain ⟨k, hk, hattributes⟩ := readGraph_attributes h hn
      refine Nat.lt_of_le_of_lt (depth_writeNode_le_iff.mpr ?_)
        (Message.depth_lt_of_mem_messages hk)
      intro p hp
      obtain ⟨a, ha, hread⟩ := hattributes p hp
      refine Nat.lt_of_le_of_lt (depth_writeNamedAttribute_le hread ?_)
        (Message.depth_lt_of_mem_messages ha)
      intro child hheld k' hread'
      have hchild : child ∈ g.children := Graph.mem_children_of_mem hn hp hheld
      exact ih child hchild hread'
    · intro hne
      obtain ⟨t, ht⟩ := List.exists_mem_of_ne_nil _ hne
      obtain ⟨-, -, -, -, -, -, hinitializers⟩ := readGraph_eq_ok_iff.mp h
      obtain ⟨k, hk, -⟩ := exists_of_forall₂_right hinitializers ht
      exact Nat.zero_lt_of_lt (Message.depth_lt_of_mem_messages hk)

/-- **Whatever is decoded is representable.** -/
theorem decode_representable {bytes : Bytes} {m : Model}
    (h : (decode source bytes).result = .ok m) : m.Representable := by
  rw [decode] at h
  cases hmessage : schema.decode .model bytes with
  | error fault =>
    rw [hmessage] at h
    cases h
  | ok message =>
    rw [hmessage] at h
    simp only [readModel, Traced.bind_eq_ok_iff, Traced.require_eq_ok_iff] at h
    obtain ⟨k, hk, g, hg, h⟩ := h
    cases h
    have hdepth := depth_writeGraph_le hg
    have hlimit := schema.decode_depth hmessage
    have hk_depth := Message.depth_lt_of_message? hk
    refine ⟨readGraph_representable hg, depth_writeModel_le_iff.mpr ?_⟩
    show (writeGraph g).depth < nestingLimit
    omega

end Mpsx.Onnx
