/-
  Mpsx/Proofs/Convert/Bounds.lean
  ===============================
  **The numbers behind an exchange of axes.**  Blocks are found by products of
  dimensions: the area of a kernel, the size of a block, where a block starts and
  ends.  The checks made before an exchange bound the product of all dimensions, taken
  from the front, and with it every number that is at most this product.

  A weight that is moved has rows.  If it has columns as well, its blocks are no larger
  than its buffer and all numbers can be addressed.  If it has none, its buffer is
  empty, no block is ever looked for, and nothing bounds the dimensions that come after
  the zero.  The size of a block is computed all the same, and this is where a conversion
  can overflow.
-/

import Mathlib.Algebra.Group.Nat.Defs
import Mpsx.Proofs.Convert.Refused
import Mpsx.Proofs.Convert.Scan

namespace Mpsx

/-! ### When axes are exchanged -/

section Reports

variable {name : String} {shape : List UInt64}

theorem Groups.swappedAxes_not_mem_visit (groups : Groups) (n : Node) :
    .swappedAxes name shape ∉ (groups.visit n).events := by
  intro h
  rcases Traced.mem_events_bind_iff.mp h with h | ⟨use, -, h⟩
  · cases h
  · rcases use with _ | ⟨weight, group⟩
    · cases h
    · rcases Traced.mem_events_bind_iff.mp h with h | ⟨_, -, h⟩
      · simp [Traced.report] at h
      · rcases hearlier : Table.get? groups weight with _ | earlier
        · simp [hearlier, pure] at h
        · by_cases hne : earlier = group
          · simp [hearlier, hne, pure] at h
          · simp [hearlier, hne, pure, bind, Traced.report] at h

theorem swappedAxes_not_mem_groupedWeights (nodes : List Node) :
    .swappedAxes name shape ∉ (groupedWeights nodes).events := by
  unfold groupedWeights
  generalize ([] : Groups) = groups
  induction nodes generalizing groups with
  | nil =>
    intro h
    cases h
  | cons n rest ih =>
    intro h
    rw [List.foldlM_cons] at h
    rcases Traced.mem_events_bind_iff.mp h with h | ⟨groups', -, h⟩
    · exact Groups.swappedAxes_not_mem_visit groups n h
    · exact ih groups' h

theorem ValueInfo.swappedAxes_not_mem_convertInput (v : ValueInfo) (moved : List String)
    (target : Precision) : .swappedAxes name shape ∉ (v.convertInput moved target).events := by
  unfold convertInput
  dsimp only
  split
  · split
    · simp [Traced.report, bind, pure]
    · simp [pure]
  · simp [pure]

end Reports

namespace Tensor

variable {t : Tensor} {group : Option Int64} {target : Precision} {name : String}
  {shape : List UInt64}

/-- An exchange is reported once all checks on the weight have passed, before any product
    is taken for it. -/
theorem swappedAxes_mem_convert_iff :
    .swappedAxes name shape ∈ (t.convert group target).events ↔
      (swapsAxes group t.shape = true ∧ t.Complete (swapsAxes group t.shape = true)) ∧
        t.name = name ∧ t.shape = shape := by
  have hlayout : .swappedAxes name shape ∉ t.layoutReports group := by
    unfold layoutReports
    split
    · simp
    · simp
  rw [events_convert, List.mem_append, or_iff_right hlayout]
  by_cases hswap : swapsAxes group t.shape = true
  · rcases convert_cases (.inl hswap : _ ∨ castSource? t.elementType target ≠ none) with
      ⟨⟨hcomplete, -⟩, t', h⟩ | ⟨stop, h, hstops⟩
    · rw [h, and_iff_right ⟨hswap, hcomplete⟩]
      simp [dataReports, hswap, eq_comm]
    · rw [h]
      cases hstops with
      | refused hfault => simp [hfault.not_complete]
      | overflow hcomplete =>
        rw [and_iff_right ⟨hswap, hcomplete⟩]
        simp [eq_comm]
  · rcases h : (t.convert group target).result with (e | _) | t'
    · simp [hswap]
    · -- only a weight that is moved overflows
      obtain ⟨-, hstops⟩ := convert_eq_error_iff.mp h
      cases hstops with
      | overflow _ hover => exact absurd hover.1 hswap
    · simp [hswap, dataReports]

theorem convert_eq_overflow_iff_reported :
    (t.convert group target).result = .error .overflow ↔
      .swappedAxes t.name t.shape ∈ (t.convert group target).events ∧
        t.Overflows (swapsAxes group t.shape = true) := by
  rw [swappedAxes_mem_convert_iff, convert_eq_error_iff]
  constructor
  · rintro ⟨-, hstops⟩
    cases hstops with
    | overflow hcomplete hover => exact ⟨⟨⟨hover.1, hcomplete⟩, rfl, rfl⟩, hover⟩
  · rintro ⟨⟨⟨hswap, hcomplete⟩, -⟩, hover⟩
    exact ⟨.inl hswap, .overflow hcomplete hover⟩

end Tensor

namespace Model

variable {m : Model} {target : Precision} {t : Tensor}

/-- The conversion comes to exchanging the axes of an initializer: the scan succeeds, all
    initializers before it do, and so do the checks on this one. -/
def ReachesSwap (m : Model) (target : Precision) (t : Tensor) : Prop :=
  ∃ groups before after, (groupedWeights m.graph.nodes).result = .ok groups ∧
    m.graph.initializers = before ++ t :: after ∧
    (∀ u ∈ before, ∃ u', (u.convert (Table.get? groups u.name) target).result = .ok u') ∧
    .swappedAxes t.name t.shape ∈ (t.convert (Table.get? groups t.name) target).events

/-- What is reached is what is reported. -/
theorem swappedAxes_mem_convert_iff {name : String} {shape : List UInt64} :
    .swappedAxes name shape ∈ (m.convert target).events ↔
      ∃ t, m.ReachesSwap target t ∧ t.name = name ∧ t.shape = shape := by
  simp only [convert, Traced.mem_events_bind_iff, Traced.mapError_eq_ok_iff]
  have hwith : ∀ groups, .swappedAxes name shape ∈ (m.convertWith groups target).events ↔
      Event.swappedAxes name shape ∈ (m.graph.initializers.mapM fun t : Tensor =>
        t.convert (Table.get? groups t.name) target).events := by
    intro groups
    constructor
    · intro h
      rcases Traced.mem_events_bind_iff.mp h with h | ⟨initializers, -, h⟩
      · exact h
      · rcases Traced.mem_events_bind_iff.mp h with h | ⟨inputs, -, h⟩
        · obtain ⟨before, v, after, -, -, h⟩ := Traced.mem_events_mapM_iff.mp h
          exact absurd h (v.swappedAxes_not_mem_convertInput _ target)
        · simp [Traced.report, bind, pure] at h
    · intro h
      exact Traced.mem_events_bind_iff.mpr (.inl h)
  constructor
  · rintro (h | ⟨groups, hgroups, h⟩)
    · exact absurd h (swappedAxes_not_mem_groupedWeights _)
    · obtain ⟨before, t, after, hsplit, hbefore, h⟩ :=
        Traced.mem_events_mapM_iff.mp ((hwith groups).mp h)
      obtain ⟨-, rfl, rfl⟩ := Tensor.swappedAxes_mem_convert_iff.mp h
      exact ⟨t, ⟨groups, before, after, hgroups, hsplit, hbefore, h⟩, rfl, rfl⟩
  · rintro ⟨t, ⟨groups, before, after, hgroups, hsplit, hbefore, h⟩, rfl, rfl⟩
    refine .inr ⟨groups, hgroups, (hwith groups).mpr ?_⟩
    exact Traced.mem_events_mapM_iff.mpr ⟨before, t, after, hsplit, hbefore, h⟩

end Model

/-! ### Which numbers can be addressed -/

structure SwapAddressable (d0 d1 d2 d3 width : Nat) : Prop where
  area : d2 * d3 < 2 ^ 64
  block : d2 * d3 * width < 2 ^ 64
  buffer : d0 * d1 * (d2 * d3 * width) < 2 ^ 64
  slices : ∀ i < d0, ∀ j < d1,
    (i * d1 + j) * (d2 * d3 * width) + d2 * d3 * width < 2 ^ 64

section Numbers

variable {d0 d1 size : Nat}

theorem block_end_le {i j : Nat} (hi : i < d0) (hj : j < d1) :
    (i * d1 + j) * size + size ≤ d0 * d1 * size := by
  rw [← Nat.succ_mul]
  exact Nat.mul_le_mul_right size (index_lt hi hj)

theorem block_le_buffer (h0 : 0 < d0) (h1 : 0 < d1) : size ≤ d0 * d1 * size :=
  Nat.le_mul_of_pos_left size (Nat.mul_pos h0 h1)

theorem swapAddressable_iff {d2 d3 width : Nat} (hwidth : 0 < width)
    (hbuffer : d0 * d1 * (d2 * d3 * width) < 2 ^ 64) :
    SwapAddressable d0 d1 d2 d3 width ↔ d2 * d3 * width < 2 ^ 64 := by
  constructor
  · exact SwapAddressable.block
  · intro hblock
    have harea : d2 * d3 < 2 ^ 64 := lt_of_le_of_lt (Nat.le_mul_of_pos_right _ hwidth) hblock
    refine ⟨harea, hblock, hbuffer, ?_⟩
    intro i hi j hj
    exact lt_of_le_of_lt (block_end_le hi hj) hbuffer

end Numbers

/-! ### Weights that are moved -/

namespace Model

variable {m : Model} {target : Precision} {t : Tensor}

/-- A weight that is moved has four dimensions, the first of them above one, and exactly
    the bytes they ask for. -/
theorem ReachesSwap.exactBytes (h : m.ReachesSwap target t) :
    ∃ (d0 d1 d2 d3 : UInt64) (width : Nat) (bytes : Bytes), t.shape = [d0, d1, d2, d3] ∧
      1 < d0.toNat ∧ t.elementType.width? = some width ∧ t.exactBytes width = .ok bytes := by
  obtain ⟨groups, before, after, hgroups, -, -, h⟩ := h
  obtain ⟨⟨hswap, hcomplete⟩, -⟩ := Tensor.swappedAxes_mem_convert_iff.mp h
  obtain ⟨d0, d1, d2, d3, hshape⟩ := List.length_eq_four.mp (hcomplete.axes hswap)
  obtain ⟨width, bytes, hwidth, hbytes⟩ := hcomplete.exactBytes
  refine ⟨d0, d1, d2, d3, width, bytes, hshape, ?_, hwidth, hbytes⟩
  -- the first dimension is the group count of a convolution the scan has accepted
  obtain ⟨g, d, rest, huse, hd, hg⟩ := (t.swapsAxes_iff_mustMove hgroups).mp hswap
  have hsound := exists_groupedWeights_iff.mp ⟨groups, hgroups⟩
  obtain ⟨_, n, _, -, ⟨-, -, -, hlt⟩, -⟩ := (lastUse_iff_lastGroup hsound).mp huse
  cases hshape.symm.trans hd
  omega

section Reached

variable {d0 d1 d2 d3 : UInt64} {width : Nat}

theorem ReachesSwap.buffer_lt (h : m.ReachesSwap target t) (hshape : t.shape = [d0, d1, d2, d3])
    (hwidth : t.elementType.width? = some width) :
    d0.toNat * d1.toNat * (d2.toNat * d3.toNat * width) < 2 ^ 64 := by
  obtain ⟨_, _, _, _, width', bytes, -, -, hwidth', hbytes⟩ := h.exactBytes
  cases hwidth.symm.trans hwidth'
  have hsize := (Tensor.exactBytes_eq_ok_iff.mp hbytes).2.1.2
  rw [hshape, volume_cons_cons] at hsize
  simpa using hsize

/-- For a weight that is moved, everything can be addressed if a block can. -/
theorem ReachesSwap.swapAddressable_iff (h : m.ReachesSwap target t)
    (hshape : t.shape = [d0, d1, d2, d3]) (hwidth : t.elementType.width? = some width) :
    SwapAddressable d0.toNat d1.toNat d2.toNat d3.toNat width ↔
      d2.toNat * d3.toNat * width < 2 ^ 64 :=
  Mpsx.swapAddressable_iff (ElementType.width?_pos hwidth) (h.buffer_lt hshape hwidth)

/-- And blocks can, if there are columns. -/
theorem ReachesSwap.block_lt (h : m.ReachesSwap target t) (hshape : t.shape = [d0, d1, d2, d3])
    (hwidth : t.elementType.width? = some width) (hcolumns : d1 ≠ 0) :
    d2.toNat * d3.toNat * width < 2 ^ 64 := by
  obtain ⟨_, _, _, _, _, _, hshape', hrows, -⟩ := h.exactBytes
  cases hshape.symm.trans hshape'
  have hpos : 0 < d1.toNat := by
    apply Nat.pos_of_ne_zero
    intro hzero
    exact hcolumns (UInt64.toNat_inj.mp hzero)
  exact lt_of_le_of_lt (block_le_buffer (by omega) hpos) (h.buffer_lt hshape hwidth)

end Reached

theorem convert_eq_overflow_iff :
    (m.convert target).result = .error .overflow ↔
      ∃ (t : Tensor) (d0 d1 d2 d3 : UInt64) (width : Nat), m.ReachesSwap target t ∧
        t.shape = [d0, d1, d2, d3] ∧ t.elementType.width? = some width ∧
        ¬SwapAddressable d0.toNat d1.toNat d2.toNat d3.toNat width := by
  simp only [convert, Traced.bind_eq_error_iff, Traced.mapError_eq_ok_iff,
    Traced.mapError_eq_error_iff, reduceCtorEq, false_and, exists_false, false_or,
    convertWith_eq_error_iff]
  constructor
  · rintro ⟨groups, hgroups, before, t, after, hsplit, hbefore, h⟩
    obtain ⟨hmem, -, d0, d1, d2, d3, width, hshape, hwidth, hle⟩ :=
      Tensor.convert_eq_overflow_iff_reported.mp h
    refine ⟨t, d0, d1, d2, d3, width, ⟨groups, before, after, hgroups, hsplit, hbefore, hmem⟩,
      hshape, hwidth, ?_⟩
    intro hall
    exact absurd hall.block (Nat.not_lt.mpr hle)
  · rintro ⟨t, d0, d1, d2, d3, width, hreach, hshape, hwidth, hnot⟩
    rw [hreach.swapAddressable_iff hshape hwidth, Nat.not_lt] at hnot
    obtain ⟨groups, before, after, hgroups, hsplit, hbefore, hmem⟩ := hreach
    obtain ⟨⟨hswap, -⟩, -⟩ := Tensor.swappedAxes_mem_convert_iff.mp hmem
    exact ⟨groups, hgroups, before, t, after, hsplit, hbefore,
      Tensor.convert_eq_overflow_iff_reported.mpr
        ⟨hmem, hswap, d0, d1, d2, d3, width, hshape, hwidth, hnot⟩⟩

/-- **What the checks before an exchange of axes bound.**  They bound the buffer and every
    slice of it, and with columns every other number too.  A conversion overflows exactly if
    it comes to a weight for which one of the numbers cannot be addressed. -/
theorem swap_addressable (m : Model) (target : Precision) :
    (∀ name shape, .swappedAxes name shape ∈ (m.convert target).events ↔
      ∃ t, m.ReachesSwap target t ∧ t.name = name ∧ t.shape = shape) ∧
    (∀ t, m.ReachesSwap target t →
      ∃ (d0 d1 d2 d3 : UInt64) (width : Nat) (bytes : Bytes), t.shape = [d0, d1, d2, d3] ∧
        t.elementType.width? = some width ∧ t.exactBytes width = .ok bytes ∧
        bytes.length = d0.toNat * d1.toNat * (d2.toNat * d3.toNat * width) ∧
        bytes.length < 2 ^ 64 ∧
        (∀ i < d0.toNat, ∀ j < d1.toNat,
          (i * d1.toNat + j) * (d2.toNat * d3.toNat * width) + d2.toNat * d3.toNat * width ≤
            bytes.length) ∧
        (SwapAddressable d0.toNat d1.toNat d2.toNat d3.toNat width ↔
          (d1 = 0 → d2.toNat * d3.toNat * width < 2 ^ 64)) ∧
        (swapLeadingAxes? bytes t.shape width = none ↔
          ¬SwapAddressable d0.toNat d1.toNat d2.toNat d3.toNat width)) ∧
    ((m.convert target).result = .error .overflow ↔
      ∃ (t : Tensor) (d0 d1 d2 d3 : UInt64) (width : Nat), m.ReachesSwap target t ∧
        t.shape = [d0, d1, d2, d3] ∧ t.elementType.width? = some width ∧
        ¬SwapAddressable d0.toNat d1.toNat d2.toNat d3.toNat width) := by
  refine ⟨?_, ?_, convert_eq_overflow_iff⟩
  · intro name shape
    exact swappedAxes_mem_convert_iff
  · intro t h
    obtain ⟨d0, d1, d2, d3, width, bytes, hshape, -, hwidth, hbytes⟩ := h.exactBytes
    have hiff := h.swapAddressable_iff hshape hwidth
    obtain ⟨-, hsize, hlength⟩ := Tensor.exactBytes_eq_ok_iff.mp hbytes
    have hlt : bytes.length < 2 ^ 64 := hlength ▸ hsize.2
    rw [hshape] at hsize
    rw [hshape, volume_cons_cons] at hlength
    have hnone := swapLeadingAxes?_eq_none_iff hlength
    have harea : volume [d2, d3] = d2.toNat * d3.toNat := by simp
    rw [harea] at hlength
    refine ⟨d0, d1, d2, d3, width, bytes, hshape, hwidth, hbytes, hlength, hlt, ?_, ?_, ?_⟩
    · intro i hi j hj
      rw [hlength]
      exact block_end_le hi hj
    · rw [hiff]
      constructor
      · intro hblock _
        exact hblock
      · intro hblock
        by_cases hzero : d1 = 0
        · exact hblock hzero
        · exact h.block_lt hshape hwidth hzero
    · rw [hshape, hnone, swapFits_iff hsize, hiff,
        addressable_pair_iff (ElementType.width?_pos hwidth)]

def blocks : Tensor := ⟨"w", [2, 3, 1, 2], .float16, .raw (List.replicate 24 7)⟩

theorem swap_addressable_blocks :
    (ofWeight blocks).ReachesSwap .single blocks ∧ SwapAddressable 2 3 1 2 2 := by
  have hreach : (ofWeight blocks).ReachesSwap .single blocks :=
    ⟨_, [], [], rfl, rfl, by simp, by decide⟩
  obtain ⟨d0, d1, d2, d3, width, bytes, hshape, hwidth, -, -, -, -, hiff, -⟩ :=
    (swap_addressable (ofWeight blocks) .single).2.1 blocks hreach
  cases hshape
  cases hwidth
  exact ⟨hreach, hiff.mpr (by decide)⟩

/-- The hollow weight passes all checks and its axes are to be exchanged; its blocks are too
    large, and the conversion stops. -/
theorem hollow_not_addressable :
    (ofWeight hollow).ReachesSwap .single hollow ∧
    hollow.shape = [2, 0, 0x200000000, 0x200000000] ∧
    hollow.elementType.width? = some 4 ∧
    ¬SwapAddressable 2 0 0x200000000 0x200000000 4 ∧
    ((ofWeight hollow).convert .single).result = .error .overflow := by
  refine ⟨⟨_, [], [], rfl, rfl, by simp, by decide⟩, rfl, rfl, ?_, rfl⟩
  intro h
  exact absurd h.area (by decide)

end Model

end Mpsx
