/-
  Mpsx/Proofs/Convert/Meaning.lean
  ================================
  **What becomes of a model.**  Conversion is described here by what it does to
  single elements: which initializers are moved, which are cast, and which element
  of the result comes from which element of the original.  Everything a
  convolution does not ask for, and everything that is no float, stays as it was.
-/

import Mpsx.Proofs.Convert.Elements
import Mpsx.Proofs.Convert.Steps

namespace Mpsx

/-! ### What is asked for -/

/-- The initializer is a weight whose first dimension is the group count recorded for it. -/
def Tensor.IsMoved (t : Tensor) (groups : Groups) : Prop :=
  ∃ g d rest, Table.get? groups t.name = some g ∧ t.shape = d :: rest ∧ (d.toNat : Int) = g.toInt

def Tensor.IsCast (t : Tensor) (target : Precision) : Prop :=
  (t.elementType = .float32 ∨ t.elementType = .float16) ∧ t.elementType ≠ target.elementType

def ElementType.convertElement (type : ElementType) (target : Precision) (x : Nat) : Nat :=
  match type.precision? with
  | some p => p.recast target x
  | none => x

/-- The place of an element in a buffer in which the last index runs fastest. -/
def rowMajor (shape indices : List Nat) : Nat :=
  (shape.zip indices).foldl (fun place (d, i) => place * d + i) 0

theorem rowMajor_four (d0 d1 d2 d3 i j y x : Nat) :
    rowMajor [d0, d1, d2, d3] [i, j, y, x] = (i * d1 + j) * (d2 * d3) + (y * d3 + x) := by
  simp only [rowMajor, List.zip_cons_cons, List.zip_nil_right, List.foldl_cons, List.foldl_nil]
  rw [Nat.zero_mul, Nat.zero_add, Nat.add_mul, Nat.mul_assoc, Nat.add_assoc]

structure Tensor.Becomes (groups : Groups) (target : Precision) (t t' : Tensor) : Prop where
  name : t'.name = t.name
  kept : ¬t.IsMoved groups → ¬t.IsCast target → t' = t
  data : t.IsMoved groups ∨ t.IsCast target → ∃ bytes width, t'.payload = .raw bytes ∧
    t'.elementType.width? = some width ∧ bytes.length = volume t'.shape * width
  castType : t.IsCast target → t'.elementType = target.elementType
  keptType : ¬t.IsCast target → t'.elementType = t.elementType
  inPlace : ¬t.IsMoved groups → t'.shape = t.shape ∧
    (t.IsCast target → ∀ k < volume t.shape, ∃ x, t.element? k = some x ∧
      t'.element? k = some (t.elementType.convertElement target x))
  moved : t.IsMoved groups → ∃ d0 d1 d2 d3 : UInt64,
    t.shape = [d0, d1, d2, d3] ∧ t'.shape = [d1, d0, d2, d3] ∧
      ∀ i < d0.toNat, ∀ j < d1.toNat, ∀ y < d2.toNat, ∀ x < d3.toNat,
        ∃ e, t.element? (rowMajor (t.shape.map UInt64.toNat) [i, j, y, x]) = some e ∧
          t'.element? (rowMajor (t'.shape.map UInt64.toNat) [j, i, y, x]) =
            some (t.elementType.convertElement target e)

/-! ### The decisions made -/

theorem Tensor.swapsAxes_eq_true_iff {t : Tensor} {groups : Groups} :
    swapsAxes (Table.get? groups t.name) t.shape = true ↔ t.IsMoved groups := by
  unfold swapsAxes IsMoved
  split
  · next g d rest hg hs => simp [hg, hs]
  · next h =>
    simp only [Bool.false_eq_true, false_iff]
    rintro ⟨g, d, rest, hg, hs, -⟩
    exact h g d rest hg hs

theorem ElementType.precision?_eq_some_iff {type : ElementType} {p : Precision} :
    type.precision? = some p ↔ type = p.elementType := by
  cases type <;> cases p <;> simp [precision?, Precision.elementType]

theorem castSource?_eq_some_iff {type : ElementType} {target p : Precision} :
    castSource? type target = some p ↔ type = p.elementType ∧ p ≠ target := by
  rw [castSource?, Option.filter_eq_some_iff, ElementType.precision?_eq_some_iff,
    decide_eq_true_eq]

theorem Tensor.castSource?_ne_none_iff {t : Tensor} {target : Precision} :
    castSource? t.elementType target ≠ none ↔ t.IsCast target := by
  unfold castSource? IsCast
  cases t.elementType <;> cases target <;> simp [ElementType.precision?, Precision.elementType]

theorem ElementType.convertElement_of_castSource?_eq_none {type : ElementType}
    {target : Precision} (h : castSource? type target = none) (x : Nat) :
    type.convertElement target x = x := by
  unfold convertElement
  cases hp : type.precision? with
  | none => rfl
  | some p =>
    have hsame : p = target := by
      simpa [castSource?, hp] using h
    rw [hsame]
    exact Precision.recast_self target x

theorem Precision.convertElement_elementType (p target : Precision) (x : Nat) :
    p.elementType.convertElement target x = p.recast target x := by
  rw [ElementType.convertElement, precision?_elementType]

/-! ### Initializers -/

namespace Tensor

variable {t : Tensor} {target : Precision} {width : Nat} {bytes data : Bytes}

@[simp] theorem name_rebuild (swap : Bool) (source : Option Precision) :
    (t.rebuild swap source target data).name = t.name := by
  cases source <;> rfl

@[simp] theorem shape_rebuild (swap : Bool) (source : Option Precision) :
    (t.rebuild swap source target data).shape =
      if swap then swapFirstTwo t.shape else t.shape := by
  cases source <;> rfl

theorem elementType_rebuild (swap : Bool) (source : Option Precision) :
    (t.rebuild swap source target data).elementType =
      if source = none then t.elementType else target.elementType := by
  cases source <;> rfl

/-- A weight with four axes is moved block by block. -/
theorem place?_true_eq_some {d0 d1 d2 d3 : UInt64} (hshape : t.shape = [d0, d1, d2, d3])
    (h : t.place? true width bytes = some data) :
    bytes.length = d0.toNat * d1.toNat * (d2.toNat * d3.toNat * width) ∧
      data = transposeBlocks bytes d0.toNat d1.toNat (d2.toNat * d3.toNat * width) := by
  rw [place?, if_pos rfl, hshape] at h
  simpa using (swapLeadingAxes?_eq_some_iff.mp h).2

/-- Bytes that are moved are as many as before. -/
theorem length_of_place? {swap : Bool} (hrank : swap = true → t.shape.length = 4)
    (h : t.place? swap width bytes = some data) : data.length = bytes.length := by
  cases swap with
  | false =>
    cases h
    rfl
  | true =>
    obtain ⟨d0, d1, d2, d3, hshape⟩ := List.length_eq_four.mp (hrank rfl)
    obtain ⟨hlength, rfl⟩ := place?_true_eq_some hshape h
    rw [length_transposeBlocks hlength, hlength, Nat.mul_comm d1.toNat]

/-- The last step, casting, keeps elements in their places and casts each. -/
theorem rebuild_elements (target : Precision) (swap : Bool)
    (hwidth : t.elementType.width? = some width) (hlen : data.length = volume t.shape * width) :
    ∃ out width', (t.rebuild swap (castSource? t.elementType target) target data).payload =
        .raw out ∧
      (t.rebuild swap (castSource? t.elementType target) target data).elementType.width? =
        some width' ∧
      out.length = volume t.shape * width' ∧
      ∀ k < volume t.shape, (out.block width' k).toNat =
        t.elementType.convertElement target (data.block width k).toNat := by
  cases hsource : castSource? t.elementType target with
  | none =>
    refine ⟨data, width, rfl, hwidth, hlen, ?_⟩
    intro k _
    rw [ElementType.convertElement_of_castSource?_eq_none hsource]
  | some p =>
    obtain ⟨htype, -⟩ := castSource?_eq_some_iff.mp hsource
    have hp : width = p.width := by
      rw [htype, Precision.width?_elementType] at hwidth
      exact (Option.some.inj hwidth).symm
    subst hp
    refine ⟨castFloats data p target, target.width, rfl, target.width?_elementType,
      length_castFloats hlen, ?_⟩
    intro k hk
    have hfit : (k + 1) * p.width ≤ data.length := by
      rw [hlen]
      exact Nat.mul_le_mul_right p.width hk
    rw [block_castFloats hfit, htype, Precision.convertElement_elementType]

theorem element?_rebuild (swap : Bool) (hwidth : t.elementType.width? = some width)
    (hlen : data.length = volume t.shape * width) {k : Nat} (hk : k < volume t.shape) :
    (t.rebuild swap (castSource? t.elementType target) target data).element? k =
      some (t.elementType.convertElement target (data.block width k).toNat) := by
  obtain ⟨out, width', hpayload, hwidth', hout, helements⟩ :=
    rebuild_elements target swap hwidth hlen
  have hraw : (t.rebuild swap (castSource? t.elementType target) target data).rawBytes? =
      some out := by
    rw [rawBytes?, hpayload]
  rw [element?_eq hwidth' hraw, helements k hk]
  rw [hout]
  exact Nat.mul_le_mul_right width' hk

/-- Moved: element `(j, i, y, x)` comes from element `(i, j, y, x)`. -/
theorem element?_rebuild_moved {d0 d1 d2 d3 : UInt64} (hshape : t.shape = [d0, d1, d2, d3])
    (hwidth : t.elementType.width? = some width) (hbytes : t.exactBytes width = .ok bytes)
    (hplace : t.place? true width bytes = some data)
    {i j y x : Nat} (hi : i < d0.toNat) (hj : j < d1.toNat) (hy : y < d2.toNat)
    (hx : x < d3.toNat) :
    ∃ e, t.element? (rowMajor (t.shape.map UInt64.toNat) [i, j, y, x]) = some e ∧
      (t.rebuild true (castSource? t.elementType target) target data).element?
          (rowMajor ([d1, d0, d2, d3].map UInt64.toNat) [j, i, y, x]) =
        some (t.elementType.convertElement target e) := by
  obtain ⟨hraw, -⟩ := exactBytes_eq_ok_iff.mp hbytes
  have hlen := length_of_exactBytes hbytes
  have hdata : data.length = volume t.shape * width := by
    rw [length_of_place? (fun _ => by rw [hshape]; rfl) hplace, hlen]
  have hvolume : volume t.shape = d0.toNat * d1.toNat * (d2.toNat * d3.toNat) := by
    simp [hshape, Nat.mul_assoc]
  obtain ⟨hblocks, rfl⟩ := place?_true_eq_some hshape hplace
  have hinner : y * d3.toNat + x < d2.toNat * d3.toNat := index_lt hy hx
  -- the two outer indices choose the block, the two inner ones the element in it
  simp only [hshape, List.map_cons, List.map_nil, rowMajor_four]
  refine ⟨_, element?_eq hwidth hraw ?_, ?_⟩
  · rw [hlen, hvolume]
    exact Nat.mul_le_mul_right width (index_lt (index_lt hi hj) hinner)
  · rw [element?_rebuild true hwidth hdata, block_transposeBlocks_part hblocks hi hj hinner]
    rw [hvolume, Nat.mul_comm d0.toNat]
    exact index_lt (index_lt hj hi) hinner

variable {groups : Groups}

theorem becomes_self (hmoved : ¬t.IsMoved groups) (hcast : ¬t.IsCast target) :
    t.Becomes groups target t where
  name := rfl
  kept _ _ := rfl
  data h := (h.elim hmoved hcast).elim
  castType h := (hcast h).elim
  keptType _ := rfl
  inPlace _ := ⟨rfl, fun h => (hcast h).elim⟩
  moved h := (hmoved h).elim

theorem becomes_rebuild {swap : Bool} (hswap : swap = true ↔ t.IsMoved groups)
    (hrank : t.IsMoved groups → t.shape.length = 4)
    (hany : t.IsMoved groups ∨ t.IsCast target) (hwidth : t.elementType.width? = some width)
    (hbytes : t.exactBytes width = .ok bytes) (hplace : t.place? swap width bytes = some data) :
    t.Becomes groups target
      (t.rebuild swap (castSource? t.elementType target) target data) := by
  obtain ⟨hraw, -⟩ := exactBytes_eq_ok_iff.mp hbytes
  have hlen := length_of_exactBytes hbytes
  have hdata : data.length = volume t.shape * width := by
    rw [length_of_place? (fun h => hrank (hswap.mp h)) hplace, hlen]
  constructor
  case name => exact name_rebuild ..
  case kept =>
    intro hmoved hcast
    exact (hany.elim hmoved hcast).elim
  case data =>
    intro _
    obtain ⟨out, width', hpayload, hwidth', hout, -⟩ := rebuild_elements target swap hwidth hdata
    refine ⟨out, width', hpayload, hwidth', ?_⟩
    rw [hout, shape_rebuild]
    cases swap with
    | false => rfl
    | true => rw [if_pos rfl, volume_swapFirstTwo]
  case castType =>
    intro hcast
    rw [elementType_rebuild, if_neg (castSource?_ne_none_iff.mpr hcast)]
  case keptType =>
    intro hcast
    rw [elementType_rebuild, if_pos (not_not.mp fun h => hcast (castSource?_ne_none_iff.mp h))]
  case inPlace =>
    intro hmoved
    have hfalse : swap = false := Bool.eq_false_iff.mpr fun h => hmoved (hswap.mp h)
    subst hfalse
    cases hplace
    refine ⟨shape_rebuild .., ?_⟩
    intro _ k hk
    refine ⟨_, element?_eq hwidth hraw ?_, element?_rebuild false hwidth hlen hk⟩
    rw [hlen]
    exact Nat.mul_le_mul_right width hk
  case moved =>
    intro hmoved
    obtain rfl := hswap.mpr hmoved
    obtain ⟨d0, d1, d2, d3, hshape⟩ := List.length_eq_four.mp (hrank hmoved)
    have hshape' : (t.rebuild true (castSource? t.elementType target) target data).shape =
        [d1, d0, d2, d3] := by
      rw [shape_rebuild, if_pos rfl, hshape, swapFirstTwo]
    refine ⟨d0, d1, d2, d3, hshape, hshape', ?_⟩
    intro i hi j hj y hy x hx
    rw [hshape']
    exact element?_rebuild_moved hshape hwidth hbytes hplace hi hj hy hx

theorem convert_becomes {t' : Tensor}
    (h : (t.convert (Table.get? groups t.name) target).result = .ok t') :
    t.Becomes groups target t' := by
  rcases convert_eq_ok_iff.mp h with ⟨hswap, hsource, rfl⟩ |
    ⟨hany, hrank, width, bytes, data, hw, hb, hp, rfl⟩
  · apply becomes_self
    · rw [← swapsAxes_eq_true_iff, hswap]
      decide
    · rw [← castSource?_ne_none_iff, hsource]
      simp
  · rw [swapsAxes_eq_true_iff] at hrank
    rw [swapsAxes_eq_true_iff, castSource?_ne_none_iff] at hany
    exact becomes_rebuild swapsAxes_eq_true_iff hrank hany hw hb hp

end Tensor

/-! ### Models -/

/-- What becomes of a model: its initializers are converted in their places, and
    apart from them only types and shapes of descriptors and the producer change. -/
structure Model.Becomes (groups : Groups) (target : Precision) (m m' : Model) : Prop where
  irVersion : m'.irVersion = m.irVersion
  operatorSets : m'.operatorSets = m.operatorSets
  graphName : m'.graph.name = m.graph.name
  doc : m'.graph.doc = m.graph.doc
  nodes : m'.graph.nodes = m.graph.nodes
  inputs : m'.graph.inputs.map ValueInfo.name = m.graph.inputs.map ValueInfo.name
  outputs : m'.graph.outputs.map ValueInfo.name = m.graph.outputs.map ValueInfo.name
  initializers : List.Forall₂ (Tensor.Becomes groups target) m.graph.initializers
    m'.graph.initializers

/-- **Meaning of a conversion.** -/
theorem Model.convertWith_becomes {m m' : Model} {groups : Groups} {target : Precision}
    (h : (m.convertWith groups target).result = .ok m') : m.Becomes groups target m' := by
  obtain ⟨initializers, rfl, hinit⟩ := convertWith_eq_ok_iff.mp h
  constructor
  case inputs => simp [withInitializers]
  case outputs => simp [withInitializers]
  case initializers => exact hinit.imp fun _ _ => Tensor.convert_becomes
  all_goals rfl

/-- A square weight of floats, a weight of bytes kept in wider numbers, a bias, a scale in
    halves and an index: each is treated in another way. -/
def Model.mixed : Model :=
  { irVersion := some 8
    operatorSets := [⟨"", 17⟩]
    producerName := some "test"
    producerVersion := none
    graph := ⟨"main", [⟨"", "Conv", "", ["x", "w", "b"], ["y"], [("group", .int 2)], none⟩],
      [⟨"x", .float32, none⟩, ⟨"q", .int8, some [.value 2, .param "M", .value 1, .value 1]⟩],
      [⟨"y", .float32, none⟩],
      [⟨"w", [2, 2, 1, 1], .float32,
          .floats [⟨0x3F800000⟩, ⟨0x40000000⟩, ⟨0x40400000⟩, ⟨0x40800000⟩]⟩,
        ⟨"q", [2, 3, 1, 1], .int8, .int32s [-1, 2, 3, 4, 5, 6]⟩,
        ⟨"b", [1], .float32, .raw [0, 0, 128, 191]⟩,
        ⟨"s", [2], .float16, .int32s [0x3C00, 0x8001]⟩,
        ⟨"n", [1], .int64, .int64s [7]⟩], none⟩ }

/-- Both ways: floats are narrowed and the scale stays, or it is widened and they stay. -/
theorem Model.mixed_becomes :
    (∃ m', (mixed.convertWith [("w", 2), ("q", 2)] .half).result = .ok m' ∧
      m'.graph.initializers =
        [⟨"w", [2, 2, 1, 1], .float16, .raw [0, 60, 0, 66, 0, 64, 0, 68]⟩,
          ⟨"q", [3, 2, 1, 1], .int8, .raw [255, 4, 2, 5, 3, 6]⟩,
          ⟨"b", [1], .float16, .raw [0, 188]⟩,
          ⟨"s", [2], .float16, .int32s [0x3C00, 0x8001]⟩,
          ⟨"n", [1], .int64, .int64s [7]⟩] ∧
      mixed.Becomes [("w", 2), ("q", 2)] .half m') ∧
    ∃ m', (mixed.convertWith [("w", 2), ("q", 2)] .single).result = .ok m' ∧
      m'.graph.initializers =
        [⟨"w", [2, 2, 1, 1], .float32,
            .raw [0, 0, 128, 63, 0, 0, 64, 64, 0, 0, 0, 64, 0, 0, 128, 64]⟩,
          ⟨"q", [3, 2, 1, 1], .int8, .raw [255, 4, 2, 5, 3, 6]⟩,
          ⟨"b", [1], .float32, .raw [0, 0, 128, 191]⟩,
          ⟨"s", [2], .float32, .raw [0, 0, 128, 63, 0, 0, 128, 179]⟩,
          ⟨"n", [1], .int64, .int64s [7]⟩] ∧
      mixed.Becomes [("w", 2), ("q", 2)] .single m' := by
  refine ⟨⟨_, rfl, ?_, convertWith_becomes rfl⟩, _, rfl, ?_, convertWith_becomes rfl⟩
  · decide
  · decide

end Mpsx
