/-
  Mpsx/Proofs/Convert/Inputs.lean
  ===============================
  **Which inputs follow a moved weight.**  The descriptor of an input keeps its name, takes
  the target's type if it was a float, and has its first two dimensions exchanged if it has
  four and follows an initializer of its name.

  The initializers that are followed are those whose shape has changed.  A weight with two
  equal leading dimensions is moved without a change of shape, and a descriptor that names
  these dimensions by symbols is left with the two symbols in their old places.  So the rule
  with "moved" in place of "moved, and its leading dimensions differ" is not true, and
  `Model.square` is where it fails.
-/

import Mpsx.Proofs.Convert.Descriptors
import Mpsx.Proofs.Convert.Refused

namespace Mpsx

/-! ### The rule -/

/-- What becomes of the descriptor of an input; `moved` says whether it follows an
    initializer. -/
structure ValueInfo.Follows (moved : Prop) (target : Precision) (v v' : ValueInfo) : Prop where
  name : v'.name = v.name
  floats : v.elementType = .float32 ∨ v.elementType = .float16 →
    v'.elementType = target.elementType
  others : ¬(v.elementType = .float32 ∨ v.elementType = .float16) →
    v'.elementType = v.elementType
  exchanged : moved → ∀ a b c d, v.shape = some [a, b, c, d] → v'.shape = some [b, a, c, d]
  kept : ¬(moved ∧ ∃ dims, v.shape = some dims ∧ dims.length = 4) → v'.shape = v.shape

namespace Graph

def Moves (g : Graph) (name : String) : Prop :=
  ∃ t ∈ g.initializers, t.name = name ∧ t.MustMove g.nodes

def MovesVisibly (g : Graph) (name : String) : Prop :=
  ∃ t ∈ g.initializers, t.name = name ∧ t.MustMove g.nodes ∧ t.shape[0]? ≠ t.shape[1]?

end Graph

/-! ### Initializers whose shape changes -/

theorem ne_swapFirstTwo_iff {shape : List UInt64} (h : shape.length = 4) :
    shape ≠ swapFirstTwo shape ↔ shape[0]? ≠ shape[1]? := by
  obtain ⟨a, b, c, d, rfl⟩ := List.length_eq_four.mp h
  show [a, b, c, d] ≠ [b, a, c, d] ↔ some a ≠ some b
  constructor
  · rintro hne ⟨⟩
    exact hne rfl
  · rintro hne ⟨⟩
    exact hne rfl

/-- The shape of an initializer changes if it is moved and its leading dimensions differ. -/
theorem Tensor.shape_ne_iff_of_convert {t t' : Tensor} {group : Option Int64} {target : Precision}
    (h : (t.convert group target).result = .ok t') :
    t.shape ≠ t'.shape ↔ swapsAxes group t.shape = true ∧ t.shape[0]? ≠ t.shape[1]? := by
  rcases convert_eq_ok_iff.mp h with ⟨hswap, -, rfl⟩ | ⟨-, hrank, width, bytes, data, -, -, -, rfl⟩
  · simp [hswap]
  · rw [shape_rebuild]
    by_cases hswap : swapsAxes group t.shape = true
    · rw [if_pos hswap, ne_swapFirstTwo_iff (hrank hswap)]
      simp [hswap]
    · simp [hswap]

/-- The names that descriptors follow. -/
theorem mem_movedNames_iff_movesVisibly {g : Graph} {groups : Groups} {target : Precision}
    {initializers : List Tensor} (hgroups : (groupedWeights g.nodes).result = .ok groups)
    (hinit : List.Forall₂
      (fun t t' => (t.convert (Table.get? groups t.name) target).result = .ok t')
      g.initializers initializers) {name : String} :
    name ∈ movedNames g.initializers initializers ↔ g.MovesVisibly name := by
  have hchange : ∀ {t t' : Tensor}, (t.convert (Table.get? groups t.name) target).result = .ok t' →
      (t.shape ≠ t'.shape ↔ t.MustMove g.nodes ∧ t.shape[0]? ≠ t.shape[1]?) := by
    intro t t' hconvert
    rw [Tensor.shape_ne_iff_of_convert hconvert, Tensor.swapsAxes_iff_mustMove hgroups]
  rw [mem_movedNames_iff]
  constructor
  · rintro ⟨k, t, t', ht, ht', hne, hname⟩
    obtain ⟨t'', ht'', hconvert⟩ := exists_getElem?_of_forall₂ hinit ht
    rw [ht'] at ht''
    cases ht''
    exact ⟨t, List.mem_of_getElem? ht, hname, (hchange hconvert).mp hne⟩
  · rintro ⟨t, hmem, hname, hmoves⟩
    obtain ⟨k, ht⟩ := List.mem_iff_getElem?.mp hmem
    obtain ⟨t', ht', hconvert⟩ := exists_getElem?_of_forall₂ hinit ht
    exact ⟨k, t, t', ht, ht', (hchange hconvert).mpr hmoves, hname⟩

/-! ### Descriptors -/

theorem ElementType.retarget_of_float {type : ElementType} (target : Precision)
    (h : type = .float32 ∨ type = .float16) : type.retarget target = target.elementType := by
  rcases h with rfl | rfl <;> cases target <;> rfl

theorem ElementType.retarget_of_other {type : ElementType} (target : Precision)
    (h : ¬(type = .float32 ∨ type = .float16)) : type.retarget target = type := by
  have hnone : type.precision? = none := by
    cases type <;> simp [precision?] at h ⊢
  rw [retarget, castSource?, hnone]
  rfl

namespace ValueInfo

variable {v : ValueInfo} {moved : List String}

theorem shape_converted_of_length_ne {dims : List Dimension} (hdims : v.shape = some dims)
    (hrank : dims.length ≠ 4) (target : Precision) :
    (v.converted moved target).shape = v.shape := by
  rw [converted, hdims]
  dsimp only
  rw [if_neg fun hboth => hrank hboth.2, shape_retype, hdims]

theorem follows_converted (target : Precision) {P : Prop} (hmoved : v.name ∈ moved ↔ P) :
    v.Follows P target (v.converted moved target) where
  name := name_converted ..
  floats := by
    rw [elementType_converted, elementType_retype]
    exact ElementType.retarget_of_float target
  others := by
    rw [elementType_converted, elementType_retype]
    exact ElementType.retarget_of_other target
  exchanged := by
    intro hP a b c d hshape
    exact shape_converted_of_mem (hmoved.mpr hP) target hshape rfl
  kept := by
    intro hnot
    by_cases hP : P
    · rcases hshape : v.shape with _ | dims
      · exact shape_converted_of_none hshape target
      · rw [← hshape]
        apply shape_converted_of_length_ne hshape
        intro hrank
        exact hnot ⟨hP, dims, hshape, hrank⟩
    · exact shape_converted_of_not_mem (fun hmem => hP (hmoved.mp hmem)) target

end ValueInfo

/-! ### Models -/

namespace Model

/-- **Inputs follow the initializers whose shape shows that they were moved.** -/
theorem convert_follows {m m' : Model} {target : Precision}
    (h : (m.convert target).result = .ok m') :
    List.Forall₂ (fun v v' => v.Follows (m.graph.MovesVisibly v.name) target v')
      m.graph.inputs m'.graph.inputs := by
  obtain ⟨groups, hgroups, hwith⟩ := convert_eq_ok_iff.mp h
  obtain ⟨initializers, rfl, hinit⟩ := convertWith_eq_ok_iff.mp hwith
  show List.Forall₂ _ _ (m.graph.inputs.map _)
  -- every input is converted by itself, all with the same names
  rw [List.forall₂_map_right_iff, List.forall₂_same]
  intro v _
  exact ValueInfo.follows_converted target (mem_movedNames_iff_movesVisibly hgroups hinit)

theorem convert_follows_listed :
    ∃ m', (listed.convert .half).result = .ok m' ∧
      List.Forall₂ (fun v v' => v.Follows (listed.graph.MovesVisibly v.name) .half v')
        listed.graph.inputs m'.graph.inputs ∧
      m'.graph.inputs.map ValueInfo.shape =
        [some [.param "M", .value 2, .unknown, .value 1],
          some [.param "N", .value 2, .value 1, .unknown]] ∧
      listed.graph.MovesVisibly "q" := by
  refine ⟨_, rfl, convert_follows rfl, rfl, ?_⟩
  refine ⟨_, .tail _ (.head _), rfl, ⟨2, 2, [1, 1, 1], ?_, rfl, by decide⟩, by decide⟩
  refine ⟨listed.graph.nodes.take 1, _, [], rfl, ?_, by simp⟩
  exact ⟨rfl, rfl, ⟨[], [], rfl, by simp⟩, by decide⟩

/-- A weight with equal leading dimensions, which its descriptor calls `M` and `C`. -/
def square : Model :=
  { irVersion := some 3
    operatorSets := [⟨"", 7⟩]
    producerName := some "test"
    producerVersion := none
    graph := ⟨"main", [⟨"c", "Conv", "", ["x", "w"], ["y"], [("group", .int 2)], none⟩],
      [⟨"w", .float32, some [.param "M", .param "C", .value 1, .value 1]⟩], [],
      [⟨"w", [2, 2, 1, 1], .float32,
        .floats [⟨0x3F800000⟩, ⟨0x40000000⟩, ⟨0x40400000⟩, ⟨0x40800000⟩]⟩], none⟩ }

theorem square_moves : square.graph.Moves "w" := by
  refine ⟨_, .head _, rfl, 2, 2, [2, 1, 1], ?_, rfl, by decide⟩
  exact ⟨[], _, [], rfl, ⟨rfl, rfl, ⟨[], [], rfl, by simp⟩, by decide⟩, by simp⟩

/-- The weight is moved, as its data show, and the symbols of its descriptor stay where they
    were. -/
theorem convert_square_not_follows :
    ∃ m', (square.convert .single).result = .ok m' ∧
      m'.graph.initializers = [⟨"w", [2, 2, 1, 1], .float32,
        .raw [0, 0, 128, 63, 0, 0, 64, 64, 0, 0, 0, 64, 0, 0, 128, 64]⟩] ∧
      ¬List.Forall₂ (fun v v' => v.Follows (square.graph.Moves v.name) .single v')
        square.graph.inputs m'.graph.inputs := by
  refine ⟨_, rfl, by decide, ?_⟩
  intro h
  cases h with
  | cons hfollows _ =>
    have hshape := hfollows.exchanged square_moves _ _ _ _ rfl
    exact absurd hshape (by decide)

end Model

end Mpsx
