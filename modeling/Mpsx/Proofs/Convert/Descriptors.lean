/-
  Mpsx/Proofs/Convert/Descriptors.lean
  ====================================
  **Descriptors follow the initializers they describe.**  A model may list an
  initializer as an input too, and then a descriptor repeats its type and shape.  The
  two are converted in different places and for different reasons: an initializer is
  moved because of its group count, a descriptor because an initializer of its name has
  come out with another shape.  Types are changed on both sides without looking at the
  other.

  A descriptor that describes its initializer before conversion does so afterwards.  The
  case that needs an argument is a weight with two equal leading dimensions: it is moved
  and its descriptor is not, and as its shape is the same as before, nothing is lost.
-/

import Mathlib.Data.List.Forall2
import Mpsx.Proofs.Convert.Meaning

namespace Mpsx

/-! ### Describing -/

/-- A dimension of a descriptor that is the given size, or says nothing about it. -/
def Dimension.Admits : Dimension → UInt64 → Prop
  | .value n, d => n.toInt = d.toNat
  | .param _, _ => True
  | .unknown, _ => True

/-- The descriptor has the type of the tensor and, if it has a shape, as many dimensions,
    each of which admits that of the tensor. -/
structure ValueInfo.Describes (v : ValueInfo) (t : Tensor) : Prop where
  type : v.elementType = t.elementType
  shape : ∀ dims, v.shape = some dims → List.Forall₂ Dimension.Admits dims t.shape

theorem forall₂_swapFirstTwo {α β : Type} {R : α → β → Prop} {xs : List α} {ys : List β}
    (h : List.Forall₂ R xs ys) : List.Forall₂ R (swapFirstTwo xs) (swapFirstTwo ys) := by
  cases h with
  | nil => exact .nil
  | cons hx hrest =>
    cases hrest with
    | nil => exact .cons hx .nil
    | cons hy hrest => exact .cons hy (.cons hx hrest)

theorem exists_getElem?_of_forall₂ {α β : Type} {R : α → β → Prop} {xs : List α} {ys : List β}
    (h : List.Forall₂ R xs ys) {k : Nat} {x : α} (hx : xs[k]? = some x) :
    ∃ y, ys[k]? = some y ∧ R x y := by
  induction h generalizing k with
  | nil => cases hx
  | @cons x' y' xs ys hxy _ ih =>
    cases k with
    | zero =>
      cases hx
      exact ⟨y', rfl, hxy⟩
    | succ k => exact ih hx

/-! ### Types -/

def ElementType.retarget (type : ElementType) (target : Precision) : ElementType :=
  if castSource? type target = none then type else target.elementType

theorem Tensor.elementType_of_convert {t t' : Tensor} {group : Option Int64} {target : Precision}
    (h : (t.convert group target).result = .ok t') :
    t'.elementType = t.elementType.retarget target := by
  rcases convert_eq_ok_iff.mp h with ⟨-, hkept, rfl⟩ | ⟨-, -, width, bytes, data, -, -, -, rfl⟩
  · exact (if_pos hkept).symm
  · exact elementType_rebuild ..

theorem ValueInfo.elementType_retype (v : ValueInfo) (target : Precision) :
    (v.retype target).elementType = v.elementType.retarget target := by
  unfold retype ElementType.retarget
  cases castSource? v.elementType target with
  | none => rfl
  | some p => rfl

/-! ### Shapes -/

/-- An initializer keeps its shape, or has four dimensions and the first two are
    exchanged. -/
theorem Tensor.shape_of_convert {t t' : Tensor} {group : Option Int64} {target : Precision}
    (h : (t.convert group target).result = .ok t') :
    t'.shape = t.shape ∨ t.shape.length = 4 ∧ t'.shape = swapFirstTwo t.shape := by
  rcases convert_eq_ok_iff.mp h with ⟨-, -, rfl⟩ | ⟨-, hrank, width, bytes, data, -, -, -, rfl⟩
  · exact .inl rfl
  · rw [shape_rebuild]
    by_cases hswap : swapsAxes group t.shape = true
    · rw [if_pos hswap]
      exact .inr ⟨hrank hswap, rfl⟩
    · rw [if_neg hswap]
      exact .inl rfl

theorem mem_movedNames_iff {before after : List Tensor} {name : String} :
    name ∈ movedNames before after ↔ ∃ (k : Nat) (t t' : Tensor),
      before[k]? = some t ∧ after[k]? = some t' ∧ t.shape ≠ t'.shape ∧ t.name = name := by
  unfold movedNames
  rw [List.mem_eraseDups]
  simp only [List.mem_map, List.mem_filter, decide_eq_true_eq, Prod.exists]
  constructor
  · rintro ⟨t, t', ⟨hmem, hne⟩, rfl⟩
    obtain ⟨k, hk⟩ := List.mem_iff_getElem?.mp hmem
    obtain ⟨ht, ht'⟩ := List.getElem?_zip_eq_some.mp hk
    exact ⟨k, t, t', ht, ht', hne, rfl⟩
  · rintro ⟨k, t, t', ht, ht', hne, rfl⟩
    have hpair : (before.zip after)[k]? = some (t, t') :=
      List.getElem?_zip_eq_some.mpr ⟨ht, ht'⟩
    exact ⟨t, t', ⟨List.mem_iff_getElem?.mpr ⟨k, hpair⟩, hne⟩, rfl⟩

/-! ### Descriptors of moved and of unmoved names -/

namespace ValueInfo

variable {v : ValueInfo} {moved : List String}

theorem shape_converted_of_mem (h : v.name ∈ moved) (target : Precision) {dims : List Dimension}
    (hdims : v.shape = some dims) (hrank : dims.length = 4) :
    (v.converted moved target).shape = some (swapFirstTwo dims) := by
  rw [converted, hdims]
  dsimp only
  rw [if_pos ⟨h, hrank⟩]

theorem shape_converted_of_not_mem (h : v.name ∉ moved) (target : Precision) :
    (v.converted moved target).shape = v.shape := by
  unfold converted
  split
  · rw [if_neg fun hboth => h hboth.1, shape_retype]
  · exact shape_retype ..

theorem shape_converted_of_none (h : v.shape = none) (target : Precision) :
    (v.converted moved target).shape = none := by
  rw [converted, h]
  dsimp only
  rw [shape_retype, h]

/-- One descriptor and one initializer.  What the descriptor goes by is whether the shape
    of the initializer has changed. -/
theorem describes_converted {t t' : Tensor} {group : Option Int64} {target : Precision}
    (h : (t.convert group target).result = .ok t') (hmoved : v.name ∈ moved ↔ t.shape ≠ t'.shape)
    (hv : v.Describes t) : (v.converted moved target).Describes t' := by
  constructor
  · rw [elementType_converted, elementType_retype, Tensor.elementType_of_convert h, hv.type]
  · intro dims' hdims'
    by_cases hsame : t.shape = t'.shape
    · have hkept := shape_converted_of_not_mem (fun hmem => hmoved.mp hmem hsame) target
      rw [hkept] at hdims'
      rw [← hsame]
      exact hv.shape dims' hdims'
    · rcases Tensor.shape_of_convert h with hkept | ⟨hrank, hswapped⟩
      · exact absurd hkept.symm hsame
      · cases hdims : v.shape with
        | none =>
          rw [shape_converted_of_none hdims] at hdims'
          cases hdims'
        | some dims =>
          have hall := hv.shape dims hdims
          have hfour : dims.length = 4 := hall.length_eq.trans hrank
          rw [shape_converted_of_mem (hmoved.mpr hsame) target hdims hfour] at hdims'
          cases hdims'
          rw [hswapped]
          exact forall₂_swapFirstTwo hall

end ValueInfo

/-! ### Models -/

namespace Model

variable {m m' : Model} {target : Precision}

/-- Where no other initializer has the name, the name is moved if the shape is. -/
theorem name_mem_movedNames_iff {before after : List Tensor} {k : Nat} {t t' : Tensor}
    (ht : before[k]? = some t) (ht' : after[k]? = some t')
    (hunique : ∀ (j : Nat) (other : Tensor),
      before[j]? = some other → other.name = t.name → j = k) :
    t.name ∈ movedNames before after ↔ t.shape ≠ t'.shape := by
  rw [mem_movedNames_iff]
  constructor
  · rintro ⟨j, s, s', hs, hs', hne, hname⟩
    obtain rfl := hunique j s hs hname
    rw [ht] at hs
    rw [ht'] at hs'
    cases hs
    cases hs'
    exact hne
  · intro hne
    exact ⟨k, t, t', ht, ht', hne, rfl⟩

/-- **Descriptors stay consistent with initializers.**  An input that describes the only
    initializer of its name still describes it after conversion. -/
theorem convert_describes (h : (m.convert target).result = .ok m') {p k : Nat} {v : ValueInfo}
    {t : Tensor} (hv : m.graph.inputs[p]? = some v) (ht : m.graph.initializers[k]? = some t)
    (hname : v.name = t.name)
    (hunique : ∀ (j : Nat) (other : Tensor), m.graph.initializers[j]? = some other →
      other.name = t.name → j = k)
    (hdescribes : v.Describes t) :
    ∃ v' t', m'.graph.inputs[p]? = some v' ∧ m'.graph.initializers[k]? = some t' ∧
      v'.name = t'.name ∧ v'.Describes t' := by
  obtain ⟨groups, -, hwith⟩ := convert_eq_ok_iff.mp h
  obtain ⟨initializers, rfl, hinit⟩ := convertWith_eq_ok_iff.mp hwith
  obtain ⟨t', ht', hconvert⟩ := exists_getElem?_of_forall₂ hinit ht
  refine ⟨v.converted (movedNames m.graph.initializers initializers) target, t', ?_, ht', ?_, ?_⟩
  · show (m.graph.inputs.map _)[p]? = some _
    rw [List.getElem?_map, hv]
    rfl
  · rw [ValueInfo.name_converted, hname, (Tensor.convert_becomes hconvert).name]
  · apply ValueInfo.describes_converted hconvert _ hdescribes
    rw [hname]
    exact name_mem_movedNames_iff ht ht' hunique

/-- Two grouped weights that are inputs too: one with equal leading dimensions, and one
    whose dimensions are partly given by symbols. -/
def listed : Model :=
  { irVersion := some 3
    operatorSets := [⟨"", 7⟩]
    producerName := some "test"
    producerVersion := none
    graph := ⟨"main",
      [⟨"", "Conv", "", ["x", "w"], ["y"], [("group", .int 2)], none⟩,
        ⟨"", "Conv", "", ["y", "q"], ["z"], [("group", .int 2)], none⟩],
      [⟨"w", .float32, some [.param "M", .value 2, .unknown, .value 1]⟩,
        ⟨"q", .float32, some [.value 2, .param "N", .value 1, .unknown]⟩], [],
      [⟨"w", [2, 2, 1, 1], .float32, .raw (List.replicate 16 0)⟩,
        ⟨"q", [2, 1, 1, 1], .float32, .floats [⟨0x3F800000⟩, ⟨0x40000000⟩]⟩], none⟩ }

theorem convert_describes_listed :
    ∃ m', (listed.convert .half).result = .ok m' ∧
      m'.graph.inputs = [⟨"w", .float16, some [.param "M", .value 2, .unknown, .value 1]⟩,
        ⟨"q", .float16, some [.param "N", .value 2, .value 1, .unknown]⟩] ∧
      ∃ v' t', m'.graph.inputs[1]? = some v' ∧ m'.graph.initializers[1]? = some t' ∧
        v'.name = t'.name ∧ v'.Describes t' := by
  have hv : listed.graph.inputs[1]? =
      some ⟨"q", .float32, some [.value 2, .param "N", .value 1, .unknown]⟩ := rfl
  have ht : listed.graph.initializers[1]? =
      some ⟨"q", [2, 1, 1, 1], .float32, .floats [⟨0x3F800000⟩, ⟨0x40000000⟩]⟩ := rfl
  have hunique : ∀ (j : Nat) (other : Tensor), listed.graph.initializers[j]? = some other →
      other.name = "q" → j = 1 := by
    intro j other hother hname
    rcases j with _ | _ | j
    · cases hother
      exact absurd hname (by decide)
    · rfl
    · cases hother
  have hconvert : ∃ m', (listed.convert .half).result = .ok m' ∧
      m'.graph.inputs = [⟨"w", .float16, some [.param "M", .value 2, .unknown, .value 1]⟩,
        ⟨"q", .float16, some [.param "N", .value 2, .value 1, .unknown]⟩] := ⟨_, rfl, rfl⟩
  obtain ⟨m', hm', hinputs⟩ := hconvert
  refine ⟨m', hm', hinputs, convert_describes hm' hv ht rfl hunique ?_⟩
  constructor
  · rfl
  · rintro dims ⟨⟩
    exact .cons rfl (.cons trivial (.cons rfl (.cons trivial .nil)))

end Model

end Mpsx
