/-
  Mpsx/Proofs/Convert/Sizes.lean
  ==============================
  **Sizes and zeros.**  A product of dimensions is taken from the front and given up as
  soon as it leaves the address range.  As long as no dimension is zero, products only
  grow, and giving up early is giving up rightly, in whatever order the dimensions stand.
  From the first zero on the product is zero, so what decides is the product of the
  dimensions in front of it.  If that one is too large, so is the shape, although it has
  no elements; the same dimensions with the zero in front are fine.
-/

import Mathlib.Algebra.BigOperators.Group.List.Basic
import Mathlib.Data.List.TakeWhile
import Mpsx.Proofs.Convert.Bounds

namespace Mpsx

/-! ### Dimensions up to a zero -/

def beforeZero (shape : List UInt64) : List UInt64 := shape.takeWhile (· ≠ 0)

theorem beforeZero_eq_self {shape : List UInt64} (h : 0 ∉ shape) : beforeZero shape = shape := by
  apply List.takeWhile_eq_self_iff.mpr
  intro d hd
  exact decide_eq_true fun hzero => h (hzero ▸ hd)

theorem volume_eq_zero {shape : List UInt64} (h : 0 ∈ shape) : volume shape = 0 := by
  apply List.prod_eq_zero
  exact List.mem_map.mpr ⟨0, h, rfl⟩

/-- The order of dimensions does not matter for how many elements there are. -/
theorem volume_perm {shape shape' : List UInt64} (h : shape.Perm shape') :
    volume shape = volume shape' :=
  (h.map UInt64.toNat).prod_eq

/-- All products from the front are in range if the largest one is.  The accumulator
    carries the product of the dimensions already taken. -/
theorem forall_volume_take_lt_iff (shape : List UInt64) {a limit : Nat} (hlimit : 0 < limit) :
    (∀ k, a * volume (shape.take k) < limit) ↔ a * volume (beforeZero shape) < limit := by
  induction shape generalizing a with
  | nil => simp [beforeZero]
  | cons d rest ih =>
    rw [← Nat.and_forall_add_one]
    simp only [List.take_zero, List.take_succ_cons, volume_nil, volume_cons, Nat.mul_one,
      ← Nat.mul_assoc, ih]
    by_cases hd : d = 0
    · -- nothing after a zero counts
      simp [hd, beforeZero, hlimit]
    · have hpos : 0 < d.toNat := by
        apply Nat.pos_of_ne_zero
        intro hzero
        exact hd (UInt64.toNat_inj.mp hzero)
      have hcons : beforeZero (d :: rest) = d :: beforeZero rest := by
        rw [beforeZero, List.takeWhile_cons_of_pos (by simpa using hd), beforeZero]
      rw [hcons, volume_cons, ← Nat.mul_assoc]
      refine and_iff_right_of_imp ?_
      intro hlt
      have hnext : a * d.toNat < limit := by simpa using ih.mpr hlt 0
      exact lt_of_le_of_lt (Nat.le_mul_of_pos_right a hpos) hnext

theorem forall_volume_take_lt_addressLimit_iff (shape : List UInt64) :
    (∀ k, volume (shape.take k) < 2 ^ 64) ↔ volume (beforeZero shape) < 2 ^ 64 := by
  have h := forall_volume_take_lt_iff shape (a := 1) (Nat.two_pow_pos 64)
  simpa only [Nat.one_mul] using h

/-- Why a size cannot be addressed: without zeros it is too large, with zeros the
    dimensions in front of them are. -/
theorem not_addressable_iff {shape : List UInt64} {width : Nat} (hwidth : 0 < width) :
    ¬Addressable shape width ↔
      if 0 ∈ shape then 2 ^ 64 ≤ volume (beforeZero shape) else 2 ^ 64 ≤ volume shape * width := by
  rw [Addressable, forall_volume_take_lt_addressLimit_iff, not_and_or, Nat.not_lt, Nat.not_lt]
  by_cases hzero : 0 ∈ shape
  · rw [if_pos hzero, volume_eq_zero hzero, Nat.zero_mul]
    simp
  · rw [if_neg hzero, beforeZero_eq_self hzero]
    apply or_iff_right_of_imp
    intro hle
    exact hle.trans (Nat.le_mul_of_pos_right _ hwidth)

/-! ### Counting elements -/

namespace Tensor

variable {t u : Tensor} {nodes : List Node} {target : Precision} {name : String}
  {shape : List UInt64}

theorem elementCount?_eq (t : Tensor) :
    t.elementCount? =
      if volume (beforeZero t.shape) < 2 ^ 64 then some (volume t.shape) else none := by
  have hleading := forall_volume_take_lt_addressLimit_iff t.shape
  split
  · next hlt => exact elementCount?_eq_some_iff.mpr ⟨hleading.mpr hlt, rfl⟩
  · next hge =>
    apply Option.eq_none_iff_forall_ne_some.mpr
    intro n hn
    exact hge (hleading.mp (elementCount?_eq_some_iff.mp hn).1)

/-- Where the count is the true one: a zero must not come too late. -/
theorem elementCount?_eq_volume_iff (t : Tensor) :
    t.elementCount? = (if volume t.shape < 2 ^ 64 then some (volume t.shape) else none) ↔
      (0 ∈ t.shape → volume (beforeZero t.shape) < 2 ^ 64) := by
  rw [elementCount?_eq]
  by_cases hzero : 0 ∈ t.shape
  · simp [hzero, volume_eq_zero hzero]
  · simp [hzero, beforeZero_eq_self hzero]

theorem elementCount?_perm (hzero : 0 ∉ t.shape) (h : t.shape.Perm u.shape) :
    t.elementCount? = u.elementCount? := by
  have hzero' : 0 ∉ u.shape := fun hmem => hzero (h.mem_iff.mpr hmem)
  rw [elementCount?_eq, elementCount?_eq, beforeZero_eq_self hzero, beforeZero_eq_self hzero',
    volume_perm h]

/-! ### What is reported -/

/-- An initializer that has to be moved or cast and whose size is given up. -/
structure Oversized (t : Tensor) (nodes : List Node) (target : Precision) : Prop where
  asked : t.MustMove nodes ∨ t.IsCast target
  axes : t.MustMove nodes → t.shape.length = 4
  size : ∃ width, t.elementType.width? = some width ∧
    if 0 ∈ t.shape then 2 ^ 64 ≤ volume (beforeZero t.shape) else 2 ^ 64 ≤ volume t.shape * width

theorem refused_tooLarge_iff :
    (∃ kind, t.Refused nodes target kind (.tooLarge name shape)) ↔
      t.Oversized nodes target ∧ ConvertError.tooLarge name shape = .tooLarge t.name t.shape := by
  constructor
  · rintro ⟨kind, hasked, hfault⟩
    generalize he : ConvertError.tooLarge name shape = e at hfault
    cases hfault with
    | size haxes hwidth hsize =>
      have hpos := ElementType.width?_pos hwidth
      exact ⟨⟨hasked, haxes, _, hwidth, (not_addressable_iff hpos).mp hsize⟩, rfl⟩
    | _ => cases he
  · rintro ⟨⟨hasked, haxes, width, hwidth, hsize⟩, he⟩
    have hpos := ElementType.width?_pos hwidth
    rw [he]
    exact ⟨_, hasked, .size haxes hwidth ((not_addressable_iff hpos).mpr hsize)⟩

end Tensor

/-- A conversion ends with a size that is given up if its first fault is one. -/
theorem Model.convert_eq_tooLarge_iff {m : Model} {target : Precision} {name : String}
    {shape : List UInt64} :
    (m.convert target).result = .error (.refused (.tooLarge name shape)) ↔
      (∀ n ∈ m.graph.nodes, n.Sound) ∧
        FirstFault (fun t => t.Passes m.graph.nodes target)
          (fun t e => t.Oversized m.graph.nodes target ∧
            e = ConvertError.tooLarge t.name t.shape)
          m.graph.initializers (.tooLarge name shape) := by
  rw [convert_eq_refused_iff]
  have hnode : ¬FirstFault Node.Sound Node.Fault m.graph.nodes (.tooLarge name shape) := by
    rintro ⟨_, n, _, -, -, hfault⟩
    cases hfault
  rw [or_iff_right hnode]
  exact and_congr_right fun _ =>
    FirstFault.congr (fun _ => Iff.rfl) (fun _ => Tensor.refused_tooLarge_iff) _

/-- **What counting elements gets right.**  A count is the true number of elements, and is
    missing exactly if the dimensions in front of the first zero are too large.  So it is
    exact unless a zero comes too late, and exact in every order for a shape without
    zeros; and a conversion that reports a shape without zeros as too large has a size in
    bytes that is. -/
theorem elementCount_exact (t : Tensor) (m : Model) (target : Precision) :
    t.elementCount? =
      (if volume (beforeZero t.shape) < 2 ^ 64 then some (volume t.shape) else none) ∧
    (t.elementCount? = (if volume t.shape < 2 ^ 64 then some (volume t.shape) else none) ↔
      (0 ∈ t.shape → volume (beforeZero t.shape) < 2 ^ 64)) ∧
    (∀ u : Tensor, 0 ∉ t.shape → t.shape.Perm u.shape → t.elementCount? = u.elementCount?) ∧
    ∀ name shape, (m.convert target).result = .error (.refused (.tooLarge name shape)) ↔
      (∀ n ∈ m.graph.nodes, n.Sound) ∧
        FirstFault (fun t => t.Passes m.graph.nodes target)
          (fun t e => t.Oversized m.graph.nodes target ∧
            e = ConvertError.tooLarge t.name t.shape)
          m.graph.initializers (.tooLarge name shape) := by
  refine ⟨t.elementCount?_eq, t.elementCount?_eq_volume_iff, ?_, ?_⟩
  · intro u hzero hperm
    exact Tensor.elementCount?_perm hzero hperm
  · intro name shape
    exact Model.convert_eq_tooLarge_iff

def Tensor.vast : Tensor := ⟨"w", [0x8000000000000000, 2, 3], .float32, .raw []⟩

theorem elementCount_exact_vast :
    Tensor.vast.elementCount? = none ∧
      Tensor.vast.elementCount? =
        (⟨"w", [3, 2, 0x8000000000000000], .float32, .raw []⟩ : Tensor).elementCount? ∧
      Tensor.vast.Oversized (Model.ofWeight Tensor.vast).graph.nodes .half := by
  obtain ⟨hcount, -, hperm, hreport⟩ :=
    elementCount_exact Tensor.vast (Model.ofWeight Tensor.vast) .half
  refine ⟨?_, hperm _ (by decide) (by decide), ?_⟩
  · rw [hcount]
    decide
  · obtain ⟨-, before, t, after, hsplit, -, hoversized, -⟩ := (hreport "w" _).mp rfl
    obtain ⟨rfl, hlast⟩ | ⟨_, -, hlast⟩ := List.cons_eq_append_iff.mp hsplit
    · cases hlast
      exact hoversized
    · simp at hlast

def Tensor.lateZero : Tensor := ⟨"w", [0x8000000000000000, 2, 0], .float32, .raw []⟩

/-- There are no elements, and with the zero in front this is found out.  As it stands, the
    count is missing and a conversion reports the shape as too large. -/
theorem lateZero_not_exact :
    volume Tensor.lateZero.shape = 0 ∧
      Tensor.lateZero.elementCount? ≠
        (if volume Tensor.lateZero.shape < 2 ^ 64 then some (volume Tensor.lateZero.shape)
          else none) ∧
      Tensor.lateZero.elementCount? = none ∧
      sizeOfShape? [0, 0x8000000000000000, 2] = some 0 ∧
      ((Model.ofWeight Tensor.lateZero).convert .half).result =
        .error (.refused (.tooLarge "w" Tensor.lateZero.shape)) := by
  refine ⟨by decide, by decide, by decide, by decide, rfl⟩

end Mpsx
