/-
  Mpsx/Proofs/Convert/Refused.lean
  ================================
  **Which models convert, and what is wrong with the others.**  A model converts if
  its convolutions are sound, every initializer that has to be moved or cast holds
  exactly the data its shape asks for, and no weight that has to be moved overflows.
  Of several faults the first convolution wins, then the first initializer, and for
  one initializer the checks have a fixed order: axes, element width, size, raw form,
  length.  An overflow comes after all checks on its initializer and before those on
  the next.

  Conditions and faults are stated on the model itself.  What has to be moved is said
  by the last grouped convolution that uses a weight, not by the table of the scan, and
  what data an initializer holds by its numbers, not by the bytes it gives out.

  The last condition has no check of its own.  A weight without columns holds no data,
  so no check sees how large its blocks are; `Model.hollow` is such a weight.
-/

import Mathlib.Algebra.Group.Nat.Defs
import Mpsx.Proofs.Convert.Grouped
import Mpsx.Proofs.Convert.Meaning

namespace Mpsx

/-! ### Blocks that can be addressed -/

theorem addressable_pair_iff {d2 d3 : UInt64} {width : Nat} (hwidth : 0 < width) :
    Addressable [d2, d3] width ↔ d2.toNat * d3.toNat * width < 2 ^ 64 := by
  constructor
  · intro h
    simpa using h.2
  · intro h
    have harea : d2.toNat * d3.toNat < 2 ^ 64 :=
      Nat.lt_of_le_of_lt (Nat.le_mul_of_pos_right _ hwidth) h
    refine ⟨?_, by simpa using h⟩
    intro k
    match k with
    | 0 => simp
    | 1 => simpa using d2.toNat_lt
    | k + 2 => simpa using harea

/-- Where the whole buffer can be addressed, only the size of a block is left to ask for. -/
theorem swapFits_iff {d0 d1 : UInt64} {rest : List UInt64} {width : Nat}
    (h : Addressable (d0 :: d1 :: rest) width) :
    SwapFits d0 d1 rest width ↔ Addressable rest width := by
  constructor
  · intro hfits
    exact hfits.block
  · intro hblock
    refine ⟨hblock, by simpa using h.1 2, ?_⟩
    rw [← volume_cons_cons]
    exact h.2

theorem swapLeadingAxes?_eq_none_iff {bytes : Bytes} {d0 d1 : UInt64} {rest : List UInt64}
    {width : Nat} (hlen : bytes.length = d0.toNat * d1.toNat * (volume rest * width)) :
    swapLeadingAxes? bytes (d0 :: d1 :: rest) width = none ↔ ¬SwapFits d0 d1 rest width := by
  rw [Option.eq_none_iff_forall_ne_some]
  simp only [Ne, swapLeadingAxes?_eq_some_iff, hlen, true_and]
  constructor
  · intro h hfits
    exact h _ ⟨hfits, rfl⟩
  · rintro h _ ⟨hfits, -⟩
    exact h hfits

/-! ### One initializer -/

namespace Tensor

/-- An initializer whose data can be moved, if `moved` says so, and cast. -/
structure Complete (t : Tensor) (moved : Prop) : Prop where
  axes : moved → t.shape.length = 4
  data : ∃ width size digits, t.elementType.width? = some width ∧ Addressable t.shape width ∧
    t.digits? = some (size, digits) ∧ digits.length * size = volume t.shape * width

/-- The first thing that is wrong with an initializer that has to be moved, if `moved`
    says so, or cast; with the kind of error it is. -/
inductive Fault (t : Tensor) (moved : Prop) : ConvertError.Kind → ConvertError → Prop where
  | axes (hmoved : moved) (hshape : t.shape.length ≠ 4) :
    t.Fault moved .unsupportedShape (.notFourAxes t.name t.shape)
  | width (haxes : moved → t.shape.length = 4) (hwidth : t.elementType.width? = none) :
    t.Fault moved .unsupportedType (.noWidth t.name t.elementType)
  | size {width : Nat} (haxes : moved → t.shape.length = 4)
    (hwidth : t.elementType.width? = some width) (hsize : ¬Addressable t.shape width) :
    t.Fault moved .invalidGraph (.tooLarge t.name t.shape)
  | form {width : Nat} (haxes : moved → t.shape.length = 4)
    (hwidth : t.elementType.width? = some width) (hsize : Addressable t.shape width)
    (hform : t.digits? = none) : t.Fault moved .unsupportedType (.noRawForm t.name t.elementType)
  | length {width size : Nat} {digits : List Nat} (haxes : moved → t.shape.length = 4)
    (hwidth : t.elementType.width? = some width) (hsize : Addressable t.shape width)
    (hform : t.digits? = some (size, digits))
    (hlength : digits.length * size ≠ volume t.shape * width) :
    t.Fault moved .invalidGraph
      (.wrongSize t.name (digits.length * size) t.shape t.elementType (volume t.shape * width))

/-- The initializer has to be moved, and its blocks are larger than offsets can be. -/
def Overflows (t : Tensor) (moved : Prop) : Prop :=
  moved ∧ ∃ (d0 d1 d2 d3 : UInt64) (width : Nat), t.shape = [d0, d1, d2, d3] ∧
    t.elementType.width? = some width ∧ 2 ^ 64 ≤ d2.toNat * d3.toNat * width

inductive Stops (t : Tensor) (moved : Prop) : Stop ConvertError → Prop where
  | refused {kind : ConvertError.Kind} {e : ConvertError} (h : t.Fault moved kind e) :
    t.Stops moved (.refused e)
  | overflow (hcomplete : t.Complete moved) (h : t.Overflows moved) : t.Stops moved .overflow

variable {t : Tensor} {moved : Prop} {kind : ConvertError.Kind} {e : ConvertError}
  {stop : Stop ConvertError}

theorem Fault.kind_eq (h : t.Fault moved kind e) : e.kind = kind := by
  cases h <;> rfl

theorem Fault.not_complete (h : t.Fault moved kind e) : ¬t.Complete moved := by
  rintro ⟨haxes, width, size, digits, hwidth, hsize, hform, hlength⟩
  cases h with
  | axes hmoved hshape => exact hshape (haxes hmoved)
  | width _ hnone => simp [hnone] at hwidth
  | size _ hwidth' hsize' =>
    cases hwidth.symm.trans hwidth'
    exact hsize' hsize
  | form _ _ _ hnone => simp [hnone] at hform
  | length _ hwidth' _ hform' hlength' =>
    cases hwidth.symm.trans hwidth'
    cases hform.symm.trans hform'
    exact hlength' hlength

/-- Only one thing is the first. -/
theorem Fault.unique {kind' : ConvertError.Kind} {e' : ConvertError} (h : t.Fault moved kind e)
    (h' : t.Fault moved kind' e') : e = e' := by
  cases h <;> cases h' <;> grind

theorem Stops.unique {stop' : Stop ConvertError} (h : t.Stops moved stop)
    (h' : t.Stops moved stop') : stop = stop' := by
  cases h with
  | refused hfault =>
    cases h' with
    | refused hfault' => rw [hfault.unique hfault']
    | overflow hcomplete => exact absurd hcomplete hfault.not_complete
  | overflow hcomplete =>
    cases h' with
    | refused hfault' => exact absurd hcomplete hfault'.not_complete
    | overflow => rfl

theorem Stops.not_passes (h : t.Stops moved stop) : ¬(t.Complete moved ∧ ¬t.Overflows moved) := by
  rintro ⟨hcomplete, hfits⟩
  cases h with
  | refused hfault => exact hfault.not_complete hcomplete
  | overflow _ hoverflows => exact hfits hoverflows

/-- Bytes that have passed the checks cannot be put in their places if and only if a block
    of them is too large. -/
theorem place?_eq_none_iff {swap : Bool} {width : Nat} {bytes : Bytes}
    (hrank : swap = true → t.shape.length = 4) (hwidth : t.elementType.width? = some width)
    (hbytes : t.exactBytes width = .ok bytes) :
    t.place? swap width bytes = none ↔ t.Overflows (swap = true) := by
  cases swap with
  | false => simp [place?, Overflows]
  | true =>
    obtain ⟨d0, d1, d2, d3, hshape⟩ := List.length_eq_four.mp (hrank rfl)
    obtain ⟨-, hsize, hlen⟩ := exactBytes_eq_ok_iff.mp hbytes
    rw [hshape] at hsize hlen
    rw [volume_cons_cons] at hlen
    have hpos := ElementType.width?_pos hwidth
    rw [place?, if_pos rfl, hshape, swapLeadingAxes?_eq_none_iff hlen, swapFits_iff hsize,
      addressable_pair_iff hpos, Nat.not_lt]
    constructor
    · intro h
      exact ⟨rfl, d0, d1, d2, d3, width, hshape, hwidth, h⟩
    · rintro ⟨-, d0', d1', d2', d3', width', hshape', hwidth', h⟩
      cases hshape.symm.trans hshape'
      cases hwidth.symm.trans hwidth'
      exact h

/-- The checks on the data of an initializer pass, or give its fault. -/
theorem exactBytes_cases {width : Nat} (haxes : moved → t.shape.length = 4)
    (hwidth : t.elementType.width? = some width) :
    (∃ bytes, t.exactBytes width = .ok bytes ∧ t.Complete moved) ∨
      ∃ kind e, t.exactBytes width = .error e ∧ t.Fault moved kind e := by
  unfold exactBytes
  cases hcount : t.elementCount?.bind (product? · width) with
  | none =>
    have hsize : ¬Addressable t.shape width := by
      intro hsize
      rw [size?_eq_some_iff.mpr ⟨hsize, rfl⟩] at hcount
      cases hcount
    exact .inr ⟨_, _, rfl, .size haxes hwidth hsize⟩
  | some expected =>
    obtain ⟨hsize, rfl⟩ := size?_eq_some_iff.mp hcount
    rw [rawBytes?_eq_map_digits?]
    rcases hform : t.digits? with _ | ⟨size, digits⟩
    · exact .inr ⟨_, _, rfl, .form haxes hwidth hsize hform⟩
    · simp only [Option.map_some, Bytes.length_flatMap_littleEndian]
      by_cases hlength : digits.length * size = volume t.shape * width
      · rw [if_pos hlength]
        exact .inl ⟨_, rfl, haxes, width, size, digits, hwidth, hsize, hform, hlength⟩
      · rw [if_neg hlength]
        exact .inr ⟨_, _, rfl, .length haxes hwidth hsize hform hlength⟩

theorem Complete.exactBytes (h : t.Complete moved) :
    ∃ width bytes, t.elementType.width? = some width ∧ t.exactBytes width = .ok bytes := by
  obtain ⟨width, _, _, hwidth, -⟩ := h.data
  rcases exactBytes_cases h.axes hwidth with ⟨bytes, hbytes, -⟩ | ⟨kind, e, -, hfault⟩
  · exact ⟨width, bytes, hwidth, hbytes⟩
  · exact absurd h hfault.not_complete

/-- An initializer that has to be moved or cast passes all checks, or stops the conversion. -/
theorem convert_cases {group : Option Int64} {target : Precision}
    (hany : swapsAxes group t.shape = true ∨ castSource? t.elementType target ≠ none) :
    ((t.Complete (swapsAxes group t.shape = true) ∧
        ¬t.Overflows (swapsAxes group t.shape = true)) ∧
        ∃ t', (t.convert group target).result = .ok t') ∨
      ∃ stop, (t.convert group target).result = .error stop ∧
        t.Stops (swapsAxes group t.shape = true) stop := by
  rw [result_convert]
  dsimp only
  have hneither : ¬((!swapsAxes group t.shape && (castSource? t.elementType target).isNone) =
      true) := by
    rcases hany with hswap | hcast
    · simp [hswap]
    · simp [hcast]
  rw [if_neg hneither]
  by_cases hrank : (swapsAxes group t.shape && decide (t.shape.length ≠ 4)) = true
  · rw [if_pos hrank]
    simp only [Bool.and_eq_true, decide_eq_true_eq] at hrank
    exact .inr ⟨_, rfl, .refused (.axes hrank.1 hrank.2)⟩
  · rw [if_neg hrank]
    have haxes : swapsAxes group t.shape = true → t.shape.length = 4 := by
      intro hswap
      simpa [hswap] using hrank
    cases hwidth : t.elementType.width? with
    | none => exact .inr ⟨_, rfl, .refused (.width haxes hwidth)⟩
    | some width =>
      dsimp only
      rcases exactBytes_cases haxes hwidth with ⟨bytes, hbytes, hcomplete⟩ | ⟨kind, e, he, hfault⟩
      · have hplace := place?_eq_none_iff haxes hwidth hbytes
        rw [hbytes]
        dsimp only
        cases hdata : t.place? (swapsAxes group t.shape) width bytes with
        | none => exact .inr ⟨_, rfl, .overflow hcomplete (hplace.mp hdata)⟩
        | some data =>
          refine .inl ⟨⟨hcomplete, ?_⟩, _, rfl⟩
          rw [← hplace, hdata]
          simp
      · rw [he]
        exact .inr ⟨_, rfl, .refused hfault⟩

theorem exists_convert_iff {group : Option Int64} {target : Precision} :
    (∃ t', (t.convert group target).result = .ok t') ↔
      (swapsAxes group t.shape = true ∨ castSource? t.elementType target ≠ none →
        t.Complete (swapsAxes group t.shape = true) ∧
          ¬t.Overflows (swapsAxes group t.shape = true)) := by
  constructor
  · rintro ⟨t', ht'⟩ hany
    rcases convert_cases hany with ⟨hpasses, -⟩ | ⟨stop, herror, -⟩
    · exact hpasses
    · rw [herror] at ht'
      cases ht'
  · intro hpasses
    by_cases hany : swapsAxes group t.shape = true ∨ castSource? t.elementType target ≠ none
    · rcases convert_cases hany with ⟨-, hok⟩ | ⟨stop, -, hstops⟩
      · exact hok
      · exact absurd (hpasses hany) hstops.not_passes
    · simp only [not_or, Bool.not_eq_true, not_not] at hany
      exact ⟨t, by simp [result_convert, hany]⟩

theorem convert_eq_error_iff {group : Option Int64} {target : Precision} :
    (t.convert group target).result = .error stop ↔
      (swapsAxes group t.shape = true ∨ castSource? t.elementType target ≠ none) ∧
        t.Stops (swapsAxes group t.shape = true) stop := by
  by_cases hany : swapsAxes group t.shape = true ∨ castSource? t.elementType target ≠ none
  · rcases convert_cases hany with ⟨hpasses, t', hok⟩ | ⟨stop', herror, hstops⟩
    · constructor
      · intro h
        rw [hok] at h
        cases h
      · rintro ⟨-, hstops⟩
        exact absurd hpasses hstops.not_passes
    · constructor
      · intro h
        rw [herror] at h
        cases h
        exact ⟨hany, hstops⟩
      · rintro ⟨-, hstops'⟩
        rw [herror, hstops.unique hstops']
  · constructor
    · intro h
      obtain ⟨t', hok⟩ := exists_convert_iff.mpr fun h => absurd h hany
      rw [hok] at h
      cases h
    · rintro ⟨h, -⟩
      exact absurd h hany

/-! ### Initializers of a model -/

def MustMove (t : Tensor) (nodes : List Node) : Prop :=
  ∃ g d rest, LastUse nodes t.name g ∧ t.shape = d :: rest ∧ (d.toNat : Int) = g.toInt

def Sound (t : Tensor) (nodes : List Node) (target : Precision) : Prop :=
  t.MustMove nodes ∨ t.IsCast target → t.Complete (t.MustMove nodes)

def Passes (t : Tensor) (nodes : List Node) (target : Precision) : Prop :=
  t.Sound nodes target ∧ ¬t.Overflows (t.MustMove nodes)

def Refused (t : Tensor) (nodes : List Node) (target : Precision) (kind : ConvertError.Kind)
    (e : ConvertError) : Prop :=
  (t.MustMove nodes ∨ t.IsCast target) ∧ t.Fault (t.MustMove nodes) kind e

def Halts (t : Tensor) (nodes : List Node) (target : Precision) : Stop ConvertError → Prop
  | .refused e => ∃ kind, t.Refused nodes target kind e
  | .overflow => t.Sound nodes target ∧ t.Overflows (t.MustMove nodes)

section Groups

variable {nodes : List Node} {groups : Groups} {target : Precision}

/-- What the scan has found out is what the convolutions say. -/
theorem swapsAxes_iff_mustMove (h : (groupedWeights nodes).result = .ok groups) (t : Tensor) :
    swapsAxes (Table.get? groups t.name) t.shape = true ↔ t.MustMove nodes := by
  rw [swapsAxes_eq_true_iff]
  simp only [IsMoved, MustMove, get?_groupedWeights h]

theorem exists_convert_iff_passes (h : (groupedWeights nodes).result = .ok groups) (t : Tensor) :
    (∃ t', (t.convert (Table.get? groups t.name) target).result = .ok t') ↔
      t.Passes nodes target := by
  simp only [exists_convert_iff, swapsAxes_iff_mustMove h, castSource?_ne_none_iff, Passes, Sound]
  constructor
  · intro hpasses
    exact ⟨fun hany => (hpasses hany).1, fun hover => (hpasses (.inl hover.1)).2 hover⟩
  · rintro ⟨hcomplete, hfits⟩ hany
    exact ⟨hcomplete hany, hfits⟩

theorem convert_eq_refused_iff (h : (groupedWeights nodes).result = .ok groups) (t : Tensor) :
    (t.convert (Table.get? groups t.name) target).result = .error (.refused e) ↔
      ∃ kind, t.Refused nodes target kind e := by
  simp only [convert_eq_error_iff, swapsAxes_iff_mustMove h, castSource?_ne_none_iff, Refused,
    exists_and_left]
  refine and_congr_right fun _ => ⟨?_, ?_⟩
  · rintro (⟨hfault⟩ | _)
    exact ⟨_, hfault⟩
  · rintro ⟨kind, hfault⟩
    exact .refused hfault

theorem convert_eq_overflow_iff (h : (groupedWeights nodes).result = .ok groups) (t : Tensor) :
    (t.convert (Table.get? groups t.name) target).result = .error .overflow ↔
      t.Sound nodes target ∧ t.Overflows (t.MustMove nodes) := by
  simp only [convert_eq_error_iff, swapsAxes_iff_mustMove h, castSource?_ne_none_iff, Sound]
  constructor
  · rintro ⟨hany, hstops⟩
    cases hstops with
    | overflow hcomplete hover => exact ⟨fun _ => hcomplete, hover⟩
  · rintro ⟨hcomplete, hover⟩
    exact ⟨.inl hover.1, .overflow (hcomplete (.inl hover.1)) hover⟩

theorem convert_eq_error_iff_halts (h : (groupedWeights nodes).result = .ok groups) (t : Tensor) :
    (t.convert (Table.get? groups t.name) target).result = .error stop ↔
      t.Halts nodes target stop := by
  cases stop with
  | refused e => exact convert_eq_refused_iff h t
  | overflow => exact convert_eq_overflow_iff h t

end Groups

end Tensor

/-! ### Models -/

namespace Model

variable {m : Model} {target : Precision}

theorem exists_convert_iff :
    (∃ m', (m.convert target).result = .ok m') ↔
      (∀ n ∈ m.graph.nodes, n.Sound) ∧
        ∀ t ∈ m.graph.initializers, t.Passes m.graph.nodes target := by
  simp only [convert_eq_ok_iff]
  constructor
  · rintro ⟨m', groups, hgroups, h⟩
    refine ⟨exists_groupedWeights_iff.mp ⟨groups, hgroups⟩, ?_⟩
    intro t ht
    exact (t.exists_convert_iff_passes hgroups).mp (exists_convertWith_iff.mp ⟨m', h⟩ t ht)
  · rintro ⟨hnodes, htensors⟩
    obtain ⟨groups, hgroups⟩ := exists_groupedWeights_iff.mpr hnodes
    obtain ⟨m', h⟩ := exists_convertWith_iff.mpr fun t ht =>
      (t.exists_convert_iff_passes hgroups).mpr (htensors t ht)
    exact ⟨m', groups, hgroups, h⟩

/-- Convolutions are looked at before initializers, and the first one that is at fault
    decides. -/
theorem convert_eq_error_iff {stop : Stop ConvertError} :
    (m.convert target).result = .error stop ↔
      (∃ e, stop = .refused e ∧ FirstFault Node.Sound Node.Fault m.graph.nodes e) ∨
        (∀ n ∈ m.graph.nodes, n.Sound) ∧
          FirstFault (fun t => t.Passes m.graph.nodes target)
            (fun t stop => t.Halts m.graph.nodes target stop) m.graph.initializers stop := by
  simp only [convert, Traced.bind_eq_error_iff, Traced.mapError_eq_ok_iff,
    Traced.mapError_eq_error_iff, groupedWeights_eq_error_iff, ← exists_groupedWeights_iff,
    ← exists_and_right]
  refine or_congr_right (exists_congr fun groups => and_congr_right fun hgroups => ?_)
  rw [convertWith_eq_error_iff]
  exact FirstFault.congr (Tensor.exists_convert_iff_passes hgroups)
    (Tensor.convert_eq_error_iff_halts hgroups) _

theorem convert_eq_refused_iff {e : ConvertError} :
    (m.convert target).result = .error (.refused e) ↔
      FirstFault Node.Sound Node.Fault m.graph.nodes e ∨
        (∀ n ∈ m.graph.nodes, n.Sound) ∧
          FirstFault (fun t => t.Passes m.graph.nodes target)
            (fun t e => ∃ kind, t.Refused m.graph.nodes target kind e)
            m.graph.initializers e := by
  rw [convert_eq_error_iff]
  simp only [Stop.refused.injEq, exists_eq_left']
  rfl

/-- **Which models convert, which error wins, and which models overflow.**  The two
    conditions on convolutions and initializers are not enough: a weight that has to be
    moved may meet them with blocks that are larger than offsets can be. -/
theorem convert_outcome (m : Model) (target : Precision) :
    ((∃ m', (m.convert target).result = .ok m') ↔
      ((∀ n ∈ m.graph.nodes, n.Sound) ∧
        ∀ t ∈ m.graph.initializers, t.Sound m.graph.nodes target) ∧
      ∀ t ∈ m.graph.initializers, ¬t.Overflows (t.MustMove m.graph.nodes)) ∧
    (∀ e, (m.convert target).result = .error (.refused e) ↔
      (e.kind = .invalidGraph ∧ FirstFault Node.Sound Node.Fault m.graph.nodes e) ∨
      (∀ n ∈ m.graph.nodes, n.Sound) ∧ ∃ kind, e.kind = kind ∧
        FirstFault (fun t => t.Passes m.graph.nodes target)
          (fun t e => t.Refused m.graph.nodes target kind e) m.graph.initializers e) ∧
    ((m.convert target).result = .error .overflow ↔
      (∀ n ∈ m.graph.nodes, n.Sound) ∧ ∃ before t after,
        m.graph.initializers = before ++ t :: after ∧
        (∀ u ∈ before, u.Passes m.graph.nodes target) ∧ t.Sound m.graph.nodes target ∧
          t.Overflows (t.MustMove m.graph.nodes)) := by
  refine ⟨?_, fun e => ?_, ?_⟩
  · rw [exists_convert_iff, and_assoc, ← forall₂_and]
    rfl
  · rw [convert_eq_refused_iff]
    constructor
    · rintro (⟨before, n, after, hsplit, hsound, hfault⟩ |
        ⟨hnodes, before, t, after, hsplit, hpasses, kind, hrefused⟩)
      · exact .inl ⟨hfault.kind, before, n, after, hsplit, hsound, hfault⟩
      · exact .inr ⟨hnodes, kind, hrefused.2.kind_eq, before, t, after, hsplit, hpasses, hrefused⟩
    · rintro (⟨-, hnode⟩ | ⟨hnodes, kind, -, before, t, after, hsplit, hpasses, hrefused⟩)
      · exact .inl hnode
      · exact .inr ⟨hnodes, before, t, after, hsplit, hpasses, kind, hrefused⟩
  · rw [convert_eq_error_iff]
    simp only [reduceCtorEq, false_and, exists_false, false_or]
    rfl

/-- A model with one weight, which a convolution uses in two groups. -/
def ofWeight (t : Tensor) : Model :=
  { irVersion := some 3
    operatorSets := [⟨"", 7⟩]
    producerName := some "test"
    producerVersion := none
    graph := ⟨"main", [⟨"c", "Conv", "", ["x", t.name], ["y"], [("group", .int 2)], none⟩], [], [],
      [t], none⟩ }

/-- A weight without columns, with more entries in a block than addresses can count. -/
def hollow : Tensor := ⟨"w", [2, 0, 0x200000000, 0x200000000], .float32, .floats []⟩

/-- The convolution is sound and the weight complete, and the conversion stops on its way. -/
theorem hollow_overflows :
    (∀ n ∈ (ofWeight hollow).graph.nodes, n.Sound) ∧
    (∀ t ∈ (ofWeight hollow).graph.initializers,
      t.Sound (ofWeight hollow).graph.nodes .single) ∧
    ((ofWeight hollow).convert .single).result = .error .overflow := by
  refine ⟨?_, ?_, rfl⟩
  · simp only [ofWeight, List.mem_singleton, forall_eq]
    intro _
    refine ⟨⟨"w", rfl, by decide⟩, ?_⟩
    intro a ha
    cases Node.attribute?_eq_some_iff.mpr ha
    exact ⟨2, rfl, by decide⟩
  · simp only [ofWeight, List.mem_singleton, forall_eq]
    intro _
    refine ⟨fun _ => rfl, 4, 4, [], rfl, ?_, rfl, by decide⟩
    exact (blockSize?_eq_some_iff.mp (by decide : blockSize? hollow.shape 4 = some 0)).1

end Model

end Mpsx
