/-
  Mpsx/Proofs/Convert/Steps.lean
  ==============================
  **What each step of a conversion does.**  Without its events, converting an
  initializer is a chain of checks, then putting its bytes in their places, which may
  overflow, and then one pure function of these bytes; converting a descriptor cannot
  fail at all.  A conversion of a model succeeds if it does on every initializer.
  Statements about conversion start from these equations and not from the program.
-/

import Mathlib.Algebra.Group.Nat.Defs
import Mpsx.Convert.Conversion
import Mpsx.Proofs.Traced

namespace Mpsx

/-! ### Sizes -/

def volume (shape : List UInt64) : Nat := (shape.map UInt64.toNat).prod

@[simp] theorem volume_nil : volume [] = 1 := rfl

@[simp] theorem volume_cons (d : UInt64) (rest : List UInt64) :
    volume (d :: rest) = d.toNat * volume rest := by
  simp [volume]

/-- The size in bytes of a shape with two axes: rows of blocks. -/
theorem volume_cons_cons (d0 d1 : UInt64) (rest : List UInt64) (width : Nat) :
    volume (d0 :: d1 :: rest) * width = d0.toNat * d1.toNat * (volume rest * width) := by
  simp only [volume_cons, Nat.mul_assoc]

/-- Neither a product of leading dimensions nor the size in bytes leaves the address
    range. -/
def Addressable (shape : List UInt64) (width : Nat) : Prop :=
  (∀ k, volume (shape.take k) < 2 ^ 64) ∧ volume shape * width < 2 ^ 64

theorem addressLimit_eq : addressLimit = 2 ^ 64 := rfl

theorem product?_eq_some_iff {a b n : Nat} :
    product? a b = some n ↔ a * b < addressLimit ∧ n = a * b := by
  unfold product?
  split
  · next h => simp [h, eq_comm]
  · next h => simp [h]

/-- The running product is given up as soon as it leaves the range.  The accumulator
    carries the product of the dimensions already taken. -/
theorem foldlM_product?_eq_some_iff {shape : List UInt64} {a n : Nat} (ha : a < addressLimit) :
    shape.foldlM (fun n d => product? n d.toNat) a = some n ↔
      (∀ k, a * volume (shape.take k) < addressLimit) ∧ n = a * volume shape := by
  induction shape generalizing a with
  | nil => simp [ha, eq_comm]
  | cons d rest ih =>
    rw [List.foldlM_cons, ← Nat.and_forall_add_one]
    simp only [List.take_zero, List.take_succ_cons, volume_nil, volume_cons, Nat.mul_one, ha,
      true_and, ← Nat.mul_assoc]
    constructor
    · intro h
      obtain ⟨b, hb, h⟩ := Option.bind_eq_some_iff.mp h
      obtain ⟨hlt, rfl⟩ := product?_eq_some_iff.mp hb
      exact (ih hlt).mp h
    · rintro ⟨hall, hn⟩
      have hlt : a * d.toNat < addressLimit := by simpa using hall 0
      exact Option.bind_eq_some_iff.mpr
        ⟨_, product?_eq_some_iff.mpr ⟨hlt, rfl⟩, (ih hlt).mpr ⟨hall, hn⟩⟩

theorem sizeOfShape?_eq_some_iff {shape : List UInt64} {n : Nat} :
    sizeOfShape? shape = some n ↔ (∀ k, volume (shape.take k) < 2 ^ 64) ∧ n = volume shape := by
  rw [sizeOfShape?, foldlM_product?_eq_some_iff (by decide)]
  simp only [Nat.one_mul, addressLimit_eq]

/-- A size in bytes that is not given up is the true one. -/
theorem blockSize?_eq_some_iff {shape : List UInt64} {width n : Nat} :
    blockSize? shape width = some n ↔ Addressable shape width ∧ n = volume shape * width := by
  refine Option.bind_eq_some_iff.trans ?_
  simp only [sizeOfShape?_eq_some_iff, product?_eq_some_iff, addressLimit_eq, Addressable]
  constructor
  · rintro ⟨_, ⟨hall, rfl⟩, hlt, hn⟩
    exact ⟨⟨hall, hlt⟩, hn⟩
  · rintro ⟨⟨hall, hlt⟩, hn⟩
    exact ⟨_, ⟨hall, rfl⟩, hlt, hn⟩

theorem volume_swapFirstTwo (shape : List UInt64) : volume (swapFirstTwo shape) = volume shape := by
  match shape with
  | a :: b :: rest =>
    simp only [swapFirstTwo, volume_cons]
    rw [Nat.mul_left_comm]
  | [] => rfl
  | [_] => rfl

namespace Tensor

theorem elementCount?_eq_some_iff {t : Tensor} {n : Nat} :
    t.elementCount? = some n ↔ (∀ k, volume (t.shape.take k) < 2 ^ 64) ∧ n = volume t.shape :=
  sizeOfShape?_eq_some_iff

theorem size?_eq_some_iff {t : Tensor} {width n : Nat} :
    t.elementCount?.bind (product? · width) = some n ↔
      Addressable t.shape width ∧ n = volume t.shape * width :=
  blockSize?_eq_some_iff

/-- The bytes are there, all of them and no more. -/
theorem exactBytes_eq_ok_iff {t : Tensor} {width : Nat} {bytes : Bytes} :
    t.exactBytes width = .ok bytes ↔ t.rawBytes? = some bytes ∧ Addressable t.shape width ∧
      bytes.length = volume t.shape * width := by
  rw [← size?_eq_some_iff]
  unfold exactBytes
  cases t.elementCount?.bind (product? · width) with
  | none => simp
  | some expected =>
    cases t.rawBytes? with
    | none => simp
    | some found =>
      by_cases h : found.length = expected
      · simp only [if_pos h, Except.ok.injEq, Option.some.injEq]
        constructor
        · rintro rfl
          exact ⟨rfl, h.symm⟩
        · exact And.left
      · simp only [if_neg h, Option.some.injEq, reduceCtorEq, false_iff]
        rintro ⟨rfl, he⟩
        exact h he.symm

theorem length_of_exactBytes {t : Tensor} {width : Nat} {bytes : Bytes}
    (h : t.exactBytes width = .ok bytes) : bytes.length = volume t.shape * width :=
  (exactBytes_eq_ok_iff.mp h).2.2

end Tensor

/-! ### Exchanging axes -/

/-- The products that are taken to exchange the two leading axes of a shape are in the
    address range. -/
structure SwapFits (d0 d1 : UInt64) (rest : List UInt64) (width : Nat) : Prop where
  block : Addressable rest width
  blocks : d0.toNat * d1.toNat < 2 ^ 64
  buffer : d0.toNat * d1.toNat * (volume rest * width) < 2 ^ 64

/-- Axes are exchanged by moving blocks, if all products fit and the buffer is as long as
    they say. -/
theorem swapLeadingAxes?_eq_some_iff {bytes out : Bytes} {d0 d1 : UInt64} {rest : List UInt64}
    {width : Nat} :
    swapLeadingAxes? bytes (d0 :: d1 :: rest) width = some out ↔
      SwapFits d0 d1 rest width ∧ bytes.length = d0.toNat * d1.toNat * (volume rest * width) ∧
        out = transposeBlocks bytes d0.toNat d1.toNat (volume rest * width) := by
  simp only [swapLeadingAxes?, Option.bind_eq_bind, Option.bind_eq_some_iff,
    blockSize?_eq_some_iff, product?_eq_some_iff, addressLimit_eq, Option.pure_def,
    Option.ite_none_right_eq_some, Option.some.injEq]
  constructor
  · rintro ⟨_, ⟨hblock, rfl⟩, _, ⟨hblocks, rfl⟩, _, ⟨hbuffer, rfl⟩, hlength, hout⟩
    exact ⟨⟨hblock, hblocks, hbuffer⟩, hlength, hout.symm⟩
  · rintro ⟨⟨hblock, hblocks, hbuffer⟩, hlength, hout⟩
    exact ⟨_, ⟨hblock, rfl⟩, _, ⟨hblocks, rfl⟩, _, ⟨hbuffer, rfl⟩, hlength, hout.symm⟩

/-! ### Initializers -/

def Tensor.place? (t : Tensor) (swap : Bool) (width : Nat) (bytes : Bytes) : Option Bytes :=
  if swap then swapLeadingAxes? bytes t.shape width else some bytes

def Tensor.rebuild (t : Tensor) (swap : Bool) (source : Option Precision) (target : Precision)
    (data : Bytes) : Tensor :=
  let shape := if swap then swapFirstTwo t.shape else t.shape
  match source with
  | none => ⟨t.name, shape, t.elementType, .raw data⟩
  | some p => ⟨t.name, shape, target.elementType, .raw (castFloats data p target)⟩

theorem Tensor.result_convert (t : Tensor) (group : Option Int64) (target : Precision) :
    (t.convert group target).result =
      let swap := swapsAxes group t.shape
      let source := castSource? t.elementType target
      if !swap && source.isNone then .ok t
      else if swap && t.shape.length ≠ 4 then .error (.refused (.notFourAxes t.name t.shape))
      else
        match t.elementType.width? with
        | none => .error (.refused (.noWidth t.name t.elementType))
        | some width =>
          match t.exactBytes width with
          | .error e => .error (.refused e)
          | .ok bytes =>
            match t.place? swap width bytes with
            | none => .error .overflow
            | some data => .ok (t.rebuild swap source target data) := by
  unfold convert
  generalize swapsAxes group t.shape = swap
  generalize castSource? t.elementType target = source
  -- The message that a layout is kept leaves the result alone.
  have hmessage : ∀ (g : Int64) (rest : Unit → Convert Tensor),
      (if !swap then (do let r ← Traced.report (Event.keptLayout t.name t.shape g); rest r)
        else rest ()).result = (rest ()).result := by
    intro g rest
    cases swap <;> rfl
  cases group
  case' some g => refine (hmessage g _).trans ?_
  all_goals
    simp only [apply_ite Traced.result]
    congr 2
    cases t.elementType.width? with
    | none => rfl
    | some width =>
      dsimp only
      simp only [Traced.require, pure_bind, place?, swapStep]
      cases t.exactBytes width with
      | error e => rfl
      | ok bytes =>
        simp only [Traced.mapError_ofExcept_ok, pure_bind]
        cases swap with
        | false => cases source <;> rfl
        | true => cases swapLeadingAxes? bytes t.shape width <;> cases source <;> rfl

def Tensor.layoutReports (t : Tensor) (group : Option Int64) : List Event :=
  if swapsAxes group t.shape then [] else group.toList.map fun g => .keptLayout t.name t.shape g

def Tensor.dataReports (t : Tensor) (swap : Bool) (source : Option Precision)
    (target : Precision) : List Event :=
  (if swap then [.swappedAxes t.name t.shape] else []) ++
    source.toList.map fun p => .cast t.name p target

/-- All checks come before the first report on data, and an overflow comes after it. -/
theorem Tensor.events_convert (t : Tensor) (group : Option Int64) (target : Precision) :
    (t.convert group target).events =
      t.layoutReports group ++
        match (t.convert group target).result with
        | .ok _ => t.dataReports (swapsAxes group t.shape) (castSource? t.elementType target) target
        | .error (.refused _) => []
        | .error .overflow => [.swappedAxes t.name t.shape] := by
  rw [result_convert, layoutReports]
  unfold convert
  generalize swapsAxes group t.shape = swap
  generalize castSource? t.elementType target = source
  generalize decide (t.shape.length ≠ 4) = misshapen
  -- with all decisions and the bytes given, both sides are the same list
  cases t.elementType.width? with
  | none => cases group <;> cases swap <;> cases source <;> cases misshapen <;> rfl
  | some width =>
    dsimp only
    simp only [Traced.require, pure_bind, swapStep, place?]
    generalize t.exactBytes width = data
    rcases data with e | bytes
    · cases group <;> cases swap <;> cases source <;> cases misshapen <;> rfl
    · simp only [Traced.mapError_ofExcept_ok, pure_bind]
      generalize swapLeadingAxes? bytes t.shape width = moved
      cases moved <;> cases group <;> cases swap <;> cases source <;> cases misshapen <;> rfl

/-- An initializer is left alone, or its bytes pass all checks, are put in their places, and
    it is built from them. -/
theorem Tensor.convert_eq_ok_iff {t t' : Tensor} {group : Option Int64} {target : Precision} :
    (t.convert group target).result = .ok t' ↔
      (swapsAxes group t.shape = false ∧ castSource? t.elementType target = none ∧ t' = t) ∨
      (swapsAxes group t.shape = true ∨ castSource? t.elementType target ≠ none) ∧
        (swapsAxes group t.shape = true → t.shape.length = 4) ∧
        ∃ width bytes data, t.elementType.width? = some width ∧ t.exactBytes width = .ok bytes ∧
          t.place? (swapsAxes group t.shape) width bytes = some data ∧
          t' = t.rebuild (swapsAxes group t.shape) (castSource? t.elementType target) target
            data := by
  rw [result_convert]
  dsimp only
  generalize castSource? t.elementType target = source
  by_cases hneither : swapsAxes group t.shape = false ∧ source = none
  · simp [hneither, eq_comm]
  · have hany : swapsAxes group t.shape = true ∨ source ≠ none := by
      by_cases hswap : swapsAxes group t.shape = true
      · exact .inl hswap
      · exact .inr fun hnone => hneither ⟨by simpa using hswap, hnone⟩
    rw [if_neg (by simpa using hneither), ← and_assoc, or_iff_right fun h => hneither h.1,
      and_iff_right hany]
    by_cases hrank : swapsAxes group t.shape = true → t.shape.length = 4
    · rw [if_neg (by simpa using hrank), and_iff_right hrank]
      cases t.elementType.width? with
      | none => simp
      | some width =>
        rcases hbytes : t.exactBytes width with e | bytes
        · simp [hbytes]
        · cases hplace : t.place? (swapsAxes group t.shape) width bytes with
          | none => simp [hbytes, hplace]
          | some data => simp [hbytes, hplace, eq_comm]
    · rw [if_pos (by simpa using hrank)]
      simp [hrank]

/-! ### Descriptors -/

def ValueInfo.converted (v : ValueInfo) (moved : List String) (target : Precision) : ValueInfo :=
  match v.shape with
  | some dims =>
    if v.name ∈ moved ∧ dims.length = 4 then
      { v.retype target with shape := some (swapFirstTwo dims) }
    else v.retype target
  | none => v.retype target

@[simp] theorem ValueInfo.name_retype (v : ValueInfo) (target : Precision) :
    (v.retype target).name = v.name := by
  unfold retype
  split <;> rfl

@[simp] theorem ValueInfo.shape_retype (v : ValueInfo) (target : Precision) :
    (v.retype target).shape = v.shape := by
  unfold retype
  split <;> rfl

theorem ValueInfo.result_convertInput (v : ValueInfo) (moved : List String) (target : Precision) :
    (v.convertInput moved target).result = .ok (v.converted moved target) := by
  simp only [convertInput, converted, shape_retype, name_retype]
  cases v.shape with
  | none => rfl
  | some dims =>
    dsimp only
    split
    · rfl
    · rfl

@[simp] theorem ValueInfo.name_converted (v : ValueInfo) (moved : List String)
    (target : Precision) : (v.converted moved target).name = v.name := by
  unfold converted
  split
  · split
    · simp
    · simp
  · simp

theorem ValueInfo.elementType_converted (v : ValueInfo) (moved : List String) (target : Precision) :
    (v.converted moved target).elementType = (v.retype target).elementType := by
  unfold converted
  split
  · split
    · rfl
    · rfl
  · rfl

/-! ### Models -/

def Model.withInitializers (m : Model) (initializers : List Tensor) (target : Precision) : Model :=
  { m with
    producerName := some producerTag
    producerVersion := some producerRelease
    graph := { m.graph with
      inputs := m.graph.inputs.map fun v =>
        v.converted (movedNames m.graph.initializers initializers) target
      outputs := m.graph.outputs.map fun v => v.retype target
      initializers } }

/-- The descriptors of the inputs are always converted. -/
theorem Model.result_convertInputs (m : Model) (initializers : List Tensor) (target : Precision) :
    (m.graph.inputs.mapM fun v : ValueInfo =>
      v.convertInput (movedNames m.graph.initializers initializers) target).result =
      .ok (m.withInitializers initializers target).graph.inputs := by
  simp only [Traced.result_mapM, ValueInfo.result_convertInput]
  exact List.mapM_pure ..

theorem Model.convertWith_eq_ok_iff {m m' : Model} {groups : Groups} {target : Precision} :
    (m.convertWith groups target).result = .ok m' ↔
      ∃ initializers, m' = m.withInitializers initializers target ∧
        List.Forall₂ (fun t t' => (t.convert (Table.get? groups t.name) target).result = .ok t')
          m.graph.initializers initializers := by
  unfold convertWith
  dsimp only
  rw [Traced.bind_eq_ok_iff]
  constructor
  · rintro ⟨initializers, hinit, h⟩
    obtain ⟨inputs, hin, h⟩ := Traced.bind_eq_ok_iff.mp h
    rw [result_convertInputs] at hin
    cases hin
    cases h
    exact ⟨initializers, rfl, Traced.mapM_eq_ok_iff.mp hinit⟩
  · rintro ⟨initializers, rfl, hinit⟩
    refine ⟨initializers, Traced.mapM_eq_ok_iff.mpr hinit, ?_⟩
    exact Traced.bind_eq_ok_iff.mpr ⟨_, m.result_convertInputs initializers target, rfl⟩

theorem Model.exists_convertWith_iff {m : Model} {groups : Groups} {target : Precision} :
    (∃ m', (m.convertWith groups target).result = .ok m') ↔
      ∀ t ∈ m.graph.initializers,
        ∃ t', (t.convert (Table.get? groups t.name) target).result = .ok t' := by
  rw [← Traced.exists_mapM_iff]
  simp only [convertWith_eq_ok_iff, Traced.mapM_eq_ok_iff]
  constructor
  · rintro ⟨_, initializers, -, hinit⟩
    exact ⟨initializers, hinit⟩
  · rintro ⟨initializers, hinit⟩
    exact ⟨_, initializers, rfl, hinit⟩

/-- With the group counts known, only an initializer can make a conversion fail, and the
    first one that does decides. -/
theorem Model.convertWith_eq_error_iff {m : Model} {groups : Groups} {target : Precision}
    {stop : Stop ConvertError} :
    (m.convertWith groups target).result = .error stop ↔
      FirstFault (fun t => ∃ t', (t.convert (Table.get? groups t.name) target).result = .ok t')
        (fun t stop => (t.convert (Table.get? groups t.name) target).result = .error stop)
        m.graph.initializers stop := by
  rw [← Traced.mapM_eq_error_iff]
  unfold convertWith
  dsimp only
  rw [Traced.bind_eq_error_iff]
  constructor
  · rintro (h | ⟨initializers, -, h⟩)
    · exact h
    · rcases Traced.bind_eq_error_iff.mp h with h | ⟨inputs, -, h⟩
      · rw [result_convertInputs] at h
        cases h
      · cases h
  · exact .inl

/-- A converted model is left alone, every other one is converted. -/
theorem Model.convertOnce_eq_ok_iff {m : Model} {target : Precision} {c : Conversion} :
    (m.convertOnce target).result = .ok c ↔
      (m.isConverted = true ∧ c = .unchanged) ∨
        m.isConverted = false ∧ ∃ m', c = .converted m' ∧ (m.convert target).result = .ok m' := by
  unfold convertOnce
  by_cases htag : m.isConverted = true
  · rw [if_pos htag]
    constructor
    · intro h
      cases h
      exact .inl ⟨htag, rfl⟩
    · rintro (⟨-, rfl⟩ | ⟨hfalse, -⟩)
      · rfl
      · rw [htag] at hfalse
        cases hfalse
  · rw [if_neg htag, Traced.bind_eq_ok_iff]
    constructor
    · rintro ⟨m', hconvert, h⟩
      cases h
      exact .inr ⟨by simpa using htag, m', rfl, hconvert⟩
    · rintro (⟨htrue, -⟩ | ⟨-, m', rfl, hconvert⟩)
      · exact absurd htrue htag
      · exact ⟨m', hconvert, rfl⟩

theorem Model.convertOnce_eq_error_iff {m : Model} {target : Precision}
    {stop : Stop ConvertError} :
    (m.convertOnce target).result = .error stop ↔
      m.isConverted = false ∧ (m.convert target).result = .error stop := by
  unfold convertOnce
  by_cases htag : m.isConverted = true
  · rw [if_pos htag, htag]
    constructor
    · rintro ⟨⟩
    · rintro ⟨⟨⟩, -⟩
  · rw [if_neg htag, Traced.bind_eq_error_iff, and_iff_right (Bool.not_eq_true _ ▸ htag)]
    constructor
    · rintro (h | ⟨m', -, h⟩)
      · exact h
      · cases h
    · exact .inl

/-- The group counts that a model is converted with are those of its convolutions. -/
theorem Model.convert_eq_ok_iff {m m' : Model} {target : Precision} :
    (m.convert target).result = .ok m' ↔
      ∃ groups, (groupedWeights m.graph.nodes).result = .ok groups ∧
        (m.convertWith groups target).result = .ok m' := by
  simp only [convert, Traced.bind_eq_ok_iff, Traced.mapError_eq_ok_iff]

theorem Model.convertOnce_of_isConverted {m : Model} (h : m.isConverted = true)
    (target : Precision) : (m.convertOnce target).result = .ok .unchanged := by
  rw [convertOnce, if_pos h]
  rfl

end Mpsx
