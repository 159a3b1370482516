/-
  Mpsx/Proofs/Convert/RawForm.lean
  ================================
  **The form of storage does not matter.**  Files keep the data of a tensor in bytes or
  in a list of numbers.  The raw form of a tensor has the same data in bytes: the numbers
  of its list one after the other, each in as many bytes as it stands for.

  Conversion asks a tensor for its bytes and never looks at the form they come from, so
  a model may be put into raw form before it is converted or afterwards.  What comes out
  is the same, and so are the error, if there is one, and everything that is reported.
-/

import Mpsx.Proofs.Convert.Elements
import Mpsx.Proofs.Convert.Steps
import Mpsx.Proofs.Onnx.Representable

namespace Mpsx

/-! ### Tensors in raw form -/

namespace Tensor

/-- The tensor with its numbers in bytes.  A list that does not belong to the element
    type, and one whose type has no width, stays as it is. -/
def inRawForm (t : Tensor) : Tensor :=
  if t.payload.Suits t.elementType ∧ t.elementType.width?.isSome then
    match t.digits? with
    | some (size, digits) => { t with payload := .raw (digits.flatMap (Bytes.littleEndian size)) }
    | none => t
  else t

/-- Whatever belongs to a type with a width has numbers, so its raw form is raw. -/
theorem payload_inRawForm {t : Tensor} (hsuits : t.payload.Suits t.elementType)
    (hwidth : t.elementType.width?.isSome = true) :
    ∃ size digits, t.digits? = some (size, digits) ∧
      t.inRawForm.payload = .raw (digits.flatMap (Bytes.littleEndian size)) := by
  have hdigits : t.digits? ≠ none := by
    obtain ⟨name, shape, type, payload⟩ := t
    cases payload <;> cases type <;> simp_all [digits?, Payload.Suits, ElementType.width?]
  obtain ⟨⟨size, digits⟩, hsome⟩ := Option.ne_none_iff_exists'.mp hdigits
  refine ⟨size, digits, hsome, ?_⟩
  rw [inRawForm, if_pos ⟨hsuits, hwidth⟩, hsome]

/-- Numbers below zero, and numbers that are too large, count by their low bits. -/
example : inRawForm ⟨"q", [3], .int8, .int32s [-1, 2, 259]⟩ =
    ⟨"q", [3], .int8, .raw [255, 2, 3]⟩ := by
  decide

variable (t : Tensor)

/-- Without the numbers in between: the bytes that a tensor gives out take the place of
    whatever they come from. -/
theorem inRawForm_eq :
    t.inRawForm = t ∨
      ∃ bytes, t.rawBytes? = some bytes ∧ t.inRawForm = { t with payload := .raw bytes } := by
  unfold inRawForm
  split
  · cases hdigits : t.digits? with
    | none => exact .inl rfl
    | some p =>
      refine .inr ⟨_, ?_, rfl⟩
      rw [rawBytes?_eq_map_digits?, hdigits]
      rfl
  · exact .inl rfl

@[simp] theorem name_inRawForm : t.inRawForm.name = t.name := by
  rcases t.inRawForm_eq with h | ⟨bytes, -, h⟩ <;> rw [h]

@[simp] theorem shape_inRawForm : t.inRawForm.shape = t.shape := by
  rcases t.inRawForm_eq with h | ⟨bytes, -, h⟩ <;> rw [h]

@[simp] theorem elementType_inRawForm : t.inRawForm.elementType = t.elementType := by
  rcases t.inRawForm_eq with h | ⟨bytes, -, h⟩ <;> rw [h]

@[simp] theorem rawBytes?_inRawForm : t.inRawForm.rawBytes? = t.rawBytes? := by
  rcases t.inRawForm_eq with h | ⟨bytes, hbytes, h⟩
  · rw [h]
  · rw [h, hbytes]
    rfl

@[simp] theorem exactBytes_inRawForm (width : Nat) :
    t.inRawForm.exactBytes width = t.exactBytes width := by
  simp only [exactBytes, elementCount?, name_inRawForm, shape_inRawForm, elementType_inRawForm,
    rawBytes?_inRawForm]

@[simp] theorem inRawForm_raw (name : String) (shape : List UInt64) (type : ElementType)
    (bytes : Bytes) :
    inRawForm ⟨name, shape, type, .raw bytes⟩ = ⟨name, shape, type, .raw bytes⟩ := by
  rcases inRawForm_eq ⟨name, shape, type, .raw bytes⟩ with h | ⟨found, hfound, h⟩
  · exact h
  · cases hfound
    exact h

/-- Bytes are moved by the shape alone. -/
@[simp] theorem place?_inRawForm (swap : Bool) (width : Nat) (bytes : Bytes) :
    t.inRawForm.place? swap width bytes = t.place? swap width bytes := by
  simp only [place?, shape_inRawForm]

/-- The result of a conversion is built from bytes, whatever form they had. -/
theorem rebuild_inRawForm (swap : Bool) (source : Option Precision) (target : Precision)
    (data : Bytes) :
    t.inRawForm.rebuild swap source target data =
      (t.rebuild swap source target data).inRawForm := by
  cases source with
  | none =>
    simp only [rebuild, name_inRawForm, shape_inRawForm, elementType_inRawForm, inRawForm_raw]
  | some p => simp only [rebuild, name_inRawForm, shape_inRawForm, inRawForm_raw]

theorem result_convert_inRawForm (group : Option Int64) (target : Precision) :
    (t.inRawForm.convert group target).result =
      (t.convert group target).result.map inRawForm := by
  rw [result_convert, result_convert]
  simp only [name_inRawForm, shape_inRawForm, elementType_inRawForm, exactBytes_inRawForm,
    place?_inRawForm]
  split
  · rfl
  · split
    · rfl
    · cases t.elementType.width? with
      | none => rfl
      | some width =>
        dsimp only
        cases t.exactBytes width with
        | error e => rfl
        | ok bytes =>
          dsimp only
          cases t.place? (swapsAxes group t.shape) width bytes with
          | none => rfl
          | some data => exact congrArg Except.ok (t.rebuild_inRawForm ..)

theorem convert_inRawForm (group : Option Int64) (target : Precision) :
    t.inRawForm.convert group target = inRawForm <$> t.convert group target := by
  have hresult := t.result_convert_inRawForm group target
  refine Traced.ext ?_ ?_
  · rw [Traced.events_map, events_convert, events_convert, hresult]
    simp only [layoutReports, dataReports, name_inRawForm, shape_inRawForm, elementType_inRawForm]
    rcases (t.convert group target).result with (e | _) | t' <;> rfl
  · rw [Traced.result_map, hresult]
    rfl

end Tensor

/-! ### Models in raw form -/

def Model.inRawForm (m : Model) : Model :=
  { m with graph := { m.graph with initializers := m.graph.initializers.map Tensor.inRawForm } }

theorem movedNames_inRawForm (before after : List Tensor) :
    movedNames (before.map Tensor.inRawForm) (after.map Tensor.inRawForm) =
      movedNames before after := by
  simp only [movedNames, List.zip_map, List.filter_map, List.map_map, Function.comp_def,
    Prod.map_fst, Prod.map_snd, Tensor.name_inRawForm, Tensor.shape_inRawForm]

namespace Model

variable (m : Model) (target : Precision)

theorem convertWith_inRawForm (groups : Groups) :
    m.inRawForm.convertWith groups target = inRawForm <$> m.convertWith groups target := by
  have hinit : (m.graph.initializers.map Tensor.inRawForm).mapM
        (fun t => t.convert (Table.get? groups t.name) target) =
      List.map Tensor.inRawForm <$>
        m.graph.initializers.mapM fun t => t.convert (Table.get? groups t.name) target := by
    rw [List.mapM_map, ← Traced.mapM_map_comm]
    simp only [Function.comp_def, Tensor.name_inRawForm, Tensor.convert_inRawForm]
  unfold convertWith
  simp only [inRawForm, hinit, bind_map_left, movedNames_inRawForm, List.length_map, map_bind,
    map_pure]

theorem convert_inRawForm : m.inRawForm.convert target = inRawForm <$> m.convert target := by
  unfold convert
  simp only [convertWith_inRawForm, map_bind]
  rfl

/-- **Typed and raw storage convert alike.**  Both stop for the same reason, or both succeed
    and the results differ only in their form; in either case the same is reported. -/
theorem convert_inRawForm_alike (m : Model) (target : Precision) :
    ((∃ e, (m.convert target).result = .error e ∧
        (m.inRawForm.convert target).result = .error e) ∨
      ∃ m', (m.convert target).result = .ok m' ∧
        (m.inRawForm.convert target).result = .ok m'.inRawForm) ∧
    (m.inRawForm.convert target).events = (m.convert target).events := by
  rw [convert_inRawForm, Traced.result_map, Traced.events_map]
  refine ⟨?_, rfl⟩
  rcases (m.convert target).result with e | m'
  · exact .inl ⟨e, rfl, rfl⟩
  · exact .inr ⟨m', rfl, rfl⟩

end Model

end Mpsx
