/-
  Mpsx/Proofs/Convert/Documentation.lean
  ======================================
  **Conversion does not read documentation.**  A model may be stripped before it is
  converted or afterwards; the result is the same, and so is the reason if there is
  none.  The scan over convolutions is the only part of a conversion that looks into
  nodes, and of an attribute it asks no more than whether it is a positive integer.

  The one place where documentation shows is an error that quotes an attribute: a
  group count that is a graph is quoted with its documentation, or without it.
  `ConvertError.strip` is this difference, so the equations below are exact and the
  kind of an error is the same on both sides.
-/

import Mpsx.Proofs.Convert.Refused
import Mpsx.Proofs.Model.Stripped

namespace Mpsx

/-! ### Errors -/

def ConvertError.strip : ConvertError → ConvertError
  | .groupNotInteger node value => .groupNotInteger node value.strip
  | e => e

@[simp] theorem ConvertError.kind_strip (e : ConvertError) : e.strip.kind = e.kind := by
  cases e <;> rfl

theorem Stop.kind_map_strip (stop : Stop ConvertError) :
    (stop.map ConvertError.strip).map ConvertError.kind = stop.map ConvertError.kind := by
  cases stop with
  | refused e => exact congrArg Stop.refused e.kind_strip
  | overflow => rfl

/-- What is wrong with an initializer says nothing about attributes. -/
theorem Tensor.Stops.strip_eq {t : Tensor} {moved : Prop} {stop : Stop ConvertError}
    (h : t.Stops moved stop) : stop.map ConvertError.strip = stop := by
  cases h with
  | refused hfault => cases hfault <;> rfl
  | overflow => rfl

/-! ### The scan over convolutions -/

theorem Node.attribute?_strip (n : Node) (name : String) :
    n.strip.attribute? name = (n.attribute? name).map Attribute.strip := by
  rw [attribute?, strip_eq, attribute?]
  induction n.attributes with
  | nil => rfl
  | cons p rest ih =>
    rw [List.map_cons, List.lookup_cons, List.lookup_cons, ih]
    cases name == p.1 <;> rfl

/-- The first attribute of a name stays the first of its name. -/
theorem Node.firstNamed_strip_iff {n : Node} {name : String} {b : Attribute} :
    n.strip.FirstNamed name b ↔ ∃ a, n.FirstNamed name a ∧ a.strip = b := by
  simp only [← attribute?_eq_some_iff, attribute?_strip, Option.map_eq_some_iff]

theorem Attribute.strip_eq_int_iff {a : Attribute} {g : Int64} : a.strip = .int g ↔ a = .int g := by
  cases a <;> simp [strip]

namespace Node

variable {n : Node} {e : ConvertError} {w : String} {g : Int64}

theorem sound_strip_iff : n.strip.Sound ↔ n.Sound := by
  unfold Sound
  simp only [firstNamed_strip_iff, forall_exists_index, and_imp, forall_apply_eq_imp_iff₂,
    Attribute.strip_eq_int_iff]
  rw [strip_eq]

theorem usesGrouped_strip_iff : n.strip.UsesGrouped w g ↔ n.UsesGrouped w g := by
  unfold UsesGrouped
  simp only [firstNamed_strip_iff, Attribute.strip_eq_int_iff, exists_eq_right]
  rw [strip_eq]

/-- A fault stays, with the attribute it quotes stripped. -/
theorem Fault.strip (h : n.Fault e) : n.strip.Fault e.strip := by
  cases h with
  | weight hconv hweight =>
    cases n
    exact .weight hconv hweight
  | groupForm hconv hweight hgroup hform =>
    have hstripped := firstNamed_strip_iff.mpr ⟨_, hgroup, rfl⟩
    cases n
    refine .groupForm hconv hweight hstripped ?_
    intro g hg
    exact hform g (Attribute.strip_eq_int_iff.mp hg)
  | groupSize hconv hweight hgroup hsize =>
    have hstripped := firstNamed_strip_iff.mpr ⟨_, hgroup, rfl⟩
    cases n
    exact .groupSize hconv hweight hstripped hsize

/-- What the scan makes of a stripped node. -/
theorem groupedWeight?_strip (n : Node) :
    n.strip.groupedWeight? = n.groupedWeight?.mapError ConvertError.strip := by
  rcases n.groupedWeight?_cases with ⟨e, hn, hfault⟩ | ⟨w, g, hn, hsound, huse⟩ |
    ⟨hn, hsound, hnone⟩
  · rw [hn, groupedWeight?_of_fault hfault.strip]
    rfl
  · have hstripped := usesGrouped_strip_iff.mpr huse
    rw [hn, groupedWeight?_of_usesGrouped (sound_strip_iff.mpr hsound) hstripped]
    rfl
  · have hstripped : ∀ w g, ¬n.strip.UsesGrouped w g := by
      intro w g huse
      exact hnone w g (usesGrouped_strip_iff.mp huse)
    rw [hn, groupedWeight?_of_not_usesGrouped (sound_strip_iff.mpr hsound) hstripped]
    rfl

end Node

theorem Groups.result_visit_strip (groups : Groups) (n : Node) :
    (groups.visit n.strip).result = (groups.visit n).result.mapError ConvertError.strip := by
  rw [result_visit, result_visit, Node.groupedWeight?_strip]
  rcases n.groupedWeight? with e | found <;> rfl

/-- The scan finds the same group counts in stripped nodes, or the same fault. -/
theorem result_groupedWeights_strip (nodes : List Node) :
    (groupedWeights (nodes.map Node.strip)).result =
      (groupedWeights nodes).result.mapError ConvertError.strip := by
  unfold groupedWeights
  generalize ([] : Groups) = groups
  induction nodes generalizing groups with
  | nil => rfl
  | cons n rest ih =>
    rw [List.map_cons, List.foldlM_cons, List.foldlM_cons, Traced.result_bind, Traced.result_bind,
      Groups.result_visit_strip]
    rcases (Groups.visit groups n).result with e | found
    · rfl
    · exact ih found

/-! ### Models -/

namespace Model

variable (m : Model) (groups : Groups) (target : Precision)

def convertInitializers : Convert (List Tensor) :=
  m.graph.initializers.mapM fun t => t.convert (Table.get? groups t.name) target

/-- The result of a conversion is made from the converted initializers. -/
theorem result_convertWith :
    (m.convertWith groups target).result =
      (m.convertInitializers groups target).result.map (m.withInitializers · target) := by
  unfold convertWith
  refine (Traced.result_bind (m.convertInitializers groups target) _).trans ?_
  rcases (m.convertInitializers groups target).result with e | initializers
  · rfl
  · refine (Traced.result_bind (m.graph.inputs.mapM _) _).trans ?_
    rw [result_convertInputs]
    rfl

theorem withInitializers_strip (initializers : List Tensor) :
    m.strip.withInitializers initializers target =
      (m.withInitializers initializers target).strip := by
  simp only [withInitializers, strip, Graph.strip_eq]

theorem convertInitializers_strip :
    m.strip.convertInitializers groups target = m.convertInitializers groups target := by
  rw [convertInitializers, strip, Graph.strip_eq, convertInitializers]

theorem result_convertWith_strip :
    (m.strip.convertWith groups target).result =
      (m.convertWith groups target).result.map Model.strip := by
  rw [result_convertWith, result_convertWith, convertInitializers_strip]
  rcases (m.convertInitializers groups target).result with e | initializers
  · rfl
  · exact congrArg Except.ok (m.withInitializers_strip target initializers)

/-- Once the group counts are known, no error quotes an attribute. -/
theorem mapError_convertWith :
    (m.convertWith groups target).result.mapError (Stop.map ConvertError.strip) =
      (m.convertWith groups target).result := by
  rcases hresult : (m.convertWith groups target).result with stop | m'
  · obtain ⟨before, t, after, -, -, herror⟩ := convertWith_eq_error_iff.mp hresult
    obtain ⟨-, hstops⟩ := Tensor.convert_eq_error_iff.mp herror
    exact congrArg Except.error hstops.strip_eq
  · rfl

/-- Stripped before the conversion or after it. -/
theorem result_convert_strip :
    (m.strip.convert target).result =
      ((m.convert target).result.mapError (Stop.map ConvertError.strip)).map Model.strip := by
  have hnodes : m.strip.graph.nodes = m.graph.nodes.map Node.strip := by
    rw [strip, Graph.strip_eq]
  rw [convert, convert, Traced.result_bind, Traced.result_bind, hnodes, Traced.result_mapError,
    Traced.result_mapError, result_groupedWeights_strip]
  rcases (groupedWeights m.graph.nodes).result with e | groups
  · rfl
  · show (m.strip.convertWith groups target).result =
      ((m.convertWith groups target).result.mapError (Stop.map ConvertError.strip)).map Model.strip
    rw [result_convertWith_strip, mapError_convertWith]

end Model

def Conversion.strip : Conversion → Conversion
  | .unchanged => .unchanged
  | .converted m => .converted m.strip

theorem Conversion.result_strip (c : Conversion) (m : Model) :
    c.strip.result m.strip = (c.result m).strip := by
  cases c <;> rfl

theorem Conversion.strip_eq_unchanged_iff (c : Conversion) :
    c.strip = .unchanged ↔ c = .unchanged := by
  cases c <;> simp [strip]

theorem Model.result_convertOnce_strip (m : Model) (target : Precision) :
    (m.strip.convertOnce target).result =
      ((m.convertOnce target).result.mapError (Stop.map ConvertError.strip)).map
        Conversion.strip := by
  have htag : m.strip.isConverted = m.isConverted := rfl
  unfold convertOnce
  rw [htag]
  split
  · rfl
  · rw [Traced.result_bind, Traced.result_bind, result_convert_strip]
    rcases (m.convert target).result with e | m' <;> rfl

/-! ### Outcomes -/

/-- Two outcomes that go together: one is a value if the other is, the values are related
    as given, and errors are of the same kind; an overflow goes with an overflow only. -/
structure OutcomesMatch {α β : Type} (R : α → β → Prop) (x : Except (Stop ConvertError) α)
    (y : Except (Stop ConvertError) β) : Prop where
  succeeds : (∃ b, y = .ok b) ↔ ∃ a, x = .ok a
  values : ∀ a b, x = .ok a → y = .ok b → R a b
  kinds : ∀ s s', x = .error s → y = .error s' →
    s'.map ConvertError.kind = s.map ConvertError.kind

theorem outcomesMatch_strip {α : Type} {R : α → α → Prop} {f : α → α} (hf : ∀ a, R a (f a))
    (x : Except (Stop ConvertError) α) :
    OutcomesMatch R x ((x.mapError (Stop.map ConvertError.strip)).map f) := by
  rcases x with stop | a
  · constructor
    · simp [Except.mapError, Except.map]
    · rintro a b ⟨⟩
    · rintro _ _ ⟨⟩ ⟨⟩
      exact stop.kind_map_strip
  · constructor
    · simp [Except.mapError, Except.map]
    · rintro _ _ ⟨⟩ ⟨⟩
      exact hf a
    · rintro s s' ⟨⟩

/-- **Stripping commutes with conversion.**  Of a model that is a converted one already,
    nothing is made on either side. -/
theorem Model.convert_strip_matches (m : Model) (target : Precision) :
    OutcomesMatch (fun m' stripped => stripped = m'.strip)
      (m.convert target).result (m.strip.convert target).result ∧
    OutcomesMatch
      (fun c c' => (c' = .unchanged ↔ c = .unchanged) ∧ c'.result m.strip = (c.result m).strip)
      (m.convertOnce target).result (m.strip.convertOnce target).result := by
  constructor
  · rw [result_convert_strip]
    apply outcomesMatch_strip
    intro m'
    rfl
  · rw [result_convertOnce_strip]
    apply outcomesMatch_strip
    intro c
    exact ⟨c.strip_eq_unchanged_iff, c.result_strip m⟩

end Mpsx
