/-
  Mpsx/Proofs/Onnx/Supported.lean
  ===============================
  **Which messages are models.**  What a model cannot express is refused, and nothing
  else is.  The conditions are stated for one graph at a time, on the fields of its
  message: no sparse initializers, descriptors of tensors only, attributes of the ten
  kinds that hold a value, tensors that carry their data with them.  A graph is read if
  and only if these conditions hold of it and of every graph that is reached from it
  through an attribute.

  Which of its fields an attribute is read from is part of the conditions: a field that
  is not selected may hold anything.
-/

import Mathlib.Logic.Relation
import Mpsx.Proofs.Onnx.Reading

namespace Mpsx.Onnx

open Wire

/-! ### The kind of an attribute -/

/-- The kinds that an attribute of a model can have, in the order in which the fields of
    an undeclared attribute are tried. -/
def supportedKinds : List AttributeKind :=
  [.float, .int, .string, .tensor, .graph, .floats, .ints, .strings, .tensors, .graphs]

def fills (a : Message) : AttributeKind → Bool
  | .float => (a.fixed32? AttributeField.float).isSome
  | .int => (a.varint? AttributeField.int).isSome
  | .string => (a.bytes? AttributeField.string).isSome
  | .tensor => (a.message? AttributeField.tensor).isSome
  | .graph => (a.message? AttributeField.graph).isSome
  | .floats => !(a.fixed32s AttributeField.floats).isEmpty
  | .ints => !(a.varints AttributeField.ints).isEmpty
  | .strings => !(a.blobs AttributeField.strings).isEmpty
  | .tensors => !(a.messages AttributeField.tensors).isEmpty
  | .graphs => !(a.messages AttributeField.graphs).isEmpty
  | _ => false

def Declares (a : Message) (kind : AttributeKind) : Prop :=
  kind ≠ .undefined ∧
    ∃ v, a.varint? AttributeField.kind = some v ∧ v.toUInt32.toNat = kind.code.toNat

/-- The kind by which an attribute counts: the declared one, or else that of the first
    field that is filled. -/
def Selects (a : Message) (kind : AttributeKind) : Prop :=
  Declares a kind ∨ (∀ k, ¬Declares a k) ∧ supportedKinds.find? (fills a) = some kind

theorem AttributeKind.ofCode?_eq_some_iff {code : UInt32} {kind : AttributeKind} :
    AttributeKind.ofCode? code = some kind ↔ code.toNat = kind.code.toNat := by
  unfold AttributeKind.ofCode?
  constructor
  · intro h
    split at h <;> cases h <;> assumption
  · intro h
    rw [h]
    cases kind <;> rfl

theorem declaredKind?_eq_some_iff {a : Message} {kind : AttributeKind} :
    declaredKind? a = some kind ↔ Declares a kind := by
  simp only [declaredKind?, Declares, Option.filter_eq_some_iff, Option.bind_eq_some_iff,
    AttributeKind.ofCode?_eq_some_iff, decide_eq_true_eq]
  exact and_comm

/-- The first entry that passes a test, as a chain of questions. -/
theorem getD_find?_cons {α : Type} (p : α → Bool) (x d : α) (rest : List α) :
    ((x :: rest).find? p).getD d = if p x then x else (rest.find? p).getD d := by
  rw [List.find?_cons]
  cases p x <;> rfl

theorem filledKind_eq (a : Message) :
    filledKind a = (supportedKinds.find? (fills a)).getD .undefined := by
  simp only [supportedKinds, getD_find?_cons]
  rfl

theorem selects_iff {a : Message} {kind : AttributeKind} :
    Selects a kind ↔ kind ≠ .undefined ∧ selectedKind a = kind := by
  unfold Selects selectedKind
  simp only [← declaredKind?_eq_some_iff, filledKind_eq]
  cases hdeclared : declaredKind? a with
  | some d =>
    have hd : d ≠ .undefined := (declaredKind?_eq_some_iff.mp hdeclared).1
    simp only [Option.some.injEq, Option.getD_some]
    constructor
    · rintro (rfl | ⟨hnone, -⟩)
      · exact ⟨hd, rfl⟩
      · exact absurd rfl (hnone d)
    · rintro ⟨-, rfl⟩
      exact .inl rfl
  | none =>
    simp only [reduceCtorEq, not_false_eq_true, implies_true, true_and, false_or,
      Option.getD_none]
    cases hfound : supportedKinds.find? (fills a) with
    | some k =>
      have hk : k ≠ .undefined := by
        rintro rfl
        exact absurd (List.mem_of_find?_eq_some hfound) (by decide)
      simp only [Option.some.injEq, Option.getD_some]
      constructor
      · rintro rfl
        exact ⟨hk, rfl⟩
      · exact And.right
    | none =>
      simp only [reduceCtorEq, Option.getD_none, false_iff]
      rintro ⟨hne, rfl⟩
      exact hne rfl

/-! ### What is supported -/

def IsText (bytes : Bytes) : Prop := ∃ s, Bytes.ofString s = bytes

structure SupportedTensor (t : Message) : Prop where
  dims : ∀ d ∈ t.varints TensorField.dims, 0 ≤ d.toInt64.toInt
  inside : ∀ v, t.varint? TensorField.location = some v → v.toUInt32 ≠ 1

/-- A descriptor that gives no type, a type that is left open, or a tensor type. -/
def SupportedValue (v : Message) : Prop :=
  ∀ t n k, v.message? ValueInfoField.type = some t → t.chosen? typeMembers = some (n, k) →
    n = TypeField.tensor

def SupportedField (a : Message) : AttributeKind → Prop
  | .string => ∀ b, a.bytes? AttributeField.string = some b → IsText b
  | .strings => ∀ b ∈ a.blobs AttributeField.strings, IsText b
  | .tensor => ∃ t, a.message? AttributeField.tensor = some t ∧ SupportedTensor t
  | .tensors => ∀ t ∈ a.messages AttributeField.tensors, SupportedTensor t
  | .graph => a.message? AttributeField.graph ≠ none
  | _ => True

structure SupportedAttribute (a : Message) : Prop where
  ownValue : a.text? AttributeField.reference = none
  field : ∃ kind ∈ supportedKinds, Selects a kind ∧ SupportedField a kind

/-- A graph in which nothing has to be refused, its subgraphs aside. -/
structure SupportedGraph (g : Message) : Prop where
  dense : g.messages GraphField.sparseInitializer = []
  inputs : ∀ v ∈ g.messages GraphField.input, SupportedValue v
  outputs : ∀ v ∈ g.messages GraphField.output, SupportedValue v
  attributes : ∀ n ∈ g.messages GraphField.node, ∀ a ∈ n.messages NodeField.attr,
    SupportedAttribute a
  initializers : ∀ t ∈ g.messages GraphField.initializer, SupportedTensor t

def HoldsGraph (a k : Message) : Prop :=
  (Selects a .graph ∧ a.message? AttributeField.graph = some k) ∨
    Selects a .graphs ∧ k ∈ a.messages AttributeField.graphs

def Subgraph (g k : Message) : Prop :=
  ∃ n ∈ g.messages GraphField.node, ∃ a ∈ n.messages NodeField.attr, HoldsGraph a k

theorem supportedAttribute_iff {a : Message} :
    SupportedAttribute a ↔ a.text? AttributeField.reference = none ∧
      selectedKind a ∈ supportedKinds ∧ SupportedField a (selectedKind a) := by
  constructor
  · rintro ⟨hown, kind, hmem, hselects, hfield⟩
    obtain ⟨-, rfl⟩ := selects_iff.mp hselects
    exact ⟨hown, hmem, hfield⟩
  · rintro ⟨hown, hmem, hfield⟩
    have hne : selectedKind a ≠ .undefined := by
      intro h
      rw [h] at hmem
      exact absurd hmem (by decide)
    exact ⟨hown, _, hmem, selects_iff.mpr ⟨hne, rfl⟩, hfield⟩

theorem holdsGraph_iff {a k : Message} :
    HoldsGraph a k ↔ (selectedKind a = .graph ∧ a.message? AttributeField.graph = some k) ∨
      selectedKind a = .graphs ∧ k ∈ a.messages AttributeField.graphs := by
  simp [HoldsGraph, selects_iff]

theorem weight_lt_of_subgraph {g k : Message} (h : Subgraph g k) : k.weight < g.weight := by
  obtain ⟨n, hn, a, ha, hk⟩ := h
  have h1 := Message.weight_lt_of_mem_messages hn
  have h2 := Message.weight_lt_of_mem_messages ha
  have h3 : k.weight < a.weight := by
    rcases hk with ⟨-, hk⟩ | ⟨-, hk⟩
    · exact Message.weight_lt_of_message? hk
    · exact Message.weight_lt_of_mem_messages hk
  omega

/-! ### Reading without a directory -/

section Reading

variable {read : Path → Except FileError Bytes}

theorem exists_readText_iff {attr : String} {bytes : Bytes} :
    (∃ s, (readText attr bytes).result = .ok s) ↔ IsText bytes := by
  unfold IsText readText
  simp only [← Utf8.decode_eq_ok_iff]
  cases Utf8.decode bytes with
  | ok s => simp
  | error why => simp

theorem toInt_toInt64_nonneg_iff {d : UInt64} : 0 ≤ d.toInt64.toInt ↔ d.toNat < 2 ^ 63 := by
  show 0 ≤ d.toBitVec.toInt ↔ d.toBitVec.toNat < 2 ^ 63
  rw [BitVec.toInt_eq_toNat_cond]
  split <;> omega

theorem isExternal_eq_true_iff {t : Message} :
    isExternal t = true ↔ ∃ v, t.varint? TensorField.location = some v ∧ v.toUInt32 = 1 := by
  rw [isExternal, decide_eq_true_eq, Option.map_eq_some_iff]

theorem externalData_ne_ok {tensor : String} {entries : List (String × String)} {bytes : Bytes} :
    (externalData ⟨read, none⟩ tensor entries).result ≠ .ok bytes := by
  intro h
  cases h

theorem exists_readTensor_iff {t : Message} :
    (∃ tensor, (readTensor ⟨read, none⟩ t).result = .ok tensor) ↔ SupportedTensor t := by
  constructor
  · rintro ⟨tensor, h⟩
    obtain ⟨hdims, -, -, -, hpayload⟩ := readTensor_eq_ok_iff.mp h
    constructor
    · intro d hd
      exact toInt_toInt64_nonneg_iff.mpr (hdims d hd)
    · intro v hv hone
      rw [ReadsPayload, if_pos (isExternal_eq_true_iff.mpr ⟨v, hv, hone⟩)] at hpayload
      obtain ⟨bytes, hbytes, -⟩ := hpayload
      exact externalData_ne_ok hbytes
  · rintro ⟨hdims, hinside⟩
    have hexternal : isExternal t ≠ true := by
      intro h
      obtain ⟨v, hv, hone⟩ := isExternal_eq_true_iff.mp h
      exact hinside v hv hone
    have hpayload : ∃ payload, ReadsPayload ⟨read, none⟩ t payload := by
      simp only [ReadsPayload, if_neg hexternal, exists_eq]
    obtain ⟨payload, hpayload⟩ := hpayload
    refine ⟨⟨textOf t TensorField.name, t.varints TensorField.dims,
      elementTypeOf t TensorField.elementType, payload⟩, readTensor_eq_ok_iff.mpr ?_⟩
    refine ⟨?_, rfl, rfl, rfl, hpayload⟩
    intro d hd
    exact toInt_toInt64_nonneg_iff.mp (hdims d hd)

theorem exists_readValueInfo_iff {v : Message} :
    (∃ info, (readValueInfo v).result = .ok info) ↔ SupportedValue v := by
  unfold readValueInfo SupportedValue
  cases htype : (v.message? ValueInfoField.type).bind fun t => t.chosen? typeMembers with
  | none =>
    constructor
    · rintro - t n k ht hk
      rw [ht, Option.bind_some, hk] at htype
      cases htype
    · intro _
      exact ⟨_, rfl⟩
  | some chosen =>
    obtain ⟨number, k⟩ := chosen
    obtain ⟨t, ht, hk⟩ := Option.bind_eq_some_iff.mp htype
    dsimp only
    split
    · next htensor =>
      constructor
      · rintro - t' n k' ht' hk'
        rw [ht] at ht'
        cases ht'
        rw [hk] at hk'
        cases hk'
        exact htensor
      · intro _
        exact ⟨_, rfl⟩
    · next htensor =>
      constructor
      · rintro ⟨info, h⟩
        cases h
      · intro h
        exact absurd (h t number k ht hk) htensor

/-- An attribute is read if it is supported and the graphs in its selected field are
    read. -/
theorem exists_readAttribute_iff {a : Message} :
    (∃ p, (readAttribute ⟨read, none⟩ a).result = .ok p) ↔
      SupportedAttribute a ∧
        ∀ k, HoldsGraph a k → ∃ graph, (readGraph ⟨read, none⟩ k).result = .ok graph := by
  rw [supportedAttribute_iff]
  simp only [holdsGraph_iff]
  rw [readAttribute]
  by_cases href : a.text? AttributeField.reference = none
  · rw [if_neg (by simp [href])]
    cases hkind : selectedKind a with
    | tensor =>
      dsimp only
      rw [Traced.exists_bind_iff]
      simp only [Traced.require_eq_ok_iff, Traced.exists_bind_pure_iff, exists_readTensor_iff]
      simp [href, SupportedField, supportedKinds]
    | tensors =>
      dsimp only
      rw [Traced.exists_bind_pure_iff, Traced.exists_mapM_iff]
      simp only [exists_readTensor_iff]
      simp [href, SupportedField, supportedKinds]
    | string =>
      dsimp only
      rw [Traced.exists_bind_pure_iff, exists_readText_iff]
      cases hs : a.bytes? AttributeField.string with
      | none =>
        -- a missing text is the empty one
        have hempty : IsText [] := ⟨"", rfl⟩
        simp [hs, hempty, href, SupportedField, supportedKinds]
      | some b => simp [hs, href, SupportedField, supportedKinds]
    | strings =>
      dsimp only
      rw [Traced.exists_bind_pure_iff, Traced.exists_mapM_iff]
      simp only [exists_readText_iff]
      simp [href, SupportedField, supportedKinds]
    | graph =>
      dsimp only
      split
      · next hnone => simp [hnone, SupportedField]
      · next g hg =>
        rw [Traced.exists_bind_pure_iff]
        simp [hg, href, SupportedField, supportedKinds]
    | graphs =>
      dsimp only
      rw [List.mapM_subtype (g := readGraph ⟨read, none⟩) (by intros; rfl), List.unattach_attach,
        Traced.exists_bind_pure_iff, Traced.exists_mapM_iff]
      simp [href, SupportedField, supportedKinds]
    | _ => simp [href, SupportedField, supportedKinds]
  · rw [if_pos (Option.isSome_iff_ne_none.mpr href)]
    simp [href]

theorem exists_readNode_iff {n : Message} :
    (∃ node, (readNode ⟨read, none⟩ n).result = .ok node) ↔
      ∀ a ∈ n.messages NodeField.attr, ∃ p, (readAttribute ⟨read, none⟩ a).result = .ok p := by
  rw [← Traced.exists_forall₂_iff]
  constructor
  · rintro ⟨node, h⟩
    obtain ⟨-, -, -, -, -, -, hattributes⟩ := readNode_eq_ok_iff.mp h
    exact ⟨node.attributes, hattributes⟩
  · rintro ⟨attributes, hattributes⟩
    exact ⟨⟨_, _, _, _, _, attributes, _⟩,
      readNode_eq_ok_iff.mpr ⟨rfl, rfl, rfl, rfl, rfl, rfl, hattributes⟩⟩

/-- One graph: its own conditions, and its subgraphs one level down. -/
theorem exists_readGraph_iff {g : Message} :
    (∃ graph, (readGraph ⟨read, none⟩ g).result = .ok graph) ↔
      SupportedGraph g ∧
        ∀ k, Subgraph g k → ∃ graph, (readGraph ⟨read, none⟩ k).result = .ok graph := by
  constructor
  · rintro ⟨graph, h⟩
    obtain ⟨hdense, -, -, hnodes, hinputs, houtputs, hinitializers⟩ := readGraph_eq_ok_iff.mp h
    have hattributes : ∀ n ∈ g.messages GraphField.node, ∀ a ∈ n.messages NodeField.attr,
        SupportedAttribute a ∧
          ∀ k, HoldsGraph a k → ∃ graph, (readGraph ⟨read, none⟩ k).result = .ok graph := by
      intro n hn a ha
      have hnode := Traced.exists_forall₂_iff.mp ⟨_, hnodes⟩ n hn
      exact exists_readAttribute_iff.mp (exists_readNode_iff.mp hnode a ha)
    constructor
    · constructor
      case dense => exact hdense
      case inputs =>
        intro v hv
        exact exists_readValueInfo_iff.mp (Traced.exists_forall₂_iff.mp ⟨_, hinputs⟩ v hv)
      case outputs =>
        intro v hv
        exact exists_readValueInfo_iff.mp (Traced.exists_forall₂_iff.mp ⟨_, houtputs⟩ v hv)
      case attributes =>
        intro n hn a ha
        exact (hattributes n hn a ha).1
      case initializers =>
        intro t ht
        exact exists_readTensor_iff.mp (Traced.exists_forall₂_iff.mp ⟨_, hinitializers⟩ t ht)
    · rintro k ⟨n, hn, a, ha, hk⟩
      exact (hattributes n hn a ha).2 k hk
  · rintro ⟨hg, hsubgraphs⟩
    have hnode : ∀ n ∈ g.messages GraphField.node,
        ∃ node, (readNode ⟨read, none⟩ n).result = .ok node := by
      intro n hn
      apply exists_readNode_iff.mpr
      intro a ha
      apply exists_readAttribute_iff.mpr
      exact ⟨hg.attributes n hn a ha, fun k hk => hsubgraphs k ⟨n, hn, a, ha, hk⟩⟩
    obtain ⟨nodes, hnodes⟩ := Traced.exists_forall₂_iff.mpr hnode
    obtain ⟨inputs, hinputs⟩ := Traced.exists_forall₂_iff.mpr fun v hv =>
      exists_readValueInfo_iff.mpr (hg.inputs v hv)
    obtain ⟨outputs, houtputs⟩ := Traced.exists_forall₂_iff.mpr fun v hv =>
      exists_readValueInfo_iff.mpr (hg.outputs v hv)
    obtain ⟨initializers, hinitializers⟩ := Traced.exists_forall₂_iff.mpr fun t ht =>
      exists_readTensor_iff.mpr (hg.initializers t ht)
    exact ⟨⟨_, nodes, inputs, outputs, initializers, _⟩, readGraph_eq_ok_iff.mpr
      ⟨hg.dense, rfl, rfl, hnodes, hinputs, houtputs, hinitializers⟩⟩

/-- A graph is read if nothing in it or in a graph reached from it has to be refused. -/
theorem exists_readGraph_iff_reached {g : Message} :
    (∃ graph, (readGraph ⟨read, none⟩ g).result = .ok graph) ↔
      ∀ k, Relation.ReflTransGen Subgraph g k → SupportedGraph k := by
  induction hw : g.weight using Nat.strongRecOn generalizing g with
  | ind w ih =>
    have hchild : ∀ k, Subgraph g k →
        ((∃ graph, (readGraph ⟨read, none⟩ k).result = .ok graph) ↔
          ∀ k', Relation.ReflTransGen Subgraph k k' → SupportedGraph k') := by
      intro k hk
      exact ih k.weight (hw ▸ weight_lt_of_subgraph hk) rfl
    rw [exists_readGraph_iff]
    constructor
    · rintro ⟨hself, hread⟩ k hk
      rcases Relation.ReflTransGen.cases_head hk with rfl | ⟨child, hstep, hrest⟩
      · exact hself
      · exact (hchild child hstep).mp (hread child hstep) k hrest
    · intro hall
      refine ⟨hall g .refl, ?_⟩
      intro k hk
      apply (hchild k hk).mpr
      intro k' hk'
      exact hall k' (.head hk hk')

end Reading

/-! ### Models -/

/-- **Exactly what a model cannot express is refused.**  A message with a graph is read,
    without other files, if and only if its graph and every graph reached from it through
    a selected attribute are supported. -/
theorem exists_readModel_iff (read : Path → Except FileError Bytes) {m g : Message}
    (hg : m.message? ModelField.graph = some g) :
    (∃ model, (readModel ⟨read, none⟩ m).result = .ok model) ↔
      ∀ k, Relation.ReflTransGen Subgraph g k → SupportedGraph k := by
  have hgraph : (∃ model, (readModel ⟨read, none⟩ m).result = .ok model) ↔
      ∃ graph, (readGraph ⟨read, none⟩ g).result = .ok graph := by
    rw [readModel, hg, Traced.exists_bind_iff]
    simp only [Traced.require_eq_ok_iff, Option.some.injEq, exists_eq_left',
      Traced.exists_bind_pure_iff]
  exact hgraph.trans exists_readGraph_iff_reached

/-- A graph with a tensor, an input of the given type, and a node with an attribute that has
    the given fields and, in the field for a graph, one with sparse initializers. -/
def sparseBranch (type fields : Message) : Message :=
  [.message GraphField.node [.message NodeField.attr
      (.message AttributeField.graph [.message GraphField.sparseInitializer []] :: fields)],
    .message GraphField.initializer [.packed TensorField.dims [.varint 2, .varint 0]],
    .message GraphField.input [.message ValueInfoField.type type]]

theorem supportedTensor_flat :
    SupportedTensor [.packed TensorField.dims [.varint 2, .varint 0]] := by
  constructor
  case dims =>
    intro d hd
    have hmem : d ∈ [2, 0] := hd
    rw [List.mem_cons, List.mem_singleton] at hmem
    rcases hmem with rfl | rfl
    · decide
    · decide
  case inside =>
    intro v hv
    cases hv

theorem not_supportedValue_sequence :
    ¬SupportedValue [.message ValueInfoField.type [.message TypeField.sequence []]] := by
  intro h
  exact absurd (h _ TypeField.sequence [] rfl rfl) (by decide)

/-- Where the attribute declares a number, the model is read; where it declares nothing,
    the graph counts, and the model is refused.  So is one whose input is no tensor. -/
theorem exists_readModel_sparseBranch :
    (∃ model, (readModel .none [.message ModelField.graph (sparseBranch
      [.message TypeField.tensor []] [.number AttributeField.kind (.varint 2)])]).result =
      .ok model) ∧
    (¬∃ model, (readModel .none [.message ModelField.graph (sparseBranch
      [.message TypeField.tensor []] [])]).result = .ok model) ∧
    ¬∃ model, (readModel .none [.message ModelField.graph (sparseBranch
      [.message TypeField.sequence []] [.number AttributeField.kind (.varint 2)])]).result =
      .ok model := by
  refine ⟨?_, ?_, ?_⟩
  · apply (exists_readModel_iff _ rfl).mpr
    intro k hk
    rcases Relation.ReflTransGen.cases_head hk with rfl | ⟨child, ⟨n, hn, a, ha, hchild⟩, -⟩
    · constructor
      case dense => rfl
      case inputs =>
        intro v hv t n k ht hchosen
        obtain rfl := List.mem_singleton.mp hv
        cases ht
        cases hchosen
        rfl
      case outputs =>
        intro v hv
        cases hv
      case attributes =>
        intro n hn a ha
        obtain rfl := List.mem_singleton.mp hn
        obtain rfl := List.mem_singleton.mp ha
        exact supportedAttribute_iff.mpr ⟨rfl, by decide, trivial⟩
      case initializers =>
        intro t ht
        obtain rfl := List.mem_singleton.mp ht
        exact supportedTensor_flat
    · obtain rfl := List.mem_singleton.mp hn
      obtain rfl := List.mem_singleton.mp ha
      rcases holdsGraph_iff.mp hchild with ⟨hkind, -⟩ | ⟨hkind, -⟩
      · exact absurd hkind (by decide)
      · exact absurd hkind (by decide)
  · intro h
    have hall := (exists_readModel_iff _ rfl).mp h
    have hsubgraph : Subgraph (sparseBranch [.message TypeField.tensor []] [])
        [.message GraphField.sparseInitializer []] :=
      ⟨_, List.mem_singleton.mpr rfl, _, List.mem_singleton.mpr rfl,
        holdsGraph_iff.mpr (.inl ⟨by decide, rfl⟩)⟩
    have hdense := (hall _ (.single hsubgraph)).dense
    cases hdense
  · intro h
    have hall := (exists_readModel_iff _ rfl).mp h
    exact not_supportedValue_sequence ((hall _ .refl).inputs _ (List.mem_singleton.mpr rfl))

end Mpsx.Onnx
