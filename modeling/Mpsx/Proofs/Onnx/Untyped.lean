/-
  Mpsx/Proofs/Onnx/Untyped.lean
  =============================
  **Attributes that do not say their kind.**  An attribute of a written model has one
  field with its value and one with its kind.  The value alone shows the kind, unless it
  is an empty list, which leaves no field at all.  So the kinds may be left out, or
  replaced by codes under which nothing is known, in any of the attributes at any depth,
  and the same is read: the same model, or the same error, and the same reports.

  `ForgetsKinds` relates a message to what is left of it.  The readers see a message
  through its views, and all views agree but that of the kind; the induction over the
  graphs of the model carries this from the attributes up.  A file that is nested too
  deeply is refused in both forms for the same reason.
-/

import Mathlib.Algebra.Group.Nat.Defs
import Mpsx.Proofs.Onnx.ReadBack
import Mpsx.Proofs.Onnx.Supported
import Mpsx.Proofs.Wire.Outcome

namespace Mpsx.Onnx

open Wire

/-! ### Forgetting kinds -/

/-- A code under which no kind is known but the undefined one. -/
def NamesNoKind (code : UInt64) : Prop :=
  ∀ kind : AttributeKind, code.toUInt32.toNat = kind.code.toNat → kind = .undefined

/-- The second message is the first one, with the kinds of some attributes left out or
    replaced by codes that name none. -/
inductive ForgetsKinds : MessageType → Message → Message → Prop where
  | nil {message : MessageType} : ForgetsKinds message [] []
  | keep {message : MessageType} {f : Field} {m w : Message} (hflat : f.depth = 0)
    (h : ForgetsKinds message m w) : ForgetsKinds message (f :: m) (f :: w)
  | enter {message inner : MessageType} {n : Nat} {fields fields' m w : Message}
    (hkind : schema.kind? message n = some (.message inner))
    (hfields : ForgetsKinds inner fields fields') (h : ForgetsKinds message m w) :
    ForgetsKinds message (.message n fields :: m) (.message n fields' :: w)
  | drop {x : Number} {m w : Message} (h : ForgetsKinds .attr m w) :
    ForgetsKinds .attr (.number AttributeField.kind x :: m) w
  | replace {x : Number} {code : UInt64} {m w : Message} (hcode : NamesNoKind code)
    (h : ForgetsKinds .attr m w) :
    ForgetsKinds .attr (.number AttributeField.kind x :: m)
      (.number AttributeField.kind (.varint code) :: w)

namespace ForgetsKinds

variable {message inner : MessageType} {m w m' w' : Message} {n : Nat}

theorem append (h : ForgetsKinds message m w) (h' : ForgetsKinds message m' w') :
    ForgetsKinds message (m ++ m') (w ++ w') := by
  induction h with
  | nil => exact h'
  | keep hflat _ ih => exact .keep hflat (ih h')
  | enter hkind hfields _ _ ih => exact .enter hkind hfields (ih h')
  | drop _ ih => exact .drop (ih h')
  | replace hcode _ ih => exact .replace hcode (ih h')

theorem flatten {ms ws : List Message} (h : List.Forall₂ (ForgetsKinds message) ms ws) :
    ForgetsKinds message ms.flatten ws.flatten := by
  induction h with
  | nil => exact .nil
  | cons hfirst _ ih => exact hfirst.append ih

/-! ### Views -/

/-- A view that looks neither at kinds nor into messages does not change. -/
theorem flatMap_eq {α : Type} {view : Field → List α} (h : ForgetsKinds message m w)
    (hmessage : ∀ k fields, view (.message k fields) = [])
    (hkind : message = .attr → ∀ x, view (.number AttributeField.kind x) = []) :
    w.flatMap view = m.flatMap view := by
  induction h with
  | nil => rfl
  | keep _ _ ih => rw [List.flatMap_cons, List.flatMap_cons, ih hkind]
  | enter _ _ _ _ ih =>
    rw [List.flatMap_cons, List.flatMap_cons, ih hkind, hmessage, hmessage]
  | drop _ ih =>
    rw [List.flatMap_cons, ih hkind, hkind rfl]
    rfl
  | replace _ _ ih =>
    rw [List.flatMap_cons, List.flatMap_cons, ih hkind, hkind rfl, hkind rfl]

theorem texts_eq (h : ForgetsKinds message m w) (n : Nat) : w.texts n = m.texts n := by
  simp only [Message.texts, List.filterMap_eq_flatMap_toList]
  exact h.flatMap_eq (fun _ _ => rfl) fun _ _ => rfl

theorem blobs_eq (h : ForgetsKinds message m w) (n : Nat) : w.blobs n = m.blobs n := by
  simp only [Message.blobs, List.filterMap_eq_flatMap_toList]
  exact h.flatMap_eq (fun _ _ => rfl) fun _ _ => rfl

/-- Only the kinds of attributes change. -/
theorem numbers_eq (h : ForgetsKinds message m w) (hn : message = .attr → n ≠ AttributeField.kind) :
    w.numbers n = m.numbers n :=
  h.flatMap_eq (fun _ _ => rfl) fun hattr _ => if_neg (hn hattr).symm

/-- What is found where a kind should be is the kind that was there, or names none. -/
theorem mem_kinds (h : ForgetsKinds message m w) {code : UInt64}
    (hcode : code ∈ w.varints AttributeField.kind) :
    code ∈ m.varints AttributeField.kind ∨ NamesNoKind code := by
  unfold Message.varints at hcode ⊢
  induction h with
  | nil => cases hcode
  | keep _ _ ih =>
    rw [Message.numbers_cons, List.filterMap_append, List.mem_append] at hcode ⊢
    rcases hcode with hcode | hcode
    · exact .inl (.inl hcode)
    · exact (ih hcode).imp_left .inr
  | enter _ _ _ _ ih => exact ih hcode
  | drop _ ih =>
    rw [Message.numbers_cons, List.filterMap_append, List.mem_append]
    exact (ih hcode).imp_left .inr
  | @replace x code' _ _ hnone _ ih =>
    rw [Message.numbers_cons, List.filterMap_append, List.mem_append] at hcode ⊢
    rcases hcode with hcode | hcode
    · have heq : code = code' := by simpa [Field.numbers, Number.varint?] using hcode
      rw [heq]
      exact .inr hnone
    · exact (ih hcode).imp_left .inr

theorem messages (h : ForgetsKinds message m w)
    (hkind : schema.kind? message n = some (.message inner)) :
    List.Forall₂ (ForgetsKinds inner) (m.messages n) (w.messages n) := by
  induction h with
  | nil => exact .nil
  | @keep _ f _ _ hflat _ ih =>
    cases f with
    | message k fields => simp at hflat
    | _ => simpa [Field.message?] using ih hkind
  | @enter _ inner' k fields fields' _ _ hkind' hfields _ _ ih =>
    rw [Message.messages_cons, Message.messages_cons, Field.message?, Field.message?]
    by_cases hk : k = n
    · subst hk
      cases hkind.symm.trans hkind'
      simpa using ⟨hfields, ih hkind⟩
    · simpa [hk] using ih hkind
  | drop _ ih => simpa [Field.message?] using ih hkind
  | replace _ _ ih => simpa [Field.message?] using ih hkind

/-- A field that holds one message in pieces. -/
theorem message?_cases (h : ForgetsKinds message m w)
    (hkind : schema.kind? message n = some (.message inner)) :
    (m.message? n = none ∧ w.message? n = none) ∨
      ∃ k k', m.message? n = some k ∧ w.message? n = some k' ∧ ForgetsKinds inner k k' := by
  have hmessages := h.messages hkind
  unfold Message.message?
  cases hm : m.messages n with
  | nil =>
    rw [hm] at hmessages
    rw [List.forall₂_nil_left_iff.mp hmessages]
    exact .inl ⟨rfl, rfl⟩
  | cons k ks =>
    cases hw : w.messages n with
    | nil =>
      rw [hm, hw] at hmessages
      cases hmessages
    | cons k' ks' =>
      rw [hm, hw] at hmessages
      exact .inr ⟨_, _, rfl, rfl, flatten hmessages⟩

end ForgetsKinds

/-! ### Messages without attributes -/

/-- The messages that have no attributes in them at any depth. -/
def MessageType.isPlain : MessageType → Bool
  | attr | node | graph | model => false
  | _ => true

theorem isPlain_inner {message inner : MessageType} {n : Nat} (h : message.isPlain = true)
    (hkind : schema.kind? message n = some (.message inner)) : inner.isPlain = true := by
  have hall : ∀ p ∈ MessageType.fields message, ∀ inner ∈ [MessageType.attr, .node, .graph, .model],
      p.2.kind ≠ .message inner := by
    cases message <;> first | (exact absurd h (by decide)) | decide
  obtain ⟨d, hd, hdkind⟩ := Option.map_eq_some_iff.mp hkind
  obtain ⟨before, after, hsplit, _⟩ := List.lookup_eq_some_iff.mp hd
  by_contra hinner
  apply hall (n, d) (by rw [hsplit]; simp) inner ?_ hdkind
  cases inner <;> first | decide | exact absurd rfl hinner

namespace ForgetsKinds

variable {message inner : MessageType} {m w : Message} {n : Nat}

theorem eq_of_isPlain (h : ForgetsKinds message m w) (hplain : message.isPlain = true) :
    w = m := by
  induction h with
  | nil => rfl
  | keep _ _ ih => rw [ih hplain]
  | enter hkind _ _ ihfields ih => rw [ih hplain, ihfields (isPlain_inner hplain hkind)]
  | drop _ _ => exact absurd hplain (by decide)
  | replace _ _ _ => exact absurd hplain (by decide)

theorem messages_eq (h : ForgetsKinds message m w)
    (hkind : schema.kind? message n = some (.message inner)) (hplain : inner.isPlain = true) :
    w.messages n = m.messages n := by
  have hsame : List.Forall₂ Eq (m.messages n) (w.messages n) :=
    (h.messages hkind).imp fun _ _ hk => (hk.eq_of_isPlain hplain).symm
  rw [List.forall₂_eq_eq_eq] at hsame
  exact hsame.symm

theorem fills_eq (h : ForgetsKinds .attr m w) : fills w = fills m := by
  have hgraph : (w.message? AttributeField.graph).isSome =
      (m.message? AttributeField.graph).isSome := by
    rcases h.message?_cases (n := AttributeField.graph) rfl with ⟨hm, hw⟩ | ⟨g, k, hm, hw, -⟩
    · rw [hm, hw]
    · rw [hm, hw]
      rfl
  have hgraphs : (w.messages AttributeField.graphs).isEmpty =
      (m.messages AttributeField.graphs).isEmpty := by
    have hrelated := h.messages (n := AttributeField.graphs) rfl
    generalize m.messages AttributeField.graphs = before at hrelated ⊢
    generalize w.messages AttributeField.graphs = after at hrelated ⊢
    cases hrelated <;> rfl
  funext kind
  cases kind with
  | float =>
    simp only [fills, Message.fixed32?, Message.fixed32s,
      h.numbers_eq (n := AttributeField.float) (by decide)]
  | int =>
    simp only [fills, Message.varint?, Message.varints,
      h.numbers_eq (n := AttributeField.int) (by decide)]
  | string => simp only [fills, Message.bytes?, h.blobs_eq]
  | tensor =>
    simp only [fills, Message.message?, h.messages_eq (n := AttributeField.tensor) rfl rfl]
  | graph => exact hgraph
  | floats =>
    simp only [fills, Message.fixed32s, h.numbers_eq (n := AttributeField.floats) (by decide)]
  | ints => simp only [fills, Message.varints, h.numbers_eq (n := AttributeField.ints) (by decide)]
  | strings => simp only [fills, h.blobs_eq]
  | tensors => simp only [fills, h.messages_eq (n := AttributeField.tensors) rfl rfl]
  | graphs => simp only [fills, hgraphs]
  | _ => rfl

/-! ### Readers -/

variable (source : Source)

theorem readGraph_eq (h : ForgetsKinds .graph m w)
    (hnodes : ∀ n ∈ m.messages GraphField.node, ∀ k, ForgetsKinds .node n k →
      readNode source k = readNode source n) :
    readGraph source w = readGraph source m := by
  rw [readGraph, readGraph, List.mapM_subtype (g := readNode source) (by intros; rfl),
    List.mapM_subtype (g := readNode source) (by intros; rfl), List.unattach_attach,
    List.unattach_attach, Traced.mapM_eq_of_forall₂ (h.messages (n := GraphField.node) rfl) hnodes]
  simp only [textOf, Message.text?, h.texts_eq,
    h.messages_eq (n := GraphField.sparseInitializer) rfl rfl,
    h.messages_eq (n := GraphField.valueInfo) rfl rfl,
    h.messages_eq (n := GraphField.input) rfl rfl,
    h.messages_eq (n := GraphField.output) rfl rfl,
    h.messages_eq (n := GraphField.initializer) rfl rfl]

theorem readNode_eq (h : ForgetsKinds .node m w)
    (hattributes : ∀ a ∈ m.messages NodeField.attr, ∀ k, ForgetsKinds .attr a k →
      readAttribute source k = readAttribute source a) :
    readNode source w = readNode source m := by
  rw [readNode, readNode, List.mapM_subtype (g := readAttribute source) (by intros; rfl),
    List.mapM_subtype (g := readAttribute source) (by intros; rfl), List.unattach_attach,
    List.unattach_attach, Traced.mapM_eq_of_forall₂ (h.messages (n := NodeField.attr) rfl)
      hattributes]
  simp only [textOf, Message.text?, h.texts_eq]

theorem readAttribute_eq (h : ForgetsKinds .attr m w) (hselected : selectedKind w = selectedKind m)
    (hgraphs : ∀ g, m.message? AttributeField.graph = some g ∨
        g ∈ m.messages AttributeField.graphs →
      ∀ k, ForgetsKinds .graph g k → readGraph source k = readGraph source g) :
    readAttribute source w = readAttribute source m := by
  have hname : textOf w AttributeField.name = textOf m AttributeField.name := by
    rw [textOf, textOf, Message.text?, Message.text?, h.texts_eq]
  have hreference : w.text? AttributeField.reference = m.text? AttributeField.reference := by
    rw [Message.text?, Message.text?, h.texts_eq]
  rw [readAttribute, readAttribute, hselected, hname, hreference]
  split
  · rfl
  · cases selectedKind m with
    | graph =>
      dsimp only
      -- the matches carry proofs about their messages, so they are split, not rewritten
      rcases h.message?_cases (n := AttributeField.graph) rfl with ⟨hm, hw⟩ | ⟨g, k, hm, hw, hk⟩
      · split
        · split
          · rfl
          · next hsome => cases hsome.symm.trans hm
        · next hsome => cases hsome.symm.trans hw
      · split
        · next hnone => cases hnone.symm.trans hw
        · next hk' =>
          cases hk'.symm.trans hw
          split
          · next hnone => cases hnone.symm.trans hm
          · next hg' =>
            cases hg'.symm.trans hm
            rw [hgraphs g (.inl hm) k hk]
    | graphs =>
      dsimp only
      rw [List.mapM_subtype (g := readGraph source) (by intros; rfl),
        List.mapM_subtype (g := readGraph source) (by intros; rfl), List.unattach_attach,
        List.unattach_attach,
        Traced.mapM_eq_of_forall₂ (h.messages (n := AttributeField.graphs) rfl)
          fun g hg => hgraphs g (.inr hg)]
    | float =>
      simp only [Message.fixed32?, Message.fixed32s,
        h.numbers_eq (n := AttributeField.float) (by decide)]
    | int =>
      simp only [Message.varint?, Message.varints,
        h.numbers_eq (n := AttributeField.int) (by decide)]
    | string => simp only [Message.bytes?, h.blobs_eq]
    | tensor => simp only [Message.message?, h.messages_eq (n := AttributeField.tensor) rfl rfl]
    | floats => simp only [Message.fixed32s, h.numbers_eq (n := AttributeField.floats) (by decide)]
    | ints => simp only [Message.varints, h.numbers_eq (n := AttributeField.ints) (by decide)]
    | strings => simp only [h.blobs_eq]
    | tensors => simp only [h.messages_eq (n := AttributeField.tensors) rfl rfl]
    | _ => rfl

theorem readModel_eq (h : ForgetsKinds .model m w)
    (hgraph : ∀ g, m.message? ModelField.graph = some g → ∀ k, ForgetsKinds .graph g k →
      readGraph source k = readGraph source g) :
    readModel source w = readModel source m := by
  have hrest : w.varint? ModelField.irVersion = m.varint? ModelField.irVersion ∧
      w.messages ModelField.operatorSet = m.messages ModelField.operatorSet := by
    rw [Message.varint?, Message.varint?, Message.varints, Message.varints,
      h.numbers_eq (by simp)]
    exact ⟨rfl, h.messages_eq (n := ModelField.operatorSet) rfl rfl⟩
  unfold readModel
  simp only [hrest, Message.text?, h.texts_eq]
  rcases h.message?_cases (n := ModelField.graph) rfl with ⟨hm, hw⟩ | ⟨g, k, hm, hw, hk⟩
  · rw [hm, hw]
  · rw [hm, hw]
    simp only [Traced.require, pure_bind, hgraph g hm k hk]

end ForgetsKinds

/-! ### Written attributes -/

/-- A list without entries, of which nothing is written but its kind. -/
def isEmptyList : Attribute → Bool
  | .floats xs => xs.isEmpty
  | .ints ns => ns.isEmpty
  | .strings ss => ss.isEmpty
  | .tensors ts => ts.isEmpty
  | .graphs gs => gs.isEmpty
  | _ => false

theorem kinds_writeNamedAttribute (p : String × Attribute) :
    Message.varints (writeNamedAttribute p) AttributeField.kind = [(kindOf p.2).code] := by
  obtain ⟨name, a⟩ := p
  cases a <;>
    simp +decide [Message.varints, writeNamedAttribute, writeAttribute, writeGraphs_eq_map,
      Field.numbers, Number.varint?, ofInt64]

theorem filledKind_writeNamedAttribute {p : String × Attribute} (h : isEmptyList p.2 = false) :
    filledKind (writeNamedAttribute p) = kindOf p.2 := by
  obtain ⟨name, a⟩ := p
  -- in every case the fields tried before that of the value are missing
  cases a with
  | floats | ints | strings | tensors | graphs =>
    obtain ⟨first, rest, rfl⟩ := List.exists_cons_of_ne_nil (List.isEmpty_eq_false_iff.mp h)
    simp +decide [filledKind, Message.fixed32?, Message.varint?, Message.bytes?, Message.message?,
      Message.fixed32s, Message.varints, writeNamedAttribute, writeAttribute, writeGraphs_eq_map,
      Field.numbers, Field.bytes?, Field.message?, Number.varint?, Number.fixed32?, kindOf, ofInt64]
  | _ =>
    simp +decide [filledKind, Message.fixed32?, Message.varint?, Message.bytes?, Message.message?,
      Message.fixed32s, Message.varints, writeNamedAttribute, writeAttribute, Field.numbers,
      Field.bytes?, Field.message?, Number.varint?, Number.fixed32?, kindOf, ofInt64]

/-- The kind is known from its field or from the value. -/
theorem ForgetsKinds.selectedKind_eq {p : String × Attribute} {w : Message}
    (h : ForgetsKinds .attr (writeNamedAttribute p) w) (hvalue : isEmptyList p.2 = false) :
    selectedKind w = selectedKind (writeNamedAttribute p) := by
  have hfilled : filledKind w = kindOf p.2 := by
    rw [← filledKind_writeNamedAttribute hvalue, filledKind_eq, filledKind_eq, h.fills_eq]
  rw [selectedKind_writeNamedAttribute, selectedKind, hfilled]
  cases hdeclared : declaredKind? w with
  | none => rfl
  | some kind =>
    -- a kind that is declared is the one that was written
    obtain ⟨hne, code, hcode, hkind⟩ := declaredKind?_eq_some_iff.mp hdeclared
    rcases h.mem_kinds (List.mem_of_getLast? hcode) with hwritten | hnone
    · rw [kinds_writeNamedAttribute, List.mem_singleton] at hwritten
      rw [hwritten] at hkind
      have hcode' : AttributeKind.ofCode? (kindOf p.2).code.toUInt32 = some (kindOf p.2) := by
        cases kindOf p.2 <;> rfl
      exact Option.some.inj ((AttributeKind.ofCode?_eq_some_iff.mpr hkind).symm.trans hcode')
    · exact absurd (hnone kind hkind) hne

theorem exists_of_graph_writeNamedAttribute {p : String × Attribute} {k : Message}
    (h : Message.message? (writeNamedAttribute p) AttributeField.graph = some k ∨
      k ∈ Message.messages (writeNamedAttribute p) AttributeField.graphs) :
    ∃ g ∈ p.2.heldGraphs, writeGraph g = k := by
  obtain ⟨name, a⟩ := p
  cases a with
  | graph | graphs =>
    simpa +decide [Message.message?, writeNamedAttribute, writeAttribute, writeGraphs_eq_map,
      Field.message?, Attribute.heldGraphs] using h
  | _ =>
    simp +decide [Message.message?, writeNamedAttribute, writeAttribute, Field.message?,
      ofInt64] at h

/-! ### Graphs and models -/

section Readers

variable (source : Source) {w : Message}

theorem readAttribute_of_forgetsKinds {p : String × Attribute} (hvalue : isEmptyList p.2 = false)
    (hgraphs : ∀ g ∈ p.2.heldGraphs, ∀ k, ForgetsKinds .graph (writeGraph g) k →
      readGraph source k = readGraph source (writeGraph g))
    (h : ForgetsKinds .attr (writeNamedAttribute p) w) :
    readAttribute source w = readAttribute source (writeNamedAttribute p) := by
  apply h.readAttribute_eq source (h.selectedKind_eq hvalue)
  intro k hk
  obtain ⟨g, hg, rfl⟩ := exists_of_graph_writeNamedAttribute hk
  exact hgraphs g hg

theorem readNode_of_forgetsKinds {n : Node}
    (hattributes : ∀ p ∈ n.attributes, ∀ k, ForgetsKinds .attr (writeNamedAttribute p) k →
      readAttribute source k = readAttribute source (writeNamedAttribute p))
    (h : ForgetsKinds .node (writeNode n) w) :
    readNode source w = readNode source (writeNode n) := by
  apply h.readNode_eq
  rw [attributes_writeNode, List.forall_mem_map]
  exact hattributes

/-- A graph is read alike, if no attribute in it is an empty list, at any depth. -/
theorem readGraph_of_forgetsKinds (g : Graph)
    (hvalues : ∀ k ∈ g.subgraphs, ∀ a ∈ k.attributes, isEmptyList a = false)
    (h : ForgetsKinds .graph (writeGraph g) w) :
    readGraph source w = readGraph source (writeGraph g) := by
  induction g using Graph.children_induction generalizing w with
  | step g ih =>
    have hself := hvalues g (Graph.mem_subgraphs_iff.mpr (.inl rfl))
    have hchild : ∀ c ∈ g.children, ∀ k, ForgetsKinds .graph (writeGraph c) k →
        readGraph source k = readGraph source (writeGraph c) := by
      intro c hc k hk
      exact ih c hc (fun d hd => hvalues d (Graph.mem_subgraphs_iff.mpr (.inr ⟨c, hc, hd⟩))) hk
    apply h.readGraph_eq
    rw [nodes_writeGraph, List.forall_mem_map]
    intro n hn k hk
    apply readNode_of_forgetsKinds source ?_ hk
    intro p hp a ha
    apply readAttribute_of_forgetsKinds source ?_ ?_ ha
    · exact hself p.2 (Graph.mem_attributes_iff.mpr ⟨n, hn, p.1, hp⟩)
    · intro c hc
      exact hchild c (Graph.mem_children_of_mem hn hp hc)

theorem readModel_of_forgetsKinds {m : Model}
    (hvalues : ∀ g ∈ m.graph.subgraphs, ∀ a ∈ g.attributes, isEmptyList a = false)
    (h : ForgetsKinds .model (writeModel m) w) :
    readModel source w = readModel source (writeModel m) := by
  apply h.readModel_eq
  intro g hg k hk
  cases (graph_writeModel m).symm.trans hg
  exact readGraph_of_forgetsKinds source m.graph hvalues hk

end Readers

/-! ### Files -/

/-- Kinds are fields of their own, so without them a message is nested as before, and it is
    read to the end or refused at the same place. -/
theorem ForgetsKinds.readsAs {message : MessageType} {m w : Message}
    (h : ForgetsKinds message m w) (hm : ∀ f ∈ m, schema.Admits message f)
    (hmlen : (encodeMessage m).length < 2 ^ 64) (hwlen : (encodeMessage w).length < 2 ^ 64)
    (budget : Nat) :
    ∃ outcome, schema.ReadsAs budget message m outcome ∧
      schema.ReadsAs budget message w outcome := by
  induction h generalizing budget with
  | nil => exact ⟨.ok (), Schema.readsAs_nil, Schema.readsAs_nil⟩
  | keep hflat _ ih =>
    rw [encodeMessage, List.length_append] at hmlen hwlen
    rw [List.forall_mem_cons] at hm
    obtain ⟨outcome, hrest, hrest'⟩ := ih hm.2 (by omega) (by omega) budget
    have hfield := Schema.fieldReadsAs_flat schema_keyed hm.1 hflat (by omega) budget
    exact ⟨_, Schema.readsAs_cons hfield hrest, Schema.readsAs_cons hfield hrest'⟩
  | @enter _ inner n fields fields' _ _ hkind _ _ ihfields ih =>
    rw [encodeMessage, List.length_append] at hmlen hwlen
    rw [List.forall_mem_cons] at hm
    obtain ⟨outcome, hrest, hrest'⟩ := ih hm.2 (by omega) (by omega) budget
    obtain ⟨d, hd, hdkind⟩ := Option.map_eq_some_iff.mp hkind
    have hfields : ∀ f ∈ fields, schema.Admits inner f := by
      cases hm.1 with
      | message hkind' hfields =>
        cases hkind.symm.trans hkind'
        exact hfields
    have hlen : (encodeMessage fields).length < (Field.message n fields).encode.length :=
      length_encodeDelimited n _
    have hlen' : (encodeMessage fields').length < (Field.message n fields').encode.length :=
      length_encodeDelimited n _
    have henters : ∃ outcome, schema.EntersAs budget inner fields outcome ∧
        schema.EntersAs budget inner fields' outcome := by
      cases budget with
      | zero => exact ⟨_, Schema.entersAs_zero, Schema.entersAs_zero⟩
      | succ budget =>
        obtain ⟨inside, hin, hin'⟩ := ihfields hfields (by omega) (by omega) budget
        exact ⟨inside, Schema.entersAs_succ hin (by omega), Schema.entersAs_succ hin' (by omega)⟩
    obtain ⟨inside, hin, hin'⟩ := henters
    exact ⟨_, Schema.readsAs_cons (Schema.fieldReadsAs_message schema_keyed hd hdkind hin) hrest,
      Schema.readsAs_cons (Schema.fieldReadsAs_message schema_keyed hd hdkind hin') hrest'⟩
  | drop _ ih =>
    rw [encodeMessage, List.length_append] at hmlen
    rw [List.forall_mem_cons] at hm
    obtain ⟨outcome, hrest, hrest'⟩ := ih hm.2 (by omega) hwlen budget
    have hfield := Schema.fieldReadsAs_flat schema_keyed hm.1 rfl (by omega) budget
    exact ⟨outcome, Schema.readsAs_cons hfield hrest, hrest'⟩
  | @replace x code _ _ _ _ ih =>
    rw [encodeMessage, List.length_append] at hmlen hwlen
    rw [List.forall_mem_cons] at hm
    obtain ⟨outcome, hrest, hrest'⟩ := ih hm.2 (by omega) (by omega) budget
    have hfield := Schema.fieldReadsAs_flat schema_keyed hm.1 rfl (by omega) budget
    have hadmits : schema.Admits .attr (.number AttributeField.kind (.varint code)) := .single rfl
    have hfield' := Schema.fieldReadsAs_flat schema_keyed hadmits rfl (by omega) budget
    exact ⟨_, Schema.readsAs_cons hfield hrest, Schema.readsAs_cons hfield' hrest'⟩

/-- **Attributes need not say their kind.**  If no attribute is an empty list, then leaving
    out kinds, or writing codes that name none, changes nothing about what is read, from the
    fields of a file or from its bytes. -/
theorem decode_forgetsKinds (source : Source) {m : Model} {w : Message}
    (hvalues : ∀ g ∈ m.graph.subgraphs, ∀ a ∈ g.attributes, isEmptyList a = false)
    (h : ForgetsKinds .model (writeModel m) w) :
    readModel source w = readModel source (writeModel m) ∧
      ((encode m).length < 2 ^ 64 → (encodeMessage w).length < 2 ^ 64 →
        decode source (encodeMessage w) = decode source (encode m)) := by
  have hread := readModel_of_forgetsKinds source hvalues h
  refine ⟨hread, ?_⟩
  intro hmlen hwlen
  obtain ⟨outcome, hm, hw⟩ := h.readsAs (admits_writeModel m) hmlen hwlen nestingLimit
  rw [decode, decode, encode, Schema.decode_of_readsAs hm, Schema.decode_of_readsAs hw]
  cases outcome with
  | error fault => rfl
  | ok _ => exact hread

def loopBody : Graph :=
  ⟨"body", [⟨"", "Scale", "", [], [], [("k", .int 0), ("axes", .ints [1])], none⟩], [], [], [],
    none⟩

def loop : Model :=
  ⟨none, [], none, none, ⟨"main",
    [⟨"", "Loop", "", [], [],
      [("alpha", .float ⟨0⟩), ("mode", .string ""), ("body", .graph loopBody)], none⟩],
    [], [], [], none⟩⟩

def unlabeledBody : Message :=
  [.message GraphField.node
    [.text NodeField.opType "Scale",
      .message NodeField.attr
        [.text AttributeField.name "k", .number AttributeField.int (.varint 0)],
      .message NodeField.attr
        [.text AttributeField.name "axes", .number AttributeField.ints (.varint 1),
          .number AttributeField.kind (.varint AttributeKind.ints.code)]],
    .text GraphField.name "body"]

/-- The model with one kind left out, one undefined and one unknown. -/
def unlabeledLoop : Message :=
  [.message ModelField.graph
    [.message GraphField.node
      [.text NodeField.opType "Loop",
        .message NodeField.attr
          [.text AttributeField.name "alpha", .number AttributeField.float (.fixed32 0)],
        .message NodeField.attr
          [.text AttributeField.name "mode", .bytes AttributeField.string [],
            .number AttributeField.kind (.varint 0)],
        .message NodeField.attr
          [.text AttributeField.name "body", .message AttributeField.graph unlabeledBody,
            .number AttributeField.kind (.varint 99)]],
      .text GraphField.name "main"]]

theorem forgetsKinds_unlabeledLoop : ForgetsKinds .model (writeModel loop) unlabeledLoop := by
  have hundefined : NamesNoKind 0 := by
    intro kind h
    cases kind <;> first | rfl | exact absurd h (by decide)
  have hunknown : NamesNoKind 99 := by
    intro kind h
    cases kind <;> exact absurd h (by decide)
  have hbody : ForgetsKinds .graph (writeGraph loopBody) unlabeledBody :=
    .enter rfl
      (.keep rfl (.enter rfl (.keep rfl (.keep rfl (.drop .nil)))
        (.enter rfl (.keep rfl (.keep rfl (.keep rfl .nil))) .nil)))
      (.keep rfl .nil)
  have hnode : ForgetsKinds .node (writeNode ⟨"", "Loop", "", [], [],
      [("alpha", .float ⟨0⟩), ("mode", .string ""), ("body", .graph loopBody)], none⟩) _ :=
    .keep rfl
      (.enter rfl (.keep rfl (.keep rfl (.drop .nil)))
        (.enter rfl (.keep rfl (.keep rfl (.replace hundefined .nil)))
          (.enter rfl (.keep rfl (.enter rfl hbody (.replace hunknown .nil))) .nil)))
  exact .enter rfl (.enter rfl hnode (.keep rfl .nil)) .nil

theorem decode_unlabeledLoop :
    (encodeMessage unlabeledLoop).length < (encode loop).length ∧
    decode .none (encodeMessage unlabeledLoop) = decode .none (encode loop) ∧
    (readModel .none unlabeledLoop).result = .ok loop := by
  have hvalues : ∀ g ∈ loop.graph.subgraphs, ∀ a ∈ g.attributes, isEmptyList a = false := by
    decide
  have hgraphs : ∀ g ∈ loop.graph.subgraphs, g.Representable := by decide
  obtain ⟨hread, hdecode⟩ := decode_forgetsKinds .none hvalues forgetsKinds_unlabeledLoop
  refine ⟨by decide, hdecode (by decide) (by decide), ?_⟩
  rw [hread]
  exact readModel_writeModel .none hgraphs

end Mpsx.Onnx
