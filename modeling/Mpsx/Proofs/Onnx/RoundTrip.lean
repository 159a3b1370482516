/-
  Mpsx/Proofs/Onnx/RoundTrip.lean
  ===============================
  **Files hold exactly the representable models.**  A model comes back from its
  encoding if and only if it is representable.  One direction writes and reads
  back; the other is that nothing else ever comes out of a file.  Together they
  make every accepted file a fixed point: what was read from it, once written,
  needs no other file and reads as the same model.
-/

import Mathlib.Algebra.Group.Nat.Defs
import Mpsx.Proofs.Onnx.Accepted
import Mpsx.Proofs.Onnx.ReadBack

namespace Mpsx.Onnx

open Wire

theorem decode_encode_of_representable (source : Source) {m : Model} (hm : m.Representable)
    (hlen : (encode m).length < 2 ^ 64) : (decode source (encode m)).result = .ok m := by
  have hmessage : schema.decode .model (encode m) = .ok (writeModel m) :=
    schema.decode_encodeMessage schema_keyed (admits_writeModel m) hm.depth hlen
  rw [decode, hmessage]
  exact readModel_writeModel source hm.graphs

/-- **Exact round trip.**  A model comes back from its encoding, unchanged and from any
    source, if and only if a file can represent it. -/
theorem decode_encode_eq_ok_iff (source : Source) (m : Model) (hlen : (encode m).length < 2 ^ 64) :
    (decode source (encode m)).result = .ok m ↔ m.Representable := by
  constructor
  · intro h
    exact decode_representable h
  · intro hm
    exact decode_encode_of_representable source hm hlen

/-- A model with a graph in an attribute, tensors in both places, a symbolic axis and a
    descriptor of which nothing is known. -/
def branching : Model :=
  { irVersion := some 8
    operatorSets := [⟨"", 17⟩]
    producerName := some "test"
    producerVersion := none
    graph := ⟨"main",
      [⟨"", "If", "", ["c"], ["y"],
        [("then_branch", .graph ⟨"then", [], [],
            [⟨"y", .float32, some [.param "N", .value 2, .unknown]⟩], [], some "branch"⟩),
          ("axes", .ints [-1, 0]),
          ("value", .tensor ⟨"", [2], .int64, .int64s [-1, 1]⟩)], none⟩],
      [⟨"c", .undefined, none⟩], [], [⟨"w", [1, 2], .float16, .raw [0, 60, 0, 192]⟩], none⟩ }

def misfiled : Model :=
  { branching with graph := { branching.graph with
      initializers := [⟨"w", [1, 2], .float16, .int64s [15360, 49152]⟩] } }

set_option maxRecDepth 2000 in
theorem decode_encode_branching :
    (decode .none (encode branching)).result = .ok branching ∧
      (decode .none (encode misfiled)).result ≠ .ok misfiled := by
  constructor
  · exact (decode_encode_eq_ok_iff .none branching (by decide)).mpr (by decide)
  · intro h
    have hrep := (decode_encode_eq_ok_iff .none misfiled (by decide)).mp h
    exact absurd hrep (by decide)

/-- **Accepted files are fixed points.**  A model that was read from any bytes and any
    source is written in a form that reads as the same model without a source. -/
theorem decode_encode_of_decode {source : Source} {bytes : Bytes} {m : Model}
    (h : (decode source bytes).result = .ok m) (hlen : (encode m).length < 2 ^ 64) :
    (decode .none (encode m)).result = .ok m :=
  decode_encode_of_representable .none (decode_representable h) hlen

/-- A file that gives its graph in two pieces, an attribute without a kind, and a weight
    whose data stands in the file `d`. -/
def scattered : Bytes :=
  [0x3A, 3, 0x12, 1, 103,
    0x3A, 38,
      0x0A, 10, 0x22, 1, 65, 0x2A, 5, 0x0A, 1, 107, 0x18, 5,
      0x2A, 24, 0x70, 1,
        0x6A, 13, 0x0A, 8, 108, 111, 99, 97, 116, 105, 111, 110, 0x12, 1, 100,
        0x10, 1, 0x08, 1, 0x42, 1, 119]

def looseNode : Message :=
  [.text NodeField.opType "A", .message NodeField.attr
    [.text AttributeField.name "k", .number AttributeField.int (.varint 5)]]

def looseWeight : Message :=
  [.number TensorField.location (.varint 1),
    .message TensorField.external [.text EntryField.key "location", .text EntryField.value "d"],
    .number TensorField.elementType (.varint 1), .number TensorField.dims (.varint 1),
    .text TensorField.name "w"]

def pieces : Message :=
  [.message ModelField.graph [.text GraphField.name "g"],
    .message ModelField.graph
      [.message GraphField.node looseNode, .message GraphField.initializer looseWeight]]

def gathered : Model :=
  ⟨none, [], none, none,
    ⟨"g", [⟨"", "A", "", [], [], [("k", .int 5)], none⟩], [], [],
      [⟨"w", [1], .float32, .raw [0, 0, 128, 63]⟩], none⟩⟩

theorem admits_pieces : ∀ f ∈ pieces, schema.Admits .model f := by
  have hattribute : ∀ f ∈ [Field.text AttributeField.name "k",
      .number AttributeField.int (.varint 5)], schema.Admits .attr f := by
    simpa using ⟨.text rfl, .single rfl⟩
  have hentry : ∀ f ∈ [Field.text EntryField.key "location", .text EntryField.value "d"],
      schema.Admits .stringEntry f := by
    simpa using ⟨.text rfl, .text rfl⟩
  have hnode : ∀ f ∈ looseNode, schema.Admits .node f := by
    simpa [looseNode] using ⟨.text rfl, .message rfl hattribute⟩
  have hweight : ∀ f ∈ looseWeight, schema.Admits .tensor f := by
    simpa [looseWeight] using
      ⟨.single rfl, .message rfl hentry, .single rfl, .item rfl, .text rfl⟩
  have hname : ∀ f ∈ [Field.text GraphField.name "g"], schema.Admits .graph f := by
    simpa using .text rfl
  have hbody : ∀ f ∈ [Field.message GraphField.node looseNode,
      .message GraphField.initializer looseWeight], schema.Admits .graph f := by
    simpa using ⟨.message rfl hnode, .message rfl hweight⟩
  simpa [pieces] using ⟨.message rfl hname, .message rfl hbody⟩

/-- All that the file needs besides itself is the data of its weight. -/
theorem decode_scattered {source : Source}
    (hdata : (externalData source "w" [("location", "d")]).result = .ok [0, 0, 128, 63]) :
    (decode source scattered).result = .ok gathered := by
  have hmessage : schema.decode .model (encodeMessage pieces) = .ok pieces :=
    schema.decode_encodeMessage schema_keyed admits_pieces (by decide) (by decide)
  have hattribute : (readAttribute source
      [.text AttributeField.name "k", .number AttributeField.int (.varint 5)]).result =
        .ok ("k", .int 5) := by
    rw [readAttribute]
    rfl
  have hgraph : (readGraph source [.text GraphField.name "g", .message GraphField.node looseNode,
      .message GraphField.initializer looseWeight]).result = .ok gathered.graph := by
    refine readGraph_eq_ok_iff.mpr ⟨rfl, rfl, rfl, .cons ?_ .nil, .nil, .nil, .cons ?_ .nil⟩
    · exact readNode_eq_ok_iff.mpr ⟨rfl, rfl, rfl, rfl, rfl, rfl, .cons hattribute .nil⟩
    · have hdims : ∀ d ∈ ([1] : List UInt64), d.toNat < 2 ^ 63 :=
        List.forall_mem_singleton.mpr (by decide)
      exact readTensor_eq_ok_iff.mpr ⟨hdims, rfl, rfl, rfl, _, hdata, rfl⟩
  rw [decode, show scattered = encodeMessage pieces from rfl, hmessage]
  exact Traced.bind_eq_ok_iff.mpr ⟨_, rfl, Traced.bind_eq_ok_iff.mpr ⟨_, hgraph, rfl⟩⟩

theorem decode_encode_gathered :
    (decode ⟨fun _ => .ok [0, 0, 128, 63], some ⟨"in"⟩⟩ scattered).result = .ok gathered ∧
      (decode .none (encode gathered)).result = .ok gathered := by
  have hread : (decode ⟨fun _ => .ok [0, 0, 128, 63], some ⟨"in"⟩⟩ scattered).result =
      .ok gathered := decode_scattered rfl
  exact ⟨hread, decode_encode_of_decode hread (by decide)⟩

end Mpsx.Onnx
