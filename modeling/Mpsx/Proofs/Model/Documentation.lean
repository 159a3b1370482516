/-
  Mpsx/Proofs/Model/Documentation.lean
  ====================================
  **Documentation and nothing else.**  Two graphs may differ in what they and their
  nodes say to a reader, at any depth, and agree in all they say to a program.
  `SameButDoc` is this relation, with one rule for each form of a graph, a node and an
  attribute.  It does not mention `strip`.

  Stripping loses exactly what the relation leaves open: two models have the same
  stripped form if and only if they are related.  The models that stripping leaves as
  they are, are those without documentation at any depth; that it removes nothing the
  second time is a case of this.
-/

import Mathlib.Data.List.Forall2
import Mpsx.Proofs.Model.Stripped

namespace Mpsx

/-! ### The same but for documentation -/

mutual

/-- The graphs agree in everything but documentation, their own and that of all nodes
    and graphs inside them. -/
inductive Graph.SameButDoc : Graph → Graph → Prop where
  | intro {name nodes nodes' inputs outputs initializers doc doc'}
    (hnodes : List.Forall₂ Node.SameButDoc nodes nodes') :
    Graph.SameButDoc ⟨name, nodes, inputs, outputs, initializers, doc⟩
      ⟨name, nodes', inputs, outputs, initializers, doc'⟩

inductive Node.SameButDoc : Node → Node → Prop where
  | intro {name opType domain inputs outputs attributes attributes' doc doc'}
    (hattributes : List.Forall₂ Attribute.NamedSameButDoc attributes attributes') :
    Node.SameButDoc ⟨name, opType, domain, inputs, outputs, attributes, doc⟩
      ⟨name, opType, domain, inputs, outputs, attributes', doc'⟩

inductive Attribute.NamedSameButDoc : String × Attribute → String × Attribute → Prop where
  | intro {name a a'} (hvalue : Attribute.SameButDoc a a') :
    Attribute.NamedSameButDoc (name, a) (name, a')

/-- Attributes that hold no graph carry no documentation and have to be equal. -/
inductive Attribute.SameButDoc : Attribute → Attribute → Prop where
  | float (x) : Attribute.SameButDoc (.float x) (.float x)
  | int (n) : Attribute.SameButDoc (.int n) (.int n)
  | string (s) : Attribute.SameButDoc (.string s) (.string s)
  | tensor (t) : Attribute.SameButDoc (.tensor t) (.tensor t)
  | floats (xs) : Attribute.SameButDoc (.floats xs) (.floats xs)
  | ints (ns) : Attribute.SameButDoc (.ints ns) (.ints ns)
  | strings (ss) : Attribute.SameButDoc (.strings ss) (.strings ss)
  | tensors (ts) : Attribute.SameButDoc (.tensors ts) (.tensors ts)
  | graph {g g'} (hgraph : Graph.SameButDoc g g') : Attribute.SameButDoc (.graph g) (.graph g')
  | graphs {gs gs'} (hgraphs : List.Forall₂ Graph.SameButDoc gs gs') :
    Attribute.SameButDoc (.graphs gs) (.graphs gs')

end

structure Model.SameButDoc (m m' : Model) : Prop where
  irVersion : m.irVersion = m'.irVersion
  operatorSets : m.operatorSets = m'.operatorSets
  producerName : m.producerName = m'.producerName
  producerVersion : m.producerVersion = m'.producerVersion
  graph : m.graph.SameButDoc m'.graph

/-! ### What stripping loses -/

/-- Lists with the same image are related entry by entry, if the entries with the same
    image are. -/
theorem map_eq_map_iff_forall₂ {α β : Type} {f : α → β} {R : α → α → Prop} {xs ys : List α}
    (h : ∀ x ∈ xs, ∀ y, f x = f y ↔ R x y) : xs.map f = ys.map f ↔ List.Forall₂ R xs ys := by
  rw [← List.forall₂_eq_eq_eq, List.forall₂_map_left_iff, List.forall₂_map_right_iff]
  constructor
  · intro hsame
    have hboth := (List.forall₂_and_left _ _).mpr ⟨h, hsame⟩
    exact hboth.imp fun x y hxy => (hxy.1 y).mp hxy.2
  · intro hrelated
    have hboth := (List.forall₂_and_left _ _).mpr ⟨h, hrelated⟩
    exact hboth.imp fun x y hxy => (hxy.1 y).mpr hxy.2

theorem Attribute.strip_eq_strip_iff {a a' : Attribute}
    (ih : ∀ g ∈ a.heldGraphs, ∀ g', g.strip = g'.strip ↔ g.SameButDoc g') :
    a.strip = a'.strip ↔ a.SameButDoc a' := by
  constructor
  · intro h
    cases a with
    | graph g =>
      cases a' with
      | graph g' =>
        rw [strip, strip, Attribute.graph.injEq] at h
        exact .graph ((ih g (by simp [heldGraphs]) g').mp h)
      | _ => simp [strip] at h
    | graphs gs =>
      cases a' with
      | graphs gs' =>
        rw [strip, strip, Attribute.graphs.injEq, stripGraphs_eq_map, stripGraphs_eq_map] at h
        exact .graphs ((map_eq_map_iff_forall₂ ih).mp h)
      | _ => simp [strip] at h
    | _ =>
      cases a' <;> simp [strip] at h
      subst h
      constructor
  · intro h
    cases h with
    | graph hgraph => rw [strip, strip, (ih _ (by simp [heldGraphs]) _).mpr hgraph]
    | graphs hgraphs =>
      rw [strip, strip, stripGraphs_eq_map, stripGraphs_eq_map]
      exact congrArg Attribute.graphs ((map_eq_map_iff_forall₂ ih).mpr hgraphs)
    | _ => rfl

theorem Node.strip_eq_strip_iff {n n' : Node}
    (ih : ∀ p ∈ n.attributes, ∀ g ∈ p.2.heldGraphs, ∀ g', g.strip = g'.strip ↔ g.SameButDoc g') :
    n.strip = n'.strip ↔ n.SameButDoc n' := by
  have hnamed : ∀ p ∈ n.attributes, ∀ q : String × Attribute,
      (p.1, p.2.strip) = (q.1, q.2.strip) ↔ Attribute.NamedSameButDoc p q := by
    rintro ⟨name, a⟩ hp ⟨name', a'⟩
    rw [Prod.mk.injEq, Attribute.strip_eq_strip_iff (ih _ hp)]
    constructor
    · rintro ⟨rfl, hvalue⟩
      exact .intro hvalue
    · intro h
      cases h with
      | intro hvalue => exact ⟨rfl, hvalue⟩
  cases n
  cases n'
  simp only [strip_eq, Node.mk.injEq, map_eq_map_iff_forall₂ hnamed, and_true]
  constructor
  · rintro ⟨rfl, rfl, rfl, rfl, rfl, hattributes⟩
    exact .intro hattributes
  · intro h
    cases h with
    | intro hattributes => exact ⟨rfl, rfl, rfl, rfl, rfl, hattributes⟩

/-- Graphs have the same stripped form if and only if they differ in documentation only. -/
theorem Graph.strip_eq_strip_iff {g g' : Graph} : g.strip = g'.strip ↔ g.SameButDoc g' := by
  -- The relation is nested in relations on lists and has no induction of its own, so both
  -- directions go by the graphs inside the first one.
  induction g using children_induction generalizing g' with
  | step g ih =>
    have hnodes : ∀ n ∈ g.nodes, ∀ n' : Node, n.strip = n'.strip ↔ n.SameButDoc n' := by
      intro n hn n'
      apply Node.strip_eq_strip_iff
      intro p hp h hh h'
      exact ih h (mem_children_of_mem hn hp hh)
    cases g
    cases g'
    simp only [strip_eq, Graph.mk.injEq, map_eq_map_iff_forall₂ hnodes, and_true]
    constructor
    · rintro ⟨rfl, hsame, rfl, rfl, rfl⟩
      exact .intro hsame
    · intro h
      cases h with
      | intro hsame => exact ⟨rfl, hsame, rfl, rfl, rfl⟩

theorem Model.strip_eq_strip_iff {m m' : Model} : m.strip = m'.strip ↔ m.SameButDoc m' := by
  cases m
  cases m'
  simp only [strip, Model.mk.injEq, Graph.strip_eq_strip_iff]
  constructor
  · rintro ⟨hir, hsets, hname, hversion, hgraph⟩
    exact ⟨hir, hsets, hname, hversion, hgraph⟩
  · rintro ⟨hir, hsets, hname, hversion, hgraph⟩
    exact ⟨hir, hsets, hname, hversion, hgraph⟩

/-! ### What stripping leaves alone -/

theorem map_eq_self {α : Type} {f : α → α} {xs : List α} (h : ∀ x ∈ xs, f x = x) :
    xs.map f = xs := by
  rw [List.map_congr_left h, List.map_id']

theorem Attribute.strip_eq_self {a : Attribute} (h : ∀ g ∈ a.heldGraphs, g.strip = g) :
    a.strip = a := by
  cases a with
  | graph g => rw [strip, h g (by simp [heldGraphs])]
  | graphs gs =>
    rw [strip, stripGraphs_eq_map]
    exact congrArg Attribute.graphs (map_eq_self h)
  | _ => rfl

theorem Node.strip_eq_self {n : Node} (hdoc : n.doc = none)
    (h : ∀ p ∈ n.attributes, ∀ g ∈ p.2.heldGraphs, g.strip = g) : n.strip = n := by
  have hattributes : n.attributes.map (fun p => (p.1, p.2.strip)) = n.attributes := by
    apply map_eq_self
    intro p hp
    rw [Attribute.strip_eq_self (h p hp)]
  rw [strip_eq, hattributes]
  cases n
  cases hdoc
  rfl

/-- Stripping leaves a graph alone if and only if it has no documentation at any depth. -/
theorem Graph.strip_eq_self_iff {g : Graph} :
    g.strip = g ↔ ∀ h ∈ g.subgraphs, h.Undocumented := by
  constructor
  · intro hself h hh
    rw [← hself] at hh
    exact undocumented_of_mem_subgraphs_strip g hh
  · intro hall
    induction g using children_induction with
    | step g ih =>
      have hchildren : ∀ h ∈ g.children, h.strip = h := by
        intro h hh
        apply ih h hh
        intro k hk
        exact hall k (mem_subgraphs_iff.mpr (.inr ⟨h, hh, hk⟩))
      obtain ⟨hdoc, hnodeDocs⟩ := hall g (mem_subgraphs_iff.mpr (.inl rfl))
      have hnodes : g.nodes.map Node.strip = g.nodes := by
        apply map_eq_self
        intro n hn
        apply Node.strip_eq_self (hnodeDocs n hn)
        intro p hp h hh
        exact hchildren h (mem_children_of_mem hn hp hh)
      rw [strip_eq, hnodes]
      cases g
      cases hdoc
      rfl

theorem Graph.strip_strip (g : Graph) : g.strip.strip = g.strip := by
  apply strip_eq_self_iff.mpr
  intro h hh
  exact g.undocumented_of_mem_subgraphs_strip hh

theorem Model.strip_strip (m : Model) : m.strip.strip = m.strip := by
  rw [strip, strip, Graph.strip_strip]

/-! ### Models -/

namespace Model

/-- **Stripping removes all documentation and nothing else.** -/
theorem strip_exact (m : Model) :
    (∀ g ∈ m.strip.graph.subgraphs, g.Undocumented) ∧ m.SameButDoc m.strip ∧
      (∀ m' : Model, m.strip = m'.strip ↔ m.SameButDoc m') ∧ m.strip.strip = m.strip := by
  refine ⟨?_, ?_, fun _ => strip_eq_strip_iff, m.strip_strip⟩
  · intro g hg
    exact m.graph.undocumented_of_mem_subgraphs_strip hg
  · apply strip_eq_strip_iff.mp
    exact m.strip_strip.symm

/-- A graph two levels below the main one, in a branch that stands in a list of graphs;
    all graphs and nodes carry the same documentation. -/
def annotated (doc : Option String) (name : String) : Model :=
  { irVersion := some 8
    operatorSets := [⟨"", 17⟩]
    producerName := none
    producerVersion := none
    graph := ⟨"main",
      [⟨"choice", "If", "", ["c"], ["y"],
        [("branches", .graphs [Graph.empty,
          ⟨"otherwise",
            [⟨"repeat", "Loop", "", [], ["y"],
              [("body", .graph ⟨name, [⟨"step", "Add", "", [], ["y"], [], doc⟩], [], [], [], doc⟩)],
              doc⟩],
            [], [], [], doc⟩])],
        doc⟩],
      [], [], [], doc⟩ }

theorem strip_exact_annotated :
    (∃ g ∈ (annotated (some "text") "body").strip.graph.subgraphs,
      g.name = "body" ∧ g.Undocumented) ∧
      (annotated (some "text") "body").SameButDoc (annotated none "body") ∧
      ¬(annotated (some "text") "body").SameButDoc (annotated none "loop") := by
  obtain ⟨hundocumented, -, hsame, -⟩ := strip_exact (annotated (some "text") "body")
  refine ⟨?_, (hsame _).mp rfl, ?_⟩
  · have hmem : ⟨"body", [⟨"step", "Add", "", [], ["y"], [], none⟩], [], [], [], none⟩ ∈
        (annotated (some "text") "body").strip.graph.subgraphs :=
      .tail _ (.tail _ (.tail _ (.head _)))
    exact ⟨_, hmem, rfl, hundocumented _ hmem⟩
  · intro h
    have hstrip := (hsame _).mpr h
    simp [annotated, Model.strip, Graph.strip, stripNodes, Node.strip, stripAttributes,
      Attribute.strip, stripGraphs] at hstrip

end Model

end Mpsx
