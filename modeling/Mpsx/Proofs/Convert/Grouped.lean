/-
  Mpsx/Proofs/Convert/Grouped.lean
  ================================
  **What the scan over convolutions finds.**  A convolution is sound if it names its
  weight and its group count, where it gives one, is a positive integer.  The scan
  fails at the first node that is not sound.  If all are, the group count it records
  for a weight is that of the last grouped convolution that uses the weight, and
  convolutions with one group leave no trace.

  A node is described by its fields alone; the attribute that counts is the first of
  its name.  `Node.groupedWeight?_cases` says once what the scan makes of a node; the
  results on whole lists follow from it, by induction from the front for faults and
  from the back for the last use.
-/

import Mathlib.Data.List.Induction
import Mpsx.Convert.Grouped
import Mpsx.Proofs.Traced

namespace Mpsx

/-! ### One node -/

namespace Node

def FirstNamed (n : Node) (name : String) (a : Attribute) : Prop :=
  ∃ before after, n.attributes = before ++ (name, a) :: after ∧ ∀ p ∈ before, p.1 ≠ name

/-- A node that is no convolution, or one with a weight and, if it has a group count at
    all, a positive integer there. -/
def Sound (n : Node) : Prop :=
  n.opType = "Conv" → (∃ w, n.inputs[1]? = some w ∧ w ≠ "") ∧
    ∀ a, n.FirstNamed "group" a → ∃ g : Int64, a = .int g ∧ 1 ≤ g.toInt

inductive Fault (n : Node) : ConvertError → Prop where
  | weight (hconv : n.opType = "Conv") (hweight : ∀ w, n.inputs[1]? = some w → w = "") :
    n.Fault (.missingWeight n.name)
  | groupForm {w : String} {a : Attribute} (hconv : n.opType = "Conv")
    (hweight : n.inputs[1]? = some w ∧ w ≠ "") (hgroup : n.FirstNamed "group" a)
    (hform : ∀ g, a ≠ .int g) : n.Fault (.groupNotInteger n.name a)
  | groupSize {w : String} {g : Int64} (hconv : n.opType = "Conv")
    (hweight : n.inputs[1]? = some w ∧ w ≠ "") (hgroup : n.FirstNamed "group" (.int g))
    (hsize : g.toInt < 1) : n.Fault (.groupNotPositive n.name g)

def UsesGrouped (n : Node) (w : String) (g : Int64) : Prop :=
  n.opType = "Conv" ∧ n.inputs[1]? = some w ∧ n.FirstNamed "group" (.int g) ∧ g ≠ 1

variable {n : Node} {e : ConvertError} {w w' : String} {g g' : Int64}

theorem attribute?_eq_some_iff {name : String} {a : Attribute} :
    n.attribute? name = some a ↔ n.FirstNamed name a := by
  rw [attribute?, List.lookup_eq_some_iff]
  simp only [bne_iff_ne]
  constructor
  · rintro ⟨before, after, hsplit, hbefore⟩
    exact ⟨before, after, hsplit, fun p hp => (hbefore p hp).symm⟩
  · rintro ⟨before, after, hsplit, hbefore⟩
    exact ⟨before, after, hsplit, fun p hp => (hbefore p hp).symm⟩

theorem Fault.kind (h : n.Fault e) : e.kind = .invalidGraph := by
  cases h <;> rfl

theorem Fault.not_sound (h : n.Fault e) : ¬n.Sound := by
  intro hsound
  cases h with
  | weight hconv hweight =>
    obtain ⟨⟨w, hw, hne⟩, -⟩ := hsound hconv
    exact hne (hweight w hw)
  | groupForm hconv hweight hgroup hform =>
    obtain ⟨g, hg, -⟩ := (hsound hconv).2 _ hgroup
    exact hform g hg
  | groupSize hconv hweight hgroup hsize =>
    obtain ⟨g, hg, hpos⟩ := (hsound hconv).2 _ hgroup
    cases hg
    omega

theorem UsesGrouped.unique (h : n.UsesGrouped w g) (h' : n.UsesGrouped w' g') :
    w = w' ∧ g = g' := by
  obtain ⟨-, hw, hg, -⟩ := h
  obtain ⟨-, hw', hg', -⟩ := h'
  rw [hw] at hw'
  rw [← attribute?_eq_some_iff] at hg hg'
  rw [hg] at hg'
  cases hw'
  cases hg'
  exact ⟨rfl, rfl⟩

/-- The scan finds a fault in a node, or a grouped use, or nothing. -/
theorem groupedWeight?_cases (n : Node) :
    (∃ e, n.groupedWeight? = .error e ∧ n.Fault e) ∨
      (∃ w g, n.groupedWeight? = .ok (some (w, g)) ∧ n.Sound ∧ n.UsesGrouped w g) ∨
      (n.groupedWeight? = .ok none ∧ n.Sound ∧ ∀ w g, ¬n.UsesGrouped w g) := by
  unfold groupedWeight?
  by_cases hconv : n.opType = "Conv"
  · rw [if_neg (not_not.mpr hconv)]
    cases hw : n.inputs[1]? with
    | none => exact .inl ⟨_, rfl, .weight hconv (by simp [hw])⟩
    | some w =>
      by_cases hempty : w = ""
      · exact .inl ⟨_, if_pos hempty, .weight hconv (by simp [hw, hempty])⟩
      · simp only [if_neg hempty]
        have hweight : n.inputs[1]? = some w ∧ w ≠ "" := ⟨hw, hempty⟩
        -- with a weight, the node is sound if its group count is
        have hsound : (∀ a, n.attribute? "group" = some a → ∃ g : Int64, a = .int g ∧ 1 ≤ g.toInt) →
            n.Sound := by
          intro hgroup _
          exact ⟨⟨w, hweight⟩, fun a ha => hgroup a (attribute?_eq_some_iff.mpr ha)⟩
        cases ha : n.attribute? "group" with
        | none =>
          refine .inr (.inr ⟨rfl, hsound (by simp [ha]), ?_⟩)
          rintro w g ⟨-, -, hg, -⟩
          rw [← attribute?_eq_some_iff, ha] at hg
          cases hg
        | some a =>
          have hfirst := attribute?_eq_some_iff.mp ha
          cases a with
          | int g =>
            dsimp only
            by_cases hone : g = 1
            · refine .inr (.inr ⟨if_pos hone, hsound ?_, ?_⟩)
              · rw [ha]
                rintro a ⟨⟩
                exact ⟨g, rfl, by rw [hone]; decide⟩
              · rintro w g' ⟨-, -, hg', hne⟩
                rw [← attribute?_eq_some_iff, ha] at hg'
                cases hg'
                exact hne hone
            · rw [if_neg hone]
              by_cases hlow : g < 1
              · have hsize : g.toInt < 1 := Int64.lt_iff_toInt_lt.mp hlow
                exact .inl ⟨_, if_pos hlow, .groupSize hconv hweight hfirst hsize⟩
              · refine .inr (.inl ⟨w, g, if_neg hlow, hsound ?_, hconv, hw, hfirst, hone⟩)
                rw [ha]
                rintro a ⟨⟩
                have hsize : ¬g.toInt < 1 := fun h => hlow (Int64.lt_iff_toInt_lt.mpr h)
                exact ⟨g, rfl, by omega⟩
          | _ => exact .inl ⟨_, rfl, .groupForm hconv hweight hfirst (by simp)⟩
  · refine .inr (.inr ⟨if_pos hconv, fun h => absurd h hconv, ?_⟩)
    rintro w g ⟨h, -⟩
    exact hconv h

theorem groupedWeight?_of_fault (h : n.Fault e) : n.groupedWeight? = .error e := by
  unfold groupedWeight?
  cases h with
  | weight hconv hweight =>
    cases hw : n.inputs[1]? with
    | none => simp [hconv]
    | some w => simp [hconv, hweight w hw]
  | @groupForm w a hconv hweight hgroup hform =>
    rw [← attribute?_eq_some_iff] at hgroup
    cases a with
    | int g => exact absurd rfl (hform g)
    | _ => simp [hconv, hweight.1, hweight.2, hgroup]
  | @groupSize w g hconv hweight hgroup hsize =>
    rw [← attribute?_eq_some_iff] at hgroup
    have hone : g ≠ 1 := by
      rintro rfl
      exact absurd hsize (by decide)
    simp [hconv, hweight.1, hweight.2, hgroup, hone, Int64.lt_iff_toInt_lt, hsize]

theorem groupedWeight?_of_usesGrouped (hsound : n.Sound) (h : n.UsesGrouped w g) :
    n.groupedWeight? = .ok (some (w, g)) := by
  rcases n.groupedWeight?_cases with ⟨e, -, hfault⟩ | ⟨w', g', hn, -, huse⟩ | ⟨-, -, hnone⟩
  · exact absurd hsound hfault.not_sound
  · obtain ⟨rfl, rfl⟩ := h.unique huse
    exact hn
  · exact absurd h (hnone w g)

theorem groupedWeight?_of_not_usesGrouped (hsound : n.Sound) (h : ∀ w g, ¬n.UsesGrouped w g) :
    n.groupedWeight? = .ok none := by
  rcases n.groupedWeight?_cases with ⟨e, -, hfault⟩ | ⟨w', g', -, -, huse⟩ | ⟨hn, -⟩
  · exact absurd hsound hfault.not_sound
  · exact absurd huse (h w' g')
  · exact hn

end Node

/-! ### All nodes -/

def Groups.record (groups : Groups) : Option (String × Int64) → Groups
  | none => groups
  | some (weight, group) => Table.set weight group groups

theorem Groups.result_visit (groups : Groups) (n : Node) :
    (groups.visit n).result = n.groupedWeight?.map groups.record := by
  rw [visit, Traced.result_bind, Traced.result_ofExcept]
  cases n.groupedWeight? with
  | error e => rfl
  | ok found =>
    cases found with
    | none => rfl
    | some use =>
      obtain ⟨w, g⟩ := use
      show (Traced.result (_ >>= fun _ => _)) = .ok (Table.set w g groups)
      rw [Traced.result_bind, Traced.result_report]
      cases Table.get? groups w with
      | none => rfl
      | some earlier =>
        by_cases hne : earlier ≠ g
        · simp only [if_pos hne]
          rfl
        · simp only [if_neg hne]
          rfl

variable {groups : Groups} {n : Node}

theorem Groups.visit_eq_error_iff {e : ConvertError} :
    (groups.visit n).result = .error e ↔ n.Fault e := by
  rw [result_visit]
  constructor
  · intro h
    rcases n.groupedWeight?_cases with ⟨e', hn, hfault⟩ | ⟨w, g, hn, -⟩ | ⟨hn, -⟩
    · rw [hn] at h
      cases h
      exact hfault
    · rw [hn] at h
      cases h
    · rw [hn] at h
      cases h
  · intro hfault
    rw [Node.groupedWeight?_of_fault hfault]
    rfl

theorem Groups.exists_visit_iff : (∃ found, (groups.visit n).result = .ok found) ↔ n.Sound := by
  rw [result_visit]
  rcases n.groupedWeight?_cases with ⟨e, hn, hfault⟩ | ⟨w, g, hn, hsound, -⟩ | ⟨hn, hsound, -⟩
  · rw [hn]
    constructor
    · rintro ⟨found, h⟩
      cases h
    · intro hsound
      exact absurd hsound hfault.not_sound
  · rw [hn]
    exact ⟨fun _ => hsound, fun _ => ⟨_, rfl⟩⟩
  · rw [hn]
    exact ⟨fun _ => hsound, fun _ => ⟨_, rfl⟩⟩

def LastUse (nodes : List Node) (w : String) (g : Int64) : Prop :=
  ∃ before n after, nodes = before ++ n :: after ∧ n.UsesGrouped w g ∧
    ∀ k ∈ after, ∀ g', ¬k.UsesGrouped w g'

theorem lastUse_concat_iff {nodes : List Node} {n : Node} {w : String} {g : Int64} :
    LastUse (nodes ++ [n]) w g ↔
      n.UsesGrouped w g ∨ (∀ g', ¬n.UsesGrouped w g') ∧ LastUse nodes w g := by
  constructor
  · rintro ⟨before, k, after, hsplit, huse, hlast⟩
    rcases List.eq_nil_or_concat after with rfl | ⟨after', last, rfl⟩
    · obtain ⟨rfl, hk⟩ := List.append_inj' hsplit rfl
      cases hk
      exact .inl huse
    · have hsplit' : nodes ++ [n] = (before ++ k :: after') ++ [last] := by
        simpa using hsplit
      obtain ⟨rfl, hn⟩ := List.append_inj' hsplit' rfl
      cases hn
      exact .inr ⟨hlast n (by simp), before, k, after', rfl, huse,
        fun k' hk' => hlast k' (by simp [hk'])⟩
  · rintro (huse | ⟨hnone, before, k, after, rfl, huse, hlast⟩)
    · exact ⟨nodes, n, [], rfl, huse, by simp⟩
    · refine ⟨before, k, after ++ [n], by simp, huse, ?_⟩
      intro k' hk'
      rcases List.mem_append.mp hk' with hk' | hk'
      · exact hlast k' hk'
      · rw [List.mem_singleton.mp hk']
        exact hnone

/-- What the scan records is the last use. -/
theorem get?_groupedWeights {nodes : List Node} {groups : Groups}
    (h : (groupedWeights nodes).result = .ok groups) {w : String} {g : Int64} :
    Table.get? groups w = some g ↔ LastUse nodes w g := by
  induction nodes using List.reverseRecOn generalizing groups with
  | nil =>
    cases h
    constructor
    · intro hg
      cases hg
    · rintro ⟨before, n, after, hnil, -⟩
      simp at hnil
  | append_singleton nodes n ih =>
    rw [groupedWeights, List.foldlM_append] at h
    obtain ⟨earlier, hearlier, h⟩ := Traced.bind_eq_ok_iff.mp h
    rw [List.foldlM_cons] at h
    obtain ⟨groups', hvisit, h⟩ := Traced.bind_eq_ok_iff.mp h
    cases h
    rw [Groups.result_visit] at hvisit
    rw [lastUse_concat_iff, ← ih hearlier]
    rcases n.groupedWeight?_cases with ⟨e, hn, -⟩ | ⟨w', g', hn, -, huse⟩ | ⟨hn, -, hnone⟩
    · rw [hn] at hvisit
      cases hvisit
    · rw [hn] at hvisit
      cases hvisit
      rw [Groups.record, Table.get?_set]
      by_cases hw : w = w'
      · subst hw
        rw [if_pos rfl]
        constructor
        · intro hg
          cases hg
          exact .inl huse
        · rintro (hg | ⟨hnone, -⟩)
          · rw [(huse.unique hg).2]
          · exact absurd huse (hnone g')
      · rw [if_neg hw]
        constructor
        · intro hg
          exact .inr ⟨fun g'' hother => hw (hother.unique huse).1, hg⟩
        · rintro (hother | ⟨-, hg⟩)
          · exact absurd (hother.unique huse).1 hw
          · exact hg
    · rw [hn] at hvisit
      cases hvisit
      constructor
      · intro hg
        exact .inr ⟨hnone w, hg⟩
      · rintro (hg | ⟨-, hg⟩)
        · exact absurd hg (hnone w g)
        · exact hg

/-- The scan fails at the first node that is not sound. -/
theorem groupedWeights_eq_error_iff {nodes : List Node} {e : ConvertError} :
    (groupedWeights nodes).result = .error e ↔ FirstFault Node.Sound Node.Fault nodes e := by
  unfold groupedWeights
  -- what has been recorded before plays no part
  generalize ([] : Groups) = groups
  induction nodes generalizing groups with
  | nil =>
    constructor
    · intro h
      cases h
    · intro h
      exact absurd h not_firstFault_nil
  | cons n rest ih =>
    rw [List.foldlM_cons, Traced.bind_eq_error_iff, firstFault_cons_iff,
      Groups.visit_eq_error_iff]
    constructor
    · rintro (hfault | ⟨found, hvisit, h⟩)
      · exact .inl hfault
      · exact .inr ⟨Groups.exists_visit_iff.mp ⟨found, hvisit⟩, (ih found).mp h⟩
    · rintro (hfault | ⟨hsound, h⟩)
      · exact .inl hfault
      · obtain ⟨found, hvisit⟩ : ∃ found, (Groups.visit groups n).result = .ok found :=
          Groups.exists_visit_iff.mpr hsound
        exact .inr ⟨found, hvisit, (ih found).mpr h⟩

/-- The scan goes through if and only if all nodes are sound. -/
theorem exists_groupedWeights_iff {nodes : List Node} :
    (∃ groups, (groupedWeights nodes).result = .ok groups) ↔ ∀ n ∈ nodes, n.Sound := by
  unfold groupedWeights
  generalize ([] : Groups) = groups
  induction nodes generalizing groups with
  | nil => exact ⟨by simp, fun _ => ⟨groups, rfl⟩⟩
  | cons n rest ih =>
    simp only [List.foldlM_cons, Traced.bind_eq_ok_iff, List.forall_mem_cons]
    constructor
    · rintro ⟨found, next, hvisit, h⟩
      exact ⟨Groups.exists_visit_iff.mp ⟨next, hvisit⟩, (ih next).mp ⟨found, h⟩⟩
    · rintro ⟨hsound, hrest⟩
      obtain ⟨next, hvisit⟩ : ∃ next, (Groups.visit groups n).result = .ok next :=
        Groups.exists_visit_iff.mpr hsound
      obtain ⟨found, h⟩ := (ih next).mpr hrest
      exact ⟨found, next, hvisit, h⟩

end Mpsx
