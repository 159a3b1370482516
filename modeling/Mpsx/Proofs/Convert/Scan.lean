/-
  Mpsx/Proofs/Convert/Scan.lean
  =============================
  **The scan over convolutions, exactly.**  Everything is said here by position: the
  first attribute of a name, the first node that offends, the last node that gives a
  weight its group count.  A scan ends with an error about the first offending node, or
  with a table that has one entry for each weight of a grouped convolution.
-/

import Mathlib.Data.List.Induction
import Mpsx.Proofs.Convert.Grouped

namespace Mpsx

/-! ### What a node says -/

namespace Node

def Offends (n : Node) : Prop :=
  n.opType = "Conv" ∧
    (n.inputs[1]? = none ∨ n.inputs[1]? = some "" ∨
      ∃ a, n.FirstNamed "group" a ∧ ((∀ g, a ≠ .int g) ∨ ∃ g : Int64, a = .int g ∧ g.toInt < 1))

def GroupedBy (n : Node) (w : String) (g : Int64) : Prop :=
  n.opType = "Conv" ∧ n.inputs[1]? = some w ∧ n.FirstNamed "group" (.int g) ∧ 1 < g.toInt

def Ungrouped (n : Node) : Prop :=
  n.opType = "Conv" ∧ (∃ w, n.inputs[1]? = some w ∧ w ≠ "") ∧
    ∀ a, n.FirstNamed "group" a → a = .int 1

variable {n : Node} {e : ConvertError}

theorem sound_iff_not_offends : n.Sound ↔ ¬n.Offends := by
  constructor
  · rintro hsound ⟨hconv, hoffence⟩
    obtain ⟨⟨w, hw, hne⟩, hgroup⟩ := hsound hconv
    rcases hoffence with hnone | hempty | ⟨a, ha, hbad⟩
    · rw [hnone] at hw
      cases hw
    · rw [hempty] at hw
      cases hw
      exact hne rfl
    · obtain ⟨g, rfl, hpos⟩ := hgroup a ha
      rcases hbad with hform | ⟨g', hg', hlow⟩
      · exact hform g rfl
      · cases hg'
        omega
  · intro hnot hconv
    constructor
    · rcases hw : n.inputs[1]? with _ | w
      · exact absurd ⟨hconv, .inl hw⟩ hnot
      · refine ⟨w, rfl, ?_⟩
        rintro rfl
        exact hnot ⟨hconv, .inr (.inl hw)⟩
    · intro a ha
      by_contra hbad
      apply hnot
      refine ⟨hconv, .inr (.inr ⟨a, ha, ?_⟩)⟩
      by_cases hform : ∀ g, a ≠ .int g
      · exact .inl hform
      · obtain ⟨g, rfl⟩ : ∃ g, a = .int g := by simpa using hform
        refine .inr ⟨g, rfl, ?_⟩
        by_contra hlow
        exact hbad ⟨g, rfl, by omega⟩

/-- In a sound node, a group count other than one is above one. -/
theorem usesGrouped_iff_groupedBy (hsound : n.Sound) {w : String} {g : Int64} :
    n.UsesGrouped w g ↔ n.GroupedBy w g := by
  constructor
  · rintro ⟨hconv, hw, hg, hne⟩
    obtain ⟨g', hg', hpos⟩ := (hsound hconv).2 _ hg
    cases hg'
    have hne' : g.toInt ≠ 1 := fun h => hne (Int64.toInt_inj.mp h)
    exact ⟨hconv, hw, hg, by omega⟩
  · rintro ⟨hconv, hw, hg, hlt⟩
    refine ⟨hconv, hw, hg, ?_⟩
    rintro rfl
    exact absurd hlt (by decide)

theorem groupedWeight?_of_ungrouped (h : n.Ungrouped) : n.groupedWeight? = .ok none := by
  obtain ⟨-, hweight, hgroup⟩ := h
  apply groupedWeight?_of_not_usesGrouped
  · intro _
    refine ⟨hweight, ?_⟩
    intro a ha
    exact ⟨1, hgroup a ha, by decide⟩
  · rintro w g ⟨-, -, hg, hne⟩
    cases hgroup _ hg
    exact hne rfl

/-- The text of a fault begins with the name of the node. -/
theorem Fault.detail_eq (h : n.Fault e) :
    ∃ rest, e.detail = "Conv node " ++ n.name ++ " has " ++ rest := by
  -- two of the texts end with a value
  have hsplit : ∀ words value : String, "Conv node " ++ n.name ++ (" has " ++ words) ++ value =
      "Conv node " ++ n.name ++ " has " ++ (words ++ value) := by
    intro words value
    simp only [String.append_assoc]
  cases h with
  | weight =>
    refine ⟨"no weight input", ?_⟩
    rw [String.append_assoc]
    rfl
  | groupForm => exact ⟨_, hsplit "a non-integer group attribute " _⟩
  | groupSize => exact ⟨_, hsplit "group " _⟩

end Node

/-! ### The last of several -/

theorem exists_mem_iff_last {α : Type} {P : α → Prop} {xs : List α} :
    (∃ x ∈ xs, P x) ↔
      ∃ before x after, xs = before ++ x :: after ∧ P x ∧ ∀ y ∈ after, ¬P y := by
  constructor
  · induction xs using List.reverseRecOn with
    | nil => simp
    | append_singleton xs x ih =>
      rintro ⟨y, hy, hP⟩
      by_cases hx : P x
      · exact ⟨xs, x, [], rfl, hx, by simp⟩
      · rcases List.mem_append.mp hy with hy | hy
        · obtain ⟨before, z, after, rfl, hz, hlast⟩ := ih ⟨y, hy, hP⟩
          refine ⟨before, z, after ++ [x], by simp, hz, ?_⟩
          intro k hk
          rcases List.mem_append.mp hk with hk | hk
          · exact hlast k hk
          · rw [List.mem_singleton.mp hk]
            exact hx
        · rw [List.mem_singleton.mp hy] at hP
          exact absurd hP hx
  · rintro ⟨before, x, after, rfl, hx, -⟩
    exact ⟨x, by simp, hx⟩

def LastGroup (nodes : List Node) (w : String) (g : Int64) : Prop :=
  ∃ before n after, nodes = before ++ n :: after ∧ n.GroupedBy w g ∧
    ∀ k ∈ after, ∀ g', ¬k.GroupedBy w g'

theorem lastUse_iff_lastGroup {nodes : List Node} (hsound : ∀ n ∈ nodes, n.Sound) {w : String}
    {g : Int64} : LastUse nodes w g ↔ LastGroup nodes w g := by
  constructor
  · rintro ⟨before, n, after, rfl, huse, hlast⟩
    refine ⟨before, n, after, rfl, ?_, ?_⟩
    · exact (Node.usesGrouped_iff_groupedBy (hsound n (by simp))).mp huse
    · intro k hk g' hg'
      exact hlast k hk g' ((Node.usesGrouped_iff_groupedBy (hsound k (by simp [hk]))).mpr hg')
  · rintro ⟨before, n, after, rfl, huse, hlast⟩
    refine ⟨before, n, after, rfl, ?_, ?_⟩
    · exact (Node.usesGrouped_iff_groupedBy (hsound n (by simp))).mpr huse
    · intro k hk g' hg'
      exact hlast k hk g' ((Node.usesGrouped_iff_groupedBy (hsound k (by simp [hk]))).mp hg')

theorem exists_lastGroup_iff {nodes : List Node} {w : String} :
    (∃ g, LastGroup nodes w g) ↔ ∃ n ∈ nodes, ∃ g, n.GroupedBy w g := by
  rw [exists_mem_iff_last]
  constructor
  · rintro ⟨g, before, n, after, hsplit, hg, hlast⟩
    exact ⟨before, n, after, hsplit, ⟨g, hg⟩, fun k hk hgrouped =>
      hgrouped.elim fun g' hg' => hlast k hk g' hg'⟩
  · rintro ⟨before, n, after, hsplit, ⟨g, hg⟩, hlast⟩
    exact ⟨g, before, n, after, hsplit, hg, fun k hk g' hg' => hlast k hk ⟨g', hg'⟩⟩

/-! ### Names stand once -/

theorem Table.mem_names_of_set {α : Type} {table : Table α} {name other : String} {value : α}
    (h : other ∈ (set name value table).map Prod.fst) :
    other = name ∨ other ∈ table.map Prod.fst := by
  induction table with
  | nil => exact .inl (List.mem_singleton.mp h)
  | cons entry rest ih =>
    obtain ⟨key, v⟩ := entry
    rw [set] at h
    by_cases hkey : name = key
    · rw [if_pos hkey] at h
      exact .inr h
    · rw [if_neg hkey] at h
      rcases List.mem_cons.mp h with h | h
      · exact .inr (List.mem_cons.mpr (.inl h))
      · rcases ih h with h | h
        · exact .inl h
        · exact .inr (List.mem_cons.mpr (.inr h))

theorem Table.nodup_set {α : Type} {table : Table α} (h : (table.map Prod.fst).Nodup)
    (name : String) (value : α) : ((set name value table).map Prod.fst).Nodup := by
  induction table with
  | nil => simp [set]
  | cons entry rest ih =>
    obtain ⟨key, v⟩ := entry
    obtain ⟨hfresh, hrest⟩ := List.nodup_cons.mp h
    rw [set]
    by_cases hkey : name = key
    · rw [if_pos hkey]
      exact h
    · rw [if_neg hkey]
      refine List.nodup_cons.mpr ⟨?_, ih hrest⟩
      intro hmem
      rcases mem_names_of_set hmem with heq | hmem
      · exact hkey heq.symm
      · exact hfresh hmem

theorem Groups.nodup_visit {groups found : Groups} {n : Node}
    (h : (groups.visit n).result = .ok found) (hnodup : (groups.map Prod.fst).Nodup) :
    (found.map Prod.fst).Nodup := by
  rw [result_visit] at h
  rcases hn : n.groupedWeight? with e | use
  · rw [hn] at h
    cases h
  · rw [hn] at h
    cases h
    rcases use with _ | ⟨w, g⟩
    · exact hnodup
    · exact Table.nodup_set hnodup w g

/-- What one node preserves, the scan preserves. -/
theorem nodup_groupedWeights {nodes : List Node} {found : Groups}
    (h : (groupedWeights nodes).result = .ok found) : (found.map Prod.fst).Nodup := by
  have hrun : ∀ groups : Groups, (groups.map Prod.fst).Nodup →
      (nodes.foldlM Groups.visit groups).result = .ok found → (found.map Prod.fst).Nodup := by
    clear h
    induction nodes with
    | nil =>
      rintro groups hnodup ⟨⟩
      exact hnodup
    | cons n rest ih =>
      intro groups hnodup h
      rw [List.foldlM_cons] at h
      obtain ⟨next, hvisit, h⟩ := Traced.bind_eq_ok_iff.mp h
      exact ih next (Groups.nodup_visit hvisit hnodup) h
  exact hrun [] List.nodup_nil h

/-! ### The scan -/

/-- The table has one entry for each weight that a convolution groups, with the group count
    of the last one that does. -/
structure Groups.Records (groups : Groups) (nodes : List Node) : Prop where
  names : (groups.map Prod.fst).Nodup
  present : ∀ w, (∃ g, Table.get? groups w = some g) ↔ ∃ n ∈ nodes, ∃ g, n.GroupedBy w g
  last : ∀ w g, Table.get? groups w = some g ↔ LastGroup nodes w g

theorem groupedWeights_records {nodes : List Node} {groups : Groups}
    (h : (groupedWeights nodes).result = .ok groups) : groups.Records nodes := by
  have hsound := exists_groupedWeights_iff.mp ⟨groups, h⟩
  have hlast : ∀ w g, Table.get? groups w = some g ↔ LastGroup nodes w g := by
    intro w g
    rw [get?_groupedWeights h, lastUse_iff_lastGroup hsound]
  refine ⟨nodup_groupedWeights h, ?_, hlast⟩
  intro w
  rw [← exists_lastGroup_iff]
  exact exists_congr fun g => hlast w g

/-- A convolution without groups leaves no trace. -/
theorem groupedWeights_skip {n : Node} (h : n.Ungrouped) (before after : List Node) :
    groupedWeights (before ++ n :: after) = groupedWeights (before ++ after) := by
  have hvisit : ∀ groups : Groups, groups.visit n = pure groups := by
    intro groups
    rw [Groups.visit, Node.groupedWeight?_of_ungrouped h]
    rfl
  rw [groupedWeights, groupedWeights, List.foldlM_append, List.foldlM_append]
  simp only [List.foldlM_cons, hvisit, pure_bind]

/-- **What the scan over convolutions finds.**  It fails if and only if a node offends, and
    then its error is about the first one; otherwise it returns the table of the last group
    counts, for which convolutions without groups play no part. -/
theorem groupedWeights_exact (nodes : List Node) :
    ((∃ e, (groupedWeights nodes).result = .error e) ↔ ∃ n ∈ nodes, n.Offends) ∧
    (∀ e, (groupedWeights nodes).result = .error e ↔ ∃ before n after,
      nodes = before ++ n :: after ∧ (∀ k ∈ before, ¬k.Offends) ∧ n.Offends ∧ n.Fault e ∧
        e.kind = .invalidGraph ∧ ∃ rest, e.detail = "Conv node " ++ n.name ++ " has " ++ rest) ∧
    ((∀ n ∈ nodes, ¬n.Offends) →
      ∃ groups : Groups, (groupedWeights nodes).result = .ok groups ∧ groups.Records nodes) ∧
    ∀ before n after, nodes = before ++ n :: after → n.Ungrouped →
      groupedWeights nodes = groupedWeights (before ++ after) := by
  have hok : (∃ groups, (groupedWeights nodes).result = .ok groups) ↔ ∀ n ∈ nodes, ¬n.Offends := by
    simp only [exists_groupedWeights_iff, Node.sound_iff_not_offends]
  refine ⟨?_, ?_, ?_, ?_⟩
  -- a scan that does not end with an error ends with a table, so this is `hok` negated
  · rcases hresult : (groupedWeights nodes).result with e | groups
    · rw [hresult] at hok
      simpa using hok
    · rw [hresult] at hok
      simpa using hok
  · intro e
    rw [groupedWeights_eq_error_iff]
    constructor
    · rintro ⟨before, n, after, hsplit, hsound, hfault⟩
      refine ⟨before, n, after, hsplit, ?_, ?_, hfault, hfault.kind, hfault.detail_eq⟩
      · intro k hk
        exact Node.sound_iff_not_offends.mp (hsound k hk)
      · by_contra hnot
        exact hfault.not_sound (Node.sound_iff_not_offends.mpr hnot)
    · rintro ⟨before, n, after, hsplit, hnot, -, hfault, -⟩
      exact ⟨before, n, after, hsplit,
        fun k hk => Node.sound_iff_not_offends.mpr (hnot k hk), hfault⟩
  · intro hnot
    obtain ⟨groups, h⟩ := hok.mpr hnot
    exact ⟨groups, h, groupedWeights_records h⟩
  · rintro before n after rfl h
    exact groupedWeights_skip h before after

/-- Convolutions that share a weight: one without a group count, one with four groups, one
    with two group counts of which the first is two, and one with a single group. -/
def sharedWeight : List Node :=
  [⟨"plain", "Conv", "", ["x", "w"], ["a"], [("pads", .ints [1, 1])], none⟩,
    ⟨"four", "Conv", "", ["a", "w", "b"], ["c"], [("group", .int 4)], none⟩,
    ⟨"two", "Conv", "", ["c", "w"], ["d"], [("group", .int 2), ("group", .int 7)], none⟩,
    ⟨"transposed", "ConvTranspose", "", ["d", "w"], ["e"], [("group", .int 8)], none⟩,
    ⟨"one", "Conv", "", ["e", "w"], ["f"], [("group", .int 1)], none⟩]

def offending : List Node :=
  [⟨"zero", "Conv", "", ["f", "w"], ["g"], [("group", .int 0)], none⟩,
    ⟨"bare", "Conv", "", ["g"], ["h"], [], none⟩]

theorem groupedWeights_exact_sharedWeight :
    (∀ n ∈ sharedWeight, ¬n.Offends) ∧
      (groupedWeights sharedWeight).result = .ok [("w", 2)] ∧
      Groups.Records [("w", 2)] sharedWeight ∧
      groupedWeights sharedWeight = groupedWeights (sharedWeight.take 4) ∧
      ∃ before n after, sharedWeight ++ offending = before ++ n :: after ∧
        (∀ k ∈ before, ¬k.Offends) ∧ n.Fault (.groupNotPositive "zero" 0) := by
  have hresult : (groupedWeights sharedWeight).result = .ok [("w", 2)] := rfl
  have herror : (groupedWeights (sharedWeight ++ offending)).result =
      .error (.groupNotPositive "zero" 0) := rfl
  obtain ⟨hfails, -, hrecords, hskip⟩ := groupedWeights_exact sharedWeight
  have hnot : ∀ n ∈ sharedWeight, ¬n.Offends := by
    intro n hn hoffends
    obtain ⟨e, he⟩ := hfails.mpr ⟨n, hn, hoffends⟩
    rw [hresult] at he
    cases he
  refine ⟨hnot, hresult, ?_, ?_, ?_⟩
  · obtain ⟨groups, hgroups, hrecorded⟩ := hrecords hnot
    rw [hresult] at hgroups
    cases hgroups
    exact hrecorded
  · apply hskip (sharedWeight.take 4) _ [] rfl
    refine ⟨rfl, ⟨"w", rfl, by decide⟩, ?_⟩
    intro a ha
    cases Node.attribute?_eq_some_iff.mpr ha
    rfl
  · obtain ⟨before, n, after, hsplit, hbefore, -, hfault, -⟩ :=
      ((groupedWeights_exact _).2.1 _).mp herror
    exact ⟨before, n, after, hsplit, hbefore, hfault⟩

end Mpsx
