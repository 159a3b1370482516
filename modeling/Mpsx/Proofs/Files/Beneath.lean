/-
  Mpsx/Proofs/Files/Beneath.lean
  ==============================
  **Reading inside a directory.**  A relative path without a piece that goes up is
  walked among the names beneath the directory it is taken in, and never above them.
  So what is read there is decided by what the file system shows beneath the directory
  (`FileSystem.beneath`), whatever the path is and whatever else there is.
-/

import Mpsx.Proofs.Files.Walking

namespace Mpsx

/-! ### Joined paths -/

namespace Path

variable {d inside : Path}

theorem isAbsolute_join (hinside : inside.isAbsolute = false) :
    (d.join inside).isAbsolute = d.isAbsolute := by
  by_cases hempty : d.text = ""
  · have hjoin : d.join inside = inside := by
      rw [join, if_pos (.inl hempty), hempty, String.empty_append]
    rw [hjoin, hinside, isAbsolute, hempty]
    rfl
  · obtain ⟨c, rest, htext⟩ := List.exists_cons_of_ne_nil (mt String.toList_eq_nil_iff.mp hempty)
    have hhead : ∀ more : String, (⟨d.text ++ more⟩ : Path).isAbsolute = d.isAbsolute := by
      intro more
      simp [isAbsolute, htext]
    rw [join]
    split
    · exact hhead _
    · rw [String.append_assoc]
      exact hhead _

/-- The pieces of a joined path are those of its parts, but for an empty piece between
    them. -/
theorem pieces_join (d inside : Path) :
    (d.join inside).pieces = d.pieces ++ inside.pieces ∨
      ∃ before, d.pieces = before ++ [""] ∧ (d.join inside).pieces = before ++ inside.pieces := by
  rw [join]
  split
  · next hend =>
    right
    rcases hend with hempty | hslash
    · exact ⟨[], by simp [pieces, hempty, cut], by simp [pieces, hempty]⟩
    · obtain ⟨before, htext⟩ := List.getLast?_eq_some_iff.mp hslash
      refine ⟨(cut before).map String.ofList, ?_, ?_⟩
      · rw [pieces, htext, cut_append_slash]
        simp [cut]
      · rw [pieces, String.toList_append, htext, List.append_assoc, List.singleton_append,
          cut_append_slash, List.map_append]
        rfl
  · left
    simp [pieces, cut_append_slash]

end Path

/-! ### Walking beneath a place -/

namespace FileSystem

theorem walk_empty_cons (fs : FileSystem) (place : List String) {pieces : List String}
    (hne : pieces ≠ []) : fs.walk place ("" :: pieces) = fs.walk place pieces := by
  obtain ⟨piece, rest, rfl⟩ := List.exists_cons_of_ne_nil hne
  by_cases hview : fs.view? place = some .directory
  · have hstay : fs.step place "" = .ok place :=
      step_eq_ok_iff.mpr ⟨hview, .inl ⟨rfl, rfl⟩⟩
    rw [walk_cons, hstay]
    rfl
  · -- outside a directory every piece fails in the same way
    rw [walk_cons, walk_cons, step_eq, step_eq]
    cases hshown : fs.view? place with
    | none => rfl
    | some view =>
      cases view with
      | file content => rfl
      | directory => exact absurd hshown hview

theorem walk_join (fs : FileSystem) {d inside : Path} (hinside : inside.isAbsolute = false) :
    fs.walk (fs.start (d.join inside)) (d.join inside).pieces =
      fs.walk (fs.start d) d.pieces >>= fun place => fs.walk place inside.pieces := by
  have hstart : fs.start (d.join inside) = fs.start d := by
    rw [start, Path.isAbsolute_join hinside, start]
  have hne : inside.pieces ≠ [] := by
    intro hnil
    exact Path.cut_ne_nil _ (List.map_eq_nil_iff.mp hnil)
  rw [hstart, ← walk_append]
  rcases Path.pieces_join d inside with hjoin | ⟨before, hd, hjoin⟩
  · rw [hjoin]
  · rw [hjoin, hd, List.append_assoc, List.singleton_append, walk_append, walk_append]
    congr 1
    funext place
    exact (fs.walk_empty_cons place hne).symm

/-- Walks one piece that does not go up, among names of which all is known that can be
    seen. -/
def stepAmong (shown : List String → Option Entry.View) (names : List String)
    (piece : String) : Except FileError (List String) :=
  match shown names with
  | none => .error .notFound
  | some (.file _) => .error .notDirectory
  | some .directory =>
    if Path.isTrivial piece then .ok names
    else if nameLimit < nameSize piece then .error .nameTooLong
    else if shown (names ++ [piece]) = none then .error .notFound
    else .ok (names ++ [piece])

/-- Beneath a place, a step sees only what is there and stays there. -/
theorem step_beneath (fs : FileSystem) (place names : List String) {piece : String}
    (hdown : piece ≠ "..") :
    fs.step (place ++ names) piece =
      (stepAmong (fun rest => fs.view? (place ++ rest)) names piece).map (place ++ ·) := by
  rw [step_eq, stepAmong, List.append_assoc]
  cases fs.view? (place ++ names) with
  | none => rfl
  | some view =>
    cases view with
    | file content => rfl
    | directory =>
      simp only [if_neg hdown]
      split
      · rfl
      · split
        · rfl
        · split
          · rfl
          · rfl

theorem walk_beneath (fs : FileSystem) (place : List String) {pieces : List String}
    (hdown : ".." ∉ pieces) (names : List String) :
    fs.walk (place ++ names) pieces =
      (pieces.foldlM (stepAmong fun rest => fs.view? (place ++ rest)) names).map
        (place ++ ·) := by
  induction pieces generalizing names with
  | nil => rfl
  | cons piece rest ih =>
    rw [List.mem_cons, not_or] at hdown
    obtain ⟨hpiece, hrest⟩ := hdown
    rw [walk_cons, step_beneath fs place names (Ne.symm hpiece), List.foldlM_cons]
    cases stepAmong (fun rest => fs.view? (place ++ rest)) names piece with
    | error e => rfl
    | ok next => exact ih hrest next

/-! ### Reading beneath a directory -/

/-- What a file system shows of a directory and of everything beneath it, by the names
    from there on; an error if the path of the directory cannot be walked. -/
def beneath (fs : FileSystem) (d : Path) :
    Except FileError (List String → Option Entry.View) := do
  let place ← fs.walk (fs.start d) d.pieces
  return fun names => fs.view? (place ++ names)

theorem beneath_eq_of_at? {fs : FileSystem} {d : Path} {place : List String} {e : Entry}
    (hwalk : fs.walk (fs.start d) d.pieces = .ok place) (hat : fs.root.at? place = some e) :
    fs.beneath d = .ok fun names => (e.at? names).map Entry.view := by
  rw [beneath, hwalk]
  show Except.ok _ = Except.ok _
  congr 1
  funext names
  rw [view?, Entry.at?_append, hat]
  rfl

theorem read_join (fs : FileSystem) {d inside : Path} (h : inside.escapes = false) :
    fs.read (d.join inside) = checkPath (d.join inside) >>= fun _ =>
      fs.beneath d >>= fun shown =>
        inside.pieces.foldlM (stepAmong shown) [] >>= fun names => contentOf (shown names) := by
  rw [Path.escapes, Bool.or_eq_false_iff] at h
  obtain ⟨hrelative, hup⟩ := h
  have hdown : ".." ∉ inside.pieces := by
    intro hmem
    exact List.any_eq_false.mp hup ".." hmem (decide_eq_true rfl)
  rw [read_eq, walk_join fs hrelative, beneath]
  congr 1
  funext _
  rw [bind_assoc, bind_assoc]
  congr 1
  funext place
  have hwalk := walk_beneath fs place hdown []
  rw [List.append_nil] at hwalk
  rw [hwalk, pure_bind]
  cases inside.pieces.foldlM (stepAmong fun rest => fs.view? (place ++ rest)) [] with
  | error e => rfl
  | ok names => rfl

end FileSystem

end Mpsx
