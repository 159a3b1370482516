/-
  Mpsx/Proofs/Files/Walking.lean
  ==============================
  **Walking a path.**  A path is walked piece by piece, and a path inside another one
  continues its walk.  A place, given by the names on the way to it, shows a file with
  its content, a directory, or nothing; walking and reading depend on a file system
  only through what its places show, never on how its directories are kept.
  `step_eq` and `read_eq` say how, and everything else is derived from them.
-/

import Mpsx.Files.FileSystem

namespace Mpsx

/-! ### Pieces -/

namespace Path

theorem cut_ne_nil (cs : List Char) : cut cs ≠ [] := by
  cases cs with
  | nil => simp [cut]
  | cons c rest =>
    rw [cut]
    split
    · simp
    · split
      · simp
      · simp

theorem cut_append_slash (cs ds : List Char) : cut (cs ++ '/' :: ds) = cut cs ++ cut ds := by
  induction cs with
  | nil => simp [cut]
  | cons c rest ih =>
    rw [List.cons_append, cut, cut, ih]
    by_cases hslash : c = '/'
    · simp [hslash]
    · simp only [if_neg hslash]
      cases hcut : cut rest with
      | nil => exact absurd hcut (cut_ne_nil rest)
      | cons piece more => rfl

/-- The last piece ends with the last character, unless that is a slash. -/
theorem exists_cut_concat (cs : List Char) {c : Char} (hc : c ≠ '/') :
    ∃ before piece, cut (cs ++ [c]) = before ++ [piece ++ [c]] := by
  induction cs with
  | nil => exact ⟨[], [], by simp [cut, hc]⟩
  | cons d rest ih =>
    obtain ⟨before, piece, hcut⟩ := ih
    rw [List.cons_append, cut, hcut]
    by_cases hslash : d = '/'
    · exact ⟨[] :: before, piece, by simp [hslash]⟩
    · rw [if_neg hslash]
      cases before with
      | nil => exact ⟨[], d :: piece, rfl⟩
      | cons first more => exact ⟨(d :: first) :: more, piece, rfl⟩

/-- A path that does not end with a slash ends with a name. -/
theorem exists_pieces_concat {p : Path} (hne : p.text ≠ "")
    (hslash : p.text.toList.getLast? ≠ some '/') :
    ∃ before name, p.pieces = before ++ [name] ∧ name ≠ "" := by
  rcases List.eq_nil_or_concat p.text.toList with hnil | ⟨cs, c, hconcat⟩
  · exact absurd (String.toList_eq_nil_iff.mp hnil) hne
  · have hc : c ≠ '/' := by
      rintro rfl
      exact hslash (by simp [hconcat])
    obtain ⟨before, piece, hcut⟩ := exists_cut_concat cs hc
    refine ⟨before.map String.ofList, String.ofList (piece ++ [c]), ?_, ?_⟩
    · simp [pieces, hconcat, hcut]
    · simp

end Path

/-! ### What places show -/

/-- What an entry shows without going into it. -/
inductive Entry.View where
  | file (content : Bytes)
  | directory
deriving DecidableEq, Repr

namespace Entry

def view : Entry → View
  | .file content => .file content
  | .directory _ => .directory

theorem view_eq_directory_iff {e : Entry} :
    e.view = .directory ↔ ∃ entries, e = .directory entries := by
  cases e with
  | file content => simp [view]
  | directory entries => simp [view]

@[simp] theorem at?_nil (e : Entry) : e.at? [] = some e := by
  rw [at?]

@[simp] theorem at?_file_cons (content : Bytes) (name : String) (rest : List String) :
    (Entry.file content).at? (name :: rest) = none := by
  rw [at?]

@[simp] theorem at?_directory_cons (entries : List (String × Entry)) (name : String)
    (rest : List String) :
    (Entry.directory entries).at? (name :: rest) =
      (Table.get? entries name).bind fun inner => inner.at? rest := by
  rw [at?]
  cases Table.get? entries name <;> rfl

theorem at?_append (e : Entry) (first rest : List String) :
    e.at? (first ++ rest) = (e.at? first).bind fun inner => inner.at? rest := by
  induction first generalizing e with
  | nil => simp
  | cons name first ih =>
    cases e with
    | file content => simp
    | directory entries =>
      rw [List.cons_append, at?_directory_cons, at?_directory_cons, Option.bind_assoc]
      congr 1
      funext inner
      exact ih inner

end Entry

namespace FileSystem

def view? (fs : FileSystem) (place : List String) : Option Entry.View :=
  (fs.root.at? place).map Entry.view

def contentOf : Option Entry.View → Except FileError Bytes
  | some (.file content) => .ok content
  | some .directory => .error .isDirectory
  | none => .error .notFound

variable {fs : FileSystem} {place : List String}

/-- A place that shows a directory has entries, and these are what the places below it
    show. -/
theorem exists_entriesAt (hview : fs.view? place = some .directory) :
    ∃ entries, fs.entriesAt place = .ok entries ∧
      ∀ name, (Table.get? entries name).map Entry.view = fs.view? (place ++ [name]) := by
  obtain ⟨e, hat, he⟩ := Option.map_eq_some_iff.mp hview
  obtain ⟨entries, rfl⟩ := Entry.view_eq_directory_iff.mp he
  refine ⟨entries, by rw [entriesAt, hat], ?_⟩
  intro name
  rw [view?, Entry.at?_append, hat]
  cases hget : Table.get? entries name with
  | none => simp [hget]
  | some inner => simp [hget]

theorem view?_of_entriesAt {entries : List (String × Entry)}
    (h : fs.entriesAt place = .ok entries) :
    fs.view? place = some .directory ∧
      ∀ name, (Table.get? entries name).map Entry.view = fs.view? (place ++ [name]) := by
  have hview : fs.view? place = some .directory := by
    unfold entriesAt at h
    split at h
    · next hat => rw [view?, hat]; rfl
    · cases h
    · cases h
  obtain ⟨entries', hentries, hnames⟩ := exists_entriesAt hview
  cases h.symm.trans hentries
  exact ⟨hview, hnames⟩

theorem entriesAt_of_none (hview : fs.view? place = none) :
    fs.entriesAt place = .error .notFound := by
  rw [entriesAt, Option.map_eq_none_iff.mp hview]

theorem entriesAt_of_file {content : Bytes} (hview : fs.view? place = some (.file content)) :
    fs.entriesAt place = .error .notDirectory := by
  obtain ⟨e, hat, he⟩ := Option.map_eq_some_iff.mp hview
  rw [entriesAt, hat]
  cases e with
  | file content => rfl
  | directory entries => cases he

/-! ### Walking and reading -/

/-- Everything that walking one piece can do. -/
theorem step_eq (fs : FileSystem) (place : List String) (piece : String) :
    fs.step place piece =
      match fs.view? place with
      | none => .error .notFound
      | some (.file _) => .error .notDirectory
      | some .directory =>
        if Path.isTrivial piece then .ok place
        else if piece = ".." then .ok place.dropLast
        else if nameLimit < nameSize piece then .error .nameTooLong
        else if fs.view? (place ++ [piece]) = none then .error .notFound
        else .ok (place ++ [piece]) := by
  unfold step
  cases hview : fs.view? place with
  | none =>
    rw [entriesAt_of_none hview]
    rfl
  | some view =>
    cases view with
    | file content =>
      rw [entriesAt_of_file hview]
      rfl
    | directory =>
      obtain ⟨entries, hentries, hnames⟩ := exists_entriesAt hview
      rw [hentries, ← hnames piece]
      simp only [bind, Except.bind]
      cases Table.get? entries piece with
      | none =>
        simp only [Option.map_none, if_true]
        rfl
      | some inner =>
        simp only [Option.map_some, reduceCtorEq, if_false]
        rfl

/-- A step stays, goes up, or goes down to something that is there. -/
theorem step_eq_ok_iff {next : List String} {piece : String} :
    fs.step place piece = .ok next ↔ fs.view? place = some .directory ∧
      (Path.isTrivial piece = true ∧ next = place ∨
        Path.isTrivial piece = false ∧ piece = ".." ∧ next = place.dropLast ∨
        Path.isTrivial piece = false ∧ piece ≠ ".." ∧ nameSize piece ≤ nameLimit ∧
          fs.view? (place ++ [piece]) ≠ none ∧ next = place ++ [piece]) := by
  rw [step_eq]
  constructor
  · intro h
    cases hview : fs.view? place with
    | none =>
      rw [hview] at h
      cases h
    | some view =>
      rw [hview] at h
      cases view with
      | file content => cases h
      | directory =>
        refine ⟨rfl, ?_⟩
        dsimp only at h
        split at h
        · next htrivial =>
          cases h
          exact .inl ⟨htrivial, rfl⟩
        · next htrivial =>
          rw [Bool.not_eq_true] at htrivial
          split at h
          · next hup =>
            cases h
            exact .inr (.inl ⟨htrivial, hup, rfl⟩)
          · next hup =>
            split at h
            · cases h
            · next hname =>
              split at h
              · cases h
              · next hthere =>
                cases h
                exact .inr (.inr ⟨htrivial, hup, Nat.not_lt.mp hname, hthere, rfl⟩)
  · rintro ⟨hview, ⟨htrivial, rfl⟩ | ⟨htrivial, hup, rfl⟩ | ⟨htrivial, hup, hname, hthere, rfl⟩⟩
    · rw [hview]
      exact if_pos htrivial
    · rw [hview]
      exact (if_neg (by simp [htrivial])).trans (if_pos hup)
    · rw [hview]
      dsimp only
      rw [if_neg (by simp [htrivial]), if_neg hup, if_neg (Nat.not_lt.mpr hname), if_neg hthere]

theorem walk_append (fs : FileSystem) (place first rest : List String) :
    fs.walk place (first ++ rest) = fs.walk place first >>= fun next => fs.walk next rest :=
  List.foldlM_append

theorem walk_cons (fs : FileSystem) (place : List String) (piece : String) (rest : List String) :
    fs.walk place (piece :: rest) = fs.step place piece >>= fun next => fs.walk next rest :=
  List.foldlM_cons

theorem read_eq (fs : FileSystem) (p : Path) :
    fs.read p = checkPath p >>= fun _ => fs.walk (fs.start p) p.pieces >>= fun place =>
      contentOf (fs.view? place) := by
  unfold read
  congr 1
  funext _
  congr 1
  funext place
  unfold view?
  cases fs.root.at? place with
  | none => rfl
  | some e =>
    cases e with
    | file content => rfl
    | directory entries => rfl

end FileSystem

end Mpsx
