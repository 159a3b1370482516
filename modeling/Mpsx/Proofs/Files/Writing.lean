/-
  Mpsx/Proofs/Files/Writing.lean
  ==============================
  **Writing a file.**  A file is put where a path leads, beside what its directory
  holds or in place of a file of that name.  Afterwards that place shows the new
  content and every other place shows what it did before, so every walk that was
  possible still is, and reading the path gives what was written.
-/

import Mpsx.Proofs.Files.Walking
import Mpsx.Proofs.Traced

namespace Mpsx

/-! ### Putting a file into a tree -/

namespace Entry

theorem at?_insert_self (content : Bytes) (place : List String) (e : Entry) :
    (e.insert content place).at? place = some (.file content) := by
  induction place generalizing e with
  | nil => rw [insert, at?_nil]
  | cons name rest ih =>
    cases e with
    | file old =>
      rw [insert, at?_directory_cons, Table.get?_cons, if_pos rfl]
      exact ih _
    | directory entries =>
      rw [insert, at?_directory_cons, Table.get?_set, if_pos rfl]
      exact ih _

theorem at?_append_of_view_ne {e : Entry} {place rest : List String}
    (h : (e.at? place).map view ≠ some .directory) (hrest : rest ≠ []) :
    e.at? (place ++ rest) = none := by
  rw [at?_append]
  cases hat : e.at? place with
  | none => rfl
  | some inner =>
    cases inner with
    | directory entries =>
      rw [hat] at h
      exact absurd rfl h
    | file content =>
      cases rest with
      | nil => exact absurd rfl hrest
      | cons name rest => rfl

/-- Nothing else changes, if the file goes into a directory and does not take the place
    of one. -/
theorem view_insert_of_ne {e : Entry} {place other : List String} {name : String}
    (content : Bytes) (hdir : (e.at? place).map view = some .directory)
    (hfree : (e.at? (place ++ [name])).map view ≠ some .directory)
    (hne : other ≠ place ++ [name]) :
    ((e.insert content (place ++ [name])).at? other).map view = (e.at? other).map view := by
  induction place generalizing e other with
  | nil =>
    obtain ⟨entries, rfl⟩ := view_eq_directory_iff.mp (Option.some.inj hdir)
    rw [List.nil_append, insert, insert]
    cases other with
    | nil => rfl
    | cons first rest =>
      by_cases hfirst : first = name
      · -- below the new file there is nothing, as there was nothing below its place
        subst hfirst
        have hrest : rest ≠ [] := by
          rintro rfl
          exact hne rfl
        have hbefore := at?_append_of_view_ne hfree hrest
        rw [List.nil_append, List.singleton_append] at hbefore
        rw [hbefore, at?_directory_cons, Table.get?_set, if_pos rfl]
        cases rest with
        | nil => exact absurd rfl hrest
        | cons next rest => rfl
      · rw [at?_directory_cons, at?_directory_cons, Table.get?_set, if_neg hfirst]
  | cons step place ih =>
    cases e with
    | file old => cases hdir
    | directory entries =>
      rw [List.cons_append, at?_directory_cons] at hfree
      rw [at?_directory_cons] at hdir
      cases hinner : Table.get? entries step with
      | none =>
        rw [hinner] at hdir
        cases hdir
      | some inner =>
        rw [hinner] at hdir hfree
        rw [List.cons_append, insert, hinner]
        cases other with
        | nil => rfl
        | cons first rest =>
          rw [at?_directory_cons, at?_directory_cons, Table.get?_set]
          by_cases hfirst : first = step
          · subst hfirst
            rw [if_pos rfl, hinner]
            apply ih hdir hfree
            rintro rfl
            exact hne rfl
          · rw [if_neg hfirst]

end Entry

/-! ### Putting a file into a file system -/

namespace FileSystem

def put (fs : FileSystem) (place : List String) (content : Bytes) : FileSystem :=
  { fs with root := fs.root.insert content place }

/-- A file can be put here: the place lies in a directory and is none itself. -/
def Creatable (fs : FileSystem) (place : List String) : Prop :=
  fs.view? place ≠ some .directory ∧
    ∃ directory name, place = directory ++ [name] ∧ fs.view? directory = some .directory

variable {fs : FileSystem} {place : List String} {content : Bytes}

theorem view?_put_self : (fs.put place content).view? place = some (.file content) := by
  rw [view?, put, Entry.at?_insert_self]
  rfl

theorem view?_put_of_ne (hplace : fs.Creatable place) {other : List String} (hne : other ≠ place) :
    (fs.put place content).view? other = fs.view? other := by
  obtain ⟨hfree, directory, name, rfl, hdirectory⟩ := hplace
  exact Entry.view_insert_of_ne content hdirectory hfree hne

/-- One file system is the other with a new file, or new content in a file, at one
    place. -/
structure UpdatedAt (before after : FileSystem) (place : List String) (content : Bytes) :
    Prop where
  sameDirectory : after.workingDirectory = before.workingDirectory
  written : after.view? place = some (.file content)
  others : ∀ other, other ≠ place → after.view? other = before.view? other

theorem updatedAt_put (hplace : fs.Creatable place) :
    fs.UpdatedAt (fs.put place content) place content where
  sameDirectory := rfl
  written := view?_put_self
  others _ hne := view?_put_of_ne hplace hne

/-- What can be seen to change is the one place, unless it showed the same before. -/
theorem UpdatedAt.changed_iff {before after : FileSystem}
    (h : before.UpdatedAt after place content) (other : List String) :
    after.view? other ≠ before.view? other ↔
      other = place ∧ before.view? place ≠ some (.file content) := by
  by_cases hother : other = place
  · subst hother
    rw [h.written]
    exact ⟨fun hne => ⟨rfl, hne.symm⟩, fun hne => hne.2.symm⟩
  · simp [h.others other hother, hother]

theorem view?_put_directory (hplace : fs.Creatable place) {other : List String}
    (h : fs.view? other = some .directory) :
    (fs.put place content).view? other = some .directory := by
  rw [view?_put_of_ne hplace, h]
  rintro rfl
  exact hplace.1 h

theorem view?_put_ne_none (hplace : fs.Creatable place) {other : List String}
    (h : fs.view? other ≠ none) : (fs.put place content).view? other ≠ none := by
  by_cases hother : other = place
  · rw [hother, view?_put_self]
    simp
  · rw [view?_put_of_ne hplace hother]
    exact h

theorem step_put (hplace : fs.Creatable place) {here next : List String} {piece : String}
    (h : fs.step here piece = .ok next) : (fs.put place content).step here piece = .ok next := by
  rw [step_eq_ok_iff] at h ⊢
  obtain ⟨hhere, hmove⟩ := h
  refine ⟨view?_put_directory hplace hhere, ?_⟩
  rcases hmove with hstay | hup | ⟨htrivial, hdown, hname, hthere, hnext⟩
  · exact .inl hstay
  · exact .inr (.inl hup)
  · exact .inr (.inr ⟨htrivial, hdown, hname, view?_put_ne_none hplace hthere, hnext⟩)

theorem walk_put (hplace : fs.Creatable place) {here next : List String} {pieces : List String}
    (h : fs.walk here pieces = .ok next) :
    (fs.put place content).walk here pieces = .ok next := by
  induction pieces generalizing here with
  | nil => exact h
  | cons piece rest ih =>
    rw [walk_cons] at h ⊢
    cases hstep : fs.step here piece with
    | error e =>
      rw [hstep] at h
      cases h
    | ok between =>
      rw [hstep] at h
      rw [step_put hplace hstep]
      exact ih h

/-! ### Writing to a path -/

theorem text_ne_of_checkPath {p : Path} (h : checkPath p = .ok ()) : p.text ≠ "" := by
  intro hempty
  simp only [checkPath, if_pos hempty] at h
  split at h
  · cases h
  · cases h

/-- The name that a path ends with is its last piece, if no slash follows it. -/
theorem pieces_eq_of_dropWhile {p : Path} {name : String} {before : List String}
    (hne : p.text ≠ "") (hslash : p.text.toList.getLast? ≠ some '/')
    (h : p.pieces.reverse.dropWhile (· = "") = name :: before) :
    p.pieces = before.reverse ++ [name] ∧ name ≠ "" := by
  obtain ⟨before', name', hpieces, hempty⟩ := Path.exists_pieces_concat hne hslash
  rw [hpieces, List.reverse_append, List.reverse_singleton, List.singleton_append,
    List.dropWhile_cons_of_neg (by simpa using hempty), List.cons.injEq] at h
  obtain ⟨rfl, rfl⟩ := h
  rw [List.reverse_reverse]
  exact ⟨hpieces, hempty⟩

/-- A name that is not that of a directory among the entries is not the place of one. -/
theorem view?_ne_directory_of_get? {directory : List String} {entries : List (String × Entry)}
    {name : String} (hentries : fs.entriesAt directory = .ok entries)
    (hfree : ∀ below, Table.get? entries name ≠ some (.directory below)) :
    fs.view? (directory ++ [name]) ≠ some .directory := by
  rw [← (view?_of_entriesAt hentries).2 name]
  intro hview
  obtain ⟨inner, hget, hinner⟩ := Option.map_eq_some_iff.mp hview
  obtain ⟨below, rfl⟩ := Entry.view_eq_directory_iff.mp hinner
  exact hfree below hget

/-- A path that a file can be created at ends with the file's name, and what comes
    before leads to the directory the file goes into. -/
theorem target_eq_ok {p : Path} (h : fs.target p = .ok place) :
    checkPath p = .ok () ∧ fs.Creatable place ∧ ∃ before name directory,
      p.pieces = before ++ [name] ∧ place = directory ++ [name] ∧
      fs.walk (fs.start p) before = .ok directory ∧ fs.view? directory = some .directory ∧
      Path.isTrivial name = false ∧ name ≠ ".." ∧ nameSize name ≤ nameLimit := by
  obtain ⟨⟨⟩, hcheck, hlead⟩ := exceptBind_eq_ok_iff.mp h
  split at hlead
  · cases hlead
  · next name before hrest =>
    obtain ⟨directory, hwalk, hfile⟩ := exceptBind_eq_ok_iff.mp hlead
    obtain ⟨entries, hentries, hfile⟩ := exceptBind_eq_ok_iff.mp hfile
    have hdirectory := (view?_of_entriesAt hentries).1
    split at hfile
    · cases hfile
    · next hdots =>
      simp only [not_or] at hdots
      obtain ⟨hdot, hdown, hslash⟩ := hdots
      obtain ⟨hpieces, hempty⟩ :=
        pieces_eq_of_dropWhile (text_ne_of_checkPath hcheck) hslash hrest
      split at hfile
      · cases hfile
      · next hname =>
        split at hfile
        · cases hfile
        · next hfree =>
          cases hfile
          refine ⟨hcheck, ⟨view?_ne_directory_of_get? hentries hfree, directory, name, rfl,
            hdirectory⟩, before.reverse, name, directory, hpieces, rfl, hwalk, hdirectory, ?_,
            hdown, Nat.not_lt.mp hname⟩
          simp [Path.isTrivial, hempty, hdot]

theorem read_put {p : Path} (h : fs.target p = .ok place) :
    (fs.put place content).read p = .ok content := by
  obtain ⟨hcheck, hplace, before, name, directory, hpieces, rfl, hwalk, hdirectory, htrivial,
    hdown, hname⟩ := target_eq_ok h
  have hstep : (fs.put (directory ++ [name]) content).step directory name =
      .ok (directory ++ [name]) := by
    refine step_eq_ok_iff.mpr ⟨view?_put_directory hplace hdirectory, .inr (.inr ?_)⟩
    exact ⟨htrivial, hdown, hname, by simp [view?_put_self], rfl⟩
  have hpath : (fs.put (directory ++ [name]) content).walk (fs.start p) p.pieces =
      .ok (directory ++ [name]) := by
    rw [hpieces, walk_append, walk_put hplace hwalk]
    exact (walk_cons ..).trans (by rw [hstep]; rfl)
  rw [read_eq, hcheck]
  show (fs.put (directory ++ [name]) content).walk (fs.start p) p.pieces >>= _ = _
  rw [hpath]
  show contentOf _ = _
  rw [view?_put_self]
  rfl

theorem write_eq_ok_iff {p : Path} {after : FileSystem} :
    fs.write p content = .ok after ↔
      ∃ place, fs.target p = .ok place ∧ after = fs.put place content := by
  unfold write
  cases fs.target p with
  | error e => simp [bind, Except.bind]
  | ok place => simp [bind, Except.bind, pure, Except.pure, put, eq_comm]

end FileSystem

end Mpsx
