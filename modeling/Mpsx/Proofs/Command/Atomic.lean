/-
  Mpsx/Proofs/Command/Atomic.lean
  ===============================
  **The command writes once, at the end, or not at all.**  A run writes if the input
  is read as a model that is not a converted one, the model converts without its
  documentation, and the output can be created.  Then exactly the output changes, to
  the encoding of the converted model; everything that is read for it is read from
  the files as they were, also where the output takes the place of the input or of a
  file with its data.  In every other case all files are as they were, and the exit
  code tells a model that was converted before from one that is refused, and both
  from one whose conversion is stopped by an overflow.
-/

import Mathlib.Algebra.Group.Nat.Defs
import Mpsx.Command.Run
import Mpsx.Proofs.Convert.Refused
import Mpsx.Proofs.Files.Writing
import Mpsx.Proofs.Onnx.RoundTrip

namespace Mpsx.Command

/-! ### What a run does -/

def Writes (fs : FileSystem) (o : Options) (place : List String) (bytes : Bytes) : Prop :=
  ∃ m m', (Onnx.load fs.read o.input).result = .ok m ∧ m.producerName ≠ some "MPSX" ∧
    (m.strip.convert o.target).result = .ok m' ∧ fs.target o.output = .ok place ∧
    bytes = Onnx.encode m'

/-- A run has nothing to do: the input is a converted model. -/
def Skips (fs : FileSystem) (o : Options) : Prop :=
  ∃ m, (Onnx.load fs.read o.input).result = .ok m ∧ m.producerName = some "MPSX"

def Overflows (fs : FileSystem) (o : Options) : Prop :=
  ∃ m, (Onnx.load fs.read o.input).result = .ok m ∧ m.producerName ≠ some "MPSX" ∧
    (m.strip.convert o.target).result = .error .overflow

theorem isConverted_strip_iff {m : Model} :
    m.strip.isConverted = true ↔ m.producerName = some "MPSX" :=
  decide_eq_true_iff

theorem prepare_eq_ok_iff {read : Path → Except FileError Bytes} {o : Options}
    {r : Option Model} :
    (prepare read o).result = .ok r ↔ ∃ m, (Onnx.load read o.input).result = .ok m ∧
      (m.producerName = some "MPSX" ∧ r = none ∨
        m.producerName ≠ some "MPSX" ∧ ∃ m', (m.strip.convert o.target).result = .ok m' ∧
          r = some m') := by
  simp only [prepare, Traced.bind_eq_ok_iff, Traced.mapError_eq_ok_iff,
    Model.convertOnce_eq_ok_iff, ← Bool.not_eq_true, isConverted_strip_iff]
  constructor
  · rintro ⟨m, hload, c, ⟨htag, rfl⟩ | ⟨htag, m', rfl, hconvert⟩, h⟩
    · cases h
      exact ⟨m, hload, .inl ⟨htag, rfl⟩⟩
    · cases h
      exact ⟨m, hload, .inr ⟨htag, m', hconvert, rfl⟩⟩
  · rintro ⟨m, hload, ⟨htag, rfl⟩ | ⟨htag, m', hconvert, rfl⟩⟩
    · exact ⟨m, hload, _, .inl ⟨htag, rfl⟩, rfl⟩
    · exact ⟨m, hload, _, .inr ⟨htag, m', rfl, hconvert⟩, rfl⟩

theorem prepare_eq_overflow_iff {read : Path → Except FileError Bytes} {o : Options} :
    (prepare read o).result = .error .overflow ↔ ∃ m, (Onnx.load read o.input).result = .ok m ∧
      m.producerName ≠ some "MPSX" ∧ (m.strip.convert o.target).result = .error .overflow := by
  have hmap : ∀ s : Stop ConvertError, Stop.overflow = s.map Failure.convert ↔ s = .overflow := by
    intro s
    cases s <;> simp [Stop.map]
  simp only [prepare, Traced.bind_eq_error_iff, Traced.mapError_eq_ok_iff,
    Traced.mapError_eq_error_iff, hmap, reduceCtorEq, false_and, exists_false, false_or,
    exists_eq_left, Model.convertOnce_eq_error_iff, ← Bool.not_eq_true, isConverted_strip_iff]
  constructor
  · rintro ⟨m, hload, h | ⟨c, -, h⟩⟩
    · exact ⟨m, hload, h⟩
    · cases c <;> cases h
  · rintro ⟨m, hload, h⟩
    exact ⟨m, hload, .inl h⟩

/-- A model is loaded from what its file holds. -/
theorem load_eq_ok_iff {read : Path → Except FileError Bytes} {p : Path} {m : Model} :
    (Onnx.load read p).result = .ok m ↔
      ∃ bytes, read p = .ok bytes ∧ (Onnx.decode ⟨read, p.parent?⟩ bytes).result = .ok m := by
  rw [Onnx.load, Traced.bind_eq_ok_iff]
  cases read p with
  | error e =>
    constructor
    · rintro ⟨⟨⟩, -, h⟩
      cases h
    · rintro ⟨bytes, h, -⟩
      cases h
  | ok bytes =>
    constructor
    · rintro ⟨⟨⟩, -, h⟩
      exact ⟨bytes, rfl, h⟩
    · rintro ⟨bytes', h, hdecode⟩
      cases h
      exact ⟨(), rfl, hdecode⟩

theorem save_eq_ok_iff {fs after : FileSystem} {m : Model} {p : Path} :
    (Onnx.save fs m p).result = .ok after ↔
      ∃ place, fs.target p = .ok place ∧ after = fs.put place (Onnx.encode m) := by
  rw [← FileSystem.write_eq_ok_iff, Onnx.save, Traced.bind_eq_ok_iff]
  constructor
  · rintro ⟨⟨⟩, -, hwrite⟩
    exact hwrite
  · intro hwrite
    exact ⟨(), rfl, hwrite⟩

/-- A run that does not fail writes or has nothing to do. -/
theorem convertFile_eq_ok_iff {fs : FileSystem} {o : Options} {r : Option FileSystem} :
    (convertFile fs o).result = .ok r ↔
      (Skips fs o ∧ r = none) ∨
        ∃ place bytes, Writes fs o place bytes ∧ r = some (fs.put place bytes) := by
  rw [convertFile, Traced.bind_eq_ok_iff]
  simp only [prepare_eq_ok_iff]
  constructor
  · rintro ⟨_, ⟨m, hload, ⟨htag, rfl⟩ | ⟨htag, m', hconvert, rfl⟩⟩, h⟩
    · cases h
      exact .inl ⟨⟨m, hload, htag⟩, rfl⟩
    · obtain ⟨after, hsave, h⟩ := Traced.bind_eq_ok_iff.mp h
      obtain ⟨place, htarget, rfl⟩ := save_eq_ok_iff.mp (Traced.mapError_eq_ok_iff.mp hsave)
      cases h
      exact .inr ⟨place, _, ⟨m, m', hload, htag, hconvert, htarget, rfl⟩, rfl⟩
  · rintro (⟨⟨m, hload, htag⟩, rfl⟩ |
      ⟨place, _, ⟨m, m', hload, htag, hconvert, htarget, rfl⟩, rfl⟩)
    · exact ⟨_, ⟨m, hload, .inl ⟨htag, rfl⟩⟩, rfl⟩
    · refine ⟨_, ⟨m, hload, .inr ⟨htag, m', hconvert, rfl⟩⟩, ?_⟩
      exact Traced.bind_eq_ok_iff.mpr
        ⟨_, Traced.mapError_eq_ok_iff.mpr (save_eq_ok_iff.mpr ⟨place, htarget, rfl⟩), rfl⟩

theorem convertFile_eq_overflow_iff {fs : FileSystem} {o : Options} :
    (convertFile fs o).result = .error .overflow ↔ Overflows fs o := by
  simp only [convertFile, Traced.bind_eq_error_iff, prepare_eq_overflow_iff]
  constructor
  · rintro (h | ⟨_ | m, -, h⟩)
    · exact h
    · cases h
    · -- an output that cannot be created is an error
      rcases Traced.bind_eq_error_iff.mp h with h | ⟨after, -, h⟩
      · obtain ⟨e, he, -⟩ := Traced.mapError_eq_error_iff.mp h
        cases he
      · cases h
  · exact .inl

/-! ### What a run leaves behind -/

section Outcome

variable {fs : FileSystem} {o : Options}

theorem convert_of_writes {place : List String} {bytes : Bytes} (h : Writes fs o place bytes) :
    convert fs o = ⟨0, doneLine o, "", fs.put place bytes⟩ := by
  rw [convert, convertFile_eq_ok_iff.mpr (.inr ⟨place, bytes, h, rfl⟩)]

theorem convert_of_skips (h : Skips fs o) : convert fs o = ⟨0, "", "", fs⟩ := by
  rw [convert, convertFile_eq_ok_iff.mpr (.inl ⟨h, rfl⟩)]

theorem convert_of_overflows (h : Overflows fs o) :
    convert fs o = ⟨101, "", errorText .overflow, fs⟩ := by
  rw [convert, convertFile_eq_overflow_iff.mpr h]
  rfl

theorem convert_of_fails (hskip : ¬Skips fs o) (hwrite : ¬∃ place bytes, Writes fs o place bytes)
    (hover : ¬Overflows fs o) :
    ∃ failure : Failure, convert fs o = ⟨1, "", failure.message, fs⟩ := by
  -- any other result would be one of the other three cases
  rcases hfile : (convertFile fs o).result with (failure | _) | r
  · exact ⟨failure, by rw [convert, hfile]; rfl⟩
  · exact absurd (convertFile_eq_overflow_iff.mp hfile) hover
  · rcases convertFile_eq_ok_iff.mp hfile with ⟨h, -⟩ | ⟨place, bytes, h, -⟩
    · exact absurd h hskip
    · exact absurd ⟨place, bytes, h⟩ hwrite

theorem Overflows.not_skips (h : Overflows fs o) : ¬Skips fs o := by
  obtain ⟨m, hload, htag, -⟩ := h
  rintro ⟨m', hload', htag'⟩
  rw [hload] at hload'
  cases hload'
  exact htag htag'

theorem Overflows.not_writes (h : Overflows fs o) : ¬∃ place bytes, Writes fs o place bytes := by
  obtain ⟨m, hload, -, hover⟩ := h
  rintro ⟨place, bytes, m', out, hload', -, hconvert, -⟩
  rw [hload] at hload'
  cases hload'
  rw [hover] at hconvert
  cases hconvert

/-- What is written goes to where the output leads. -/
theorem Writes.target_eq {place : List String} {bytes : Bytes} (h : Writes fs o place bytes) :
    fs.target o.output = .ok place := by
  obtain ⟨m, m', -, -, -, htarget, -⟩ := h
  exact htarget

theorem Writes.updatedAt {place : List String} {bytes : Bytes} (h : Writes fs o place bytes) :
    fs.UpdatedAt (convert fs o).files place bytes := by
  rw [convert_of_writes h]
  exact FileSystem.updatedAt_put (FileSystem.target_eq_ok h.target_eq).2.1

/-- All of a run's input is read before its output is written, and the output is
    written whole or not at all. -/
theorem convert_files_eq_of_not_writes (h : ¬∃ place bytes, Writes fs o place bytes) :
    (convert fs o).files = fs := by
  by_cases hskip : Skips fs o
  · rw [convert_of_skips hskip]
  · by_cases hover : Overflows fs o
    · rw [convert_of_overflows hover]
    · obtain ⟨failure, hfail⟩ := convert_of_fails hskip h hover
      rw [hfail]

theorem convert_changed_iff (place : List String) :
    (convert fs o).files.view? place ≠ fs.view? place ↔
      ∃ bytes, Writes fs o place bytes ∧ fs.view? place ≠ some (.file bytes) := by
  constructor
  · intro hchange
    by_cases hwrites : ∃ place bytes, Writes fs o place bytes
    · obtain ⟨written, bytes, h⟩ := hwrites
      obtain ⟨rfl, hnew⟩ := (h.updatedAt.changed_iff place).mp hchange
      exact ⟨bytes, h, hnew⟩
    · rw [convert_files_eq_of_not_writes hwrites] at hchange
      exact absurd rfl hchange
  · rintro ⟨bytes, h, hnew⟩
    exact (h.updatedAt.changed_iff place).mpr ⟨rfl, hnew⟩

end Outcome

theorem run_of_parse {arguments : List String} {o : Options} (fs : FileSystem)
    (h : parse arguments = some (.convert o)) : run fs arguments = convert fs o := by
  rw [run, h]

/-! ### A model that is replaced by its own conversion -/

def shelf (content : Bytes) : FileSystem where
  root := .directory [("home", .directory [("m", .file content)])]
  workingDirectory := ["home"]

theorem target_shelf_dotted (content : Bytes) :
    (shelf content).target ⟨"./m"⟩ = .ok ["home", "m"] :=
  rfl

/-- The arguments by which the file is replaced, its path spelled in two ways. -/
def inPlace : List String := ["--input", "m", "--output=./m"]

theorem parse_inPlace : parse inPlace = some (.convert ⟨⟨"m"⟩, ⟨"./m"⟩, false⟩) := by
  decide

def widened : Model :=
  { Onnx.branching.strip with
    producerName := some "MPSX"
    producerVersion := some "0.1.0"
    graph := { Onnx.branching.strip.graph with
      initializers := [⟨"w", [1, 2], .float32, .raw [0, 0, 128, 63, 0, 0, 0, 192]⟩] } }

theorem load_shelf_of_representable {m : Model} (hrep : m.Representable)
    (hlen : (Onnx.encode m).length < 2 ^ 64) :
    (Onnx.load (shelf (Onnx.encode m)).read ⟨"m"⟩).result = .ok m :=
  load_eq_ok_iff.mpr ⟨_, rfl, Onnx.decode_encode_of_representable _ hrep hlen⟩

set_option maxRecDepth 2000 in
theorem load_shelf :
    (Onnx.load (shelf (Onnx.encode Onnx.branching)).read ⟨"m"⟩).result = .ok Onnx.branching :=
  load_shelf_of_representable (by decide) (by decide)

theorem writes_shelf :
    Writes (shelf (Onnx.encode Onnx.branching)) ⟨⟨"m"⟩, ⟨"./m"⟩, false⟩ ["home", "m"]
      (Onnx.encode widened) :=
  ⟨_, widened, load_shelf, by decide, rfl, target_shelf_dotted _, rfl⟩

theorem load_shelf_hollow :
    (Onnx.load (shelf (Onnx.encode (.ofWeight Model.hollow))).read ⟨"m"⟩).result =
      .ok (.ofWeight Model.hollow) :=
  load_shelf_of_representable (by decide) (by decide)

theorem overflows_shelf :
    Overflows (shelf (Onnx.encode (.ofWeight Model.hollow))) ⟨⟨"m"⟩, ⟨"./m"⟩, false⟩ :=
  ⟨_, load_shelf_hollow, by decide, rfl⟩

/-! ### Atomicity -/

/-- **The command is atomic.**  A run that goes through exits with 0, and only the output
    has changed, to the encoding of the model that the input gave before the run.  Any
    other run leaves the files alone, and exits with 0 if the input was a converted model,
    with 101 if it is stopped by an overflow, and with 1 otherwise.  So a change can be seen
    only where the output leads, and only if what is written differs from what was there. -/
theorem run_atomic (fs : FileSystem) {arguments : List String} {o : Options}
    (hparse : parse arguments = some (.convert o)) :
    (∀ place bytes, Writes fs o place bytes →
      (run fs arguments).exitCode = 0 ∧ fs.UpdatedAt (run fs arguments).files place bytes ∧
        (run fs arguments).files.read o.output = .ok bytes) ∧
    ((¬∃ place bytes, Writes fs o place bytes) →
      (run fs arguments).files = fs ∧ (Skips fs o → (run fs arguments).exitCode = 0) ∧
        (Overflows fs o → (run fs arguments).exitCode = 101) ∧
        (¬Skips fs o → ¬Overflows fs o → (run fs arguments).exitCode = 1)) ∧
    ∀ place, (run fs arguments).files.view? place ≠ fs.view? place ↔
      ∃ bytes, Writes fs o place bytes ∧ fs.view? place ≠ some (.file bytes) := by
  rw [run_of_parse fs hparse]
  refine ⟨?_, ?_, convert_changed_iff⟩
  · intro place bytes h
    refine ⟨by rw [convert_of_writes h], h.updatedAt, ?_⟩
    rw [convert_of_writes h]
    exact FileSystem.read_put h.target_eq
  · intro hwrites
    refine ⟨convert_files_eq_of_not_writes hwrites, ?_, ?_, ?_⟩
    · intro hskip
      rw [convert_of_skips hskip]
    · intro hover
      rw [convert_of_overflows hover]
    · intro hskip hover
      obtain ⟨failure, hfail⟩ := convert_of_fails hskip hwrites hover
      rw [hfail]

theorem run_atomic_inPlace :
    parse inPlace = some (.convert ⟨⟨"m"⟩, ⟨"./m"⟩, false⟩) ∧
    ∃ fs, fs.read ⟨"m"⟩ = .ok (Onnx.encode Onnx.branching) ∧
      Writes fs ⟨⟨"m"⟩, ⟨"./m"⟩, false⟩ ["home", "m"] (Onnx.encode widened) ∧
      (run fs inPlace).exitCode = 0 ∧
      fs.UpdatedAt (run fs inPlace).files ["home", "m"] (Onnx.encode widened) ∧
      (run fs inPlace).files.read ⟨"./m"⟩ = .ok (Onnx.encode widened) :=
  ⟨parse_inPlace, shelf (Onnx.encode Onnx.branching), rfl, writes_shelf,
    (run_atomic _ parse_inPlace).1 _ _ writes_shelf⟩

/-- A run on a weight that the conversion does not get past writes nothing, and exits with
    101 although the input is not a converted model. -/
theorem run_hollow_overflows :
    parse inPlace = some (.convert ⟨⟨"m"⟩, ⟨"./m"⟩, false⟩) ∧
    ∃ fs, (Onnx.load fs.read ⟨"m"⟩).result = .ok (.ofWeight Model.hollow) ∧
      (¬∃ place bytes, Writes fs ⟨⟨"m"⟩, ⟨"./m"⟩, false⟩ place bytes) ∧
      ¬Skips fs ⟨⟨"m"⟩, ⟨"./m"⟩, false⟩ ∧ (run fs inPlace).exitCode = 101 := by
  have hover := overflows_shelf
  refine ⟨parse_inPlace, _, load_shelf_hollow, hover.not_writes, hover.not_skips, ?_⟩
  rw [run_of_parse _ parse_inPlace, convert_of_overflows hover]

end Mpsx.Command
