/-
  Mpsx/Proofs/Onnx/Confined.lean
  ==============================
  **A model file reaches no further than its directory.**  External data is the only
  reason to read another file, and its location is refused unless it stays inside the
  model's directory.  So two sources that agree on all locations inside the directory
  cannot be told apart by anything a file says, at any depth of the model: not by the
  model, not by the error, and not by what is reported on the way.
-/

import Mpsx.Onnx.Read
import Mpsx.Proofs.Files.Beneath
import Mpsx.Proofs.Onnx.RoundTrip
import Mpsx.Proofs.Traced

namespace Mpsx.Onnx

open Wire

/-- Sources with the same directory and the same files inside it; without a directory,
    any two. -/
structure Source.Alike (s₁ s₂ : Source) : Prop where
  directory : s₁.directory = s₂.directory
  read : ∀ d, s₁.directory = some d → ∀ inside : Path, inside.escapes = false →
    s₁.read (d.join inside) = s₂.read (d.join inside)

variable {s₁ s₂ : Source}

/-! ### Tensors -/

/-- The only place where a file is read. -/
theorem externalData_congr (h : s₁.Alike s₂) (tensor : String) (entries : List (String × String)) :
    externalData s₁ tensor entries = externalData s₂ tensor entries := by
  unfold externalData
  rw [← h.directory]
  cases hd : s₁.directory with
  | none => rfl
  | some d =>
    show pure d >>= _ = pure d >>= _
    rw [pure_bind, pure_bind]
    congr 1
    funext range
    congr 1
    funext location
    by_cases hescape : Path.escapes ⟨location⟩ = true
    · rw [if_pos hescape, if_pos hescape]
    · have hread := h.read d hd ⟨location⟩ (by simpa using hescape)
      simp only [if_neg hescape, hread]

theorem readTensor_congr (h : s₁.Alike s₂) (m : Message) : readTensor s₁ m = readTensor s₂ m := by
  simp only [readTensor, externalData_congr h]

/-! ### Attributes, nodes and graphs

The three readers call each other on parts of their messages, and so do the three
statements; where a part is read, the induction hypothesis replaces one source by the
other. -/

mutual

theorem readGraph_congr (h : s₁.Alike s₂) (m : Message) : readGraph s₁ m = readGraph s₂ m := by
  rw [readGraph, readGraph, List.mapM_subtype (g := readNode s₁) (by intros; rfl),
    List.mapM_subtype (g := readNode s₂) (by intros; rfl), List.unattach_attach,
    Traced.mapM_congr fun n _ => readNode_congr h n,
    Traced.mapM_congr fun t _ => readTensor_congr h t]
termination_by m.weight
decreasing_by exact Message.weight_lt_of_mem_messages (by assumption)

theorem readNode_congr (h : s₁.Alike s₂) (m : Message) : readNode s₁ m = readNode s₂ m := by
  rw [readNode, readNode, List.mapM_subtype (g := readAttribute s₁) (by intros; rfl),
    List.mapM_subtype (g := readAttribute s₂) (by intros; rfl), List.unattach_attach,
    Traced.mapM_congr fun a _ => readAttribute_congr h a]
termination_by m.weight
decreasing_by exact Message.weight_lt_of_mem_messages (by assumption)

theorem readAttribute_congr (h : s₁.Alike s₂) (m : Message) :
    readAttribute s₁ m = readAttribute s₂ m := by
  have htensor : readTensor s₁ = readTensor s₂ := funext (readTensor_congr h)
  rw [readAttribute, readAttribute, htensor]
  cases selectedKind m with
  | graph =>
    dsimp only
    split
    · rfl
    · split
      · rfl
      · next g hg => rw [readGraph_congr h g]
  | graphs =>
    dsimp only
    rw [List.mapM_subtype (g := readGraph s₁) (by intros; rfl),
      List.mapM_subtype (g := readGraph s₂) (by intros; rfl), List.unattach_attach,
      Traced.mapM_congr fun g _ => readGraph_congr h g]
  | _ => rfl
termination_by m.weight
decreasing_by
  · exact Message.weight_lt_of_message? (by assumption)
  · exact Message.weight_lt_of_mem_messages (by assumption)

end

/-! ### Models -/

theorem readModel_congr (h : s₁.Alike s₂) (m : Message) : readModel s₁ m = readModel s₂ m := by
  unfold readModel
  simp only [readGraph_congr h]

theorem decode_congr (h : s₁.Alike s₂) (bytes : Bytes) : decode s₁ bytes = decode s₂ bytes := by
  unfold decode
  simp only [readModel_congr h]

/-! ### File systems -/

theorem alike_of_beneath_eq {fs₁ fs₂ : FileSystem} {d : Path}
    (h : fs₁.beneath d = fs₂.beneath d) :
    Source.Alike ⟨fs₁.read, some d⟩ ⟨fs₂.read, some d⟩ where
  directory := rfl
  read := by
    intro d' hd inside hinside
    cases hd
    show fs₁.read _ = fs₂.read _
    rw [FileSystem.read_join fs₁ hinside, FileSystem.read_join fs₂ hinside, h]

theorem alike_of_no_directory (read₁ read₂ : Path → Except FileError Bytes) :
    Source.Alike ⟨read₁, none⟩ ⟨read₂, none⟩ where
  directory := rfl
  read := by
    intro d hd
    cases hd

/-! ### One directory in two places -/

def drawer : Entry := .directory [("d", .file [0, 0, 128, 63])]

/-- Two file systems with the same directory, in different places and among different
    files. -/
def here : FileSystem where
  root := .directory [("home", .directory [("in", drawer), ("d", .file [1])])]
  workingDirectory := ["home"]

def elsewhere : FileSystem where
  root := .directory [("far", .directory [("d", .file [2]), ("in", drawer)]), ("e", .file [3])]
  workingDirectory := ["far"]

theorem beneath_elsewhere : elsewhere.beneath ⟨"in"⟩ = here.beneath ⟨"in"⟩ := by
  have hhere : here.walk (here.start ⟨"in"⟩) (Path.pieces ⟨"in"⟩) = .ok ["home", "in"] := rfl
  have hthere : elsewhere.walk (elsewhere.start ⟨"in"⟩) (Path.pieces ⟨"in"⟩) =
      .ok ["far", "in"] := rfl
  rw [FileSystem.beneath_eq_of_at? hhere rfl, FileSystem.beneath_eq_of_at? hthere rfl]

/-! ### Confinement -/

/-- **External data cannot escape the model's directory.**  File systems that show the
    same directory, with the same beneath it, give the same for every file, however its
    locations are spelled and wherever they stand; without a directory, all file systems
    do. -/
theorem decode_confined (bytes : Bytes) :
    (∀ (d : Path) (fs₁ fs₂ : FileSystem), fs₁.beneath d = fs₂.beneath d →
      decode ⟨fs₁.read, some d⟩ bytes = decode ⟨fs₂.read, some d⟩ bytes) ∧
    ∀ fs₁ fs₂ : FileSystem, decode ⟨fs₁.read, none⟩ bytes = decode ⟨fs₂.read, none⟩ bytes := by
  constructor
  · intro d fs₁ fs₂ h
    exact decode_congr (alike_of_beneath_eq h) bytes
  · intro fs₁ fs₂
    exact decode_congr (alike_of_no_directory fs₁.read fs₂.read) bytes

theorem decode_confined_scattered :
    elsewhere.beneath ⟨"in"⟩ = here.beneath ⟨"in"⟩ ∧ elsewhere.read ⟨"d"⟩ ≠ here.read ⟨"d"⟩ ∧
    decode ⟨elsewhere.read, some ⟨"in"⟩⟩ scattered = decode ⟨here.read, some ⟨"in"⟩⟩ scattered ∧
    (decode ⟨here.read, some ⟨"in"⟩⟩ scattered).result = .ok gathered :=
  ⟨beneath_elsewhere, by decide, (decode_confined scattered).1 _ _ _ beneath_elsewhere,
    decode_scattered rfl⟩

end Mpsx.Onnx
