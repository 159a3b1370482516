/-
  Mpsx/Proofs/Onnx/ExternalRange.lean
  ===================================
  **What is read of another file.**  The entries of a tensor describe a range: a
  location, an offset that is zero if none is given, and a length or none.  Of several
  values for one key the last counts, but all offsets and lengths have to be numbers.
  The data of the tensor is then exactly this range of the file, and a range that does
  not lie inside the file is refused, however large its numbers are.

  Texts, ranges and locations are described here without the functions that read
  them.  The entries are taken one by one; `Describes.update` says what one of them
  adds to a description, and the result on whole lists follows from it.
-/

import Mathlib.Algebra.Group.Nat.Defs
import Mathlib.Data.List.Induction
import Mpsx.Onnx.ExternalData
import Mpsx.Proofs.Traced

namespace Mpsx.Onnx

/-! ### Numbers as text -/

inductive Digits : List Char → Nat → Prop where
  | single {d : Nat} (hd : d < 10) : Digits [d.digitChar] d
  | concat {cs : List Char} {n d : Nat} (hcs : Digits cs n) (hd : d < 10) :
    Digits (cs ++ [d.digitChar]) (10 * n + d)

/-- A number as text: its digits, after a plus sign or without one. -/
def Spells (text : String) (n : Nat) : Prop :=
  ∃ digits, Digits digits n ∧ (text.toList = digits ∨ text.toList = '+' :: digits)

def IsSize (text : String) (n : Nat) : Prop := Spells text n ∧ n < 2 ^ 64

theorem exists_digitChar {c : Char} (h : c.isDigit = true) :
    c.toNat - 48 < 10 ∧ c = Nat.digitChar (c.toNat - 48) := by
  have hrange := Char.isDigit_iff_toNat.mp h
  have hzero : '0'.toNat = 48 := rfl
  have hnine : '9'.toNat = 57 := rfl
  have hlt : c.toNat - 48 < 10 := by omega
  refine ⟨hlt, Char.toNat_inj.mp ?_⟩
  rw [Nat.toNat_digitChar_of_lt_ten hlt]
  omega

/-- The digits of a number are those that are read, with the value they are read with. -/
theorem digits_iff {cs : List Char} {n : Nat} :
    Digits cs n ↔ (cs ≠ [] ∧ cs.all Char.isDigit = true) ∧
      n = cs.foldl (fun n c => 10 * n + (c.toNat - 48)) 0 := by
  constructor
  · intro h
    induction h with
    | single hd => simp [Nat.isDigit_digitChar, Nat.toNat_digitChar_sub_48_of_lt_ten, hd]
    | concat hcs hd ih =>
      obtain ⟨⟨-, hall⟩, rfl⟩ := ih
      simp only [List.all_append, hall, List.foldl_append, List.foldl_cons, List.foldl_nil,
        Nat.toNat_digitChar_sub_48_of_lt_ten hd]
      simp [Nat.isDigit_digitChar, hd]
  · rintro ⟨⟨hne, hall⟩, rfl⟩
    induction cs using List.reverseRecOn with
    | nil => exact absurd rfl hne
    | append_singleton cs c ih =>
      simp only [List.all_append, Bool.and_eq_true, List.all_cons, List.all_nil,
        Bool.and_true] at hall
      obtain ⟨hlt, hc⟩ := exists_digitChar hall.2
      rw [List.foldl_append, List.foldl_cons, List.foldl_nil]
      rcases eq_or_ne cs [] with rfl | hcs
      · have hsingle := Digits.single hlt
        rw [← hc] at hsingle
        simpa using hsingle
      · have hconcat := (ih hcs hall.1).concat hlt
        rw [← hc] at hconcat
        exact hconcat

theorem not_digits_plus {cs : List Char} {n : Nat} : ¬Digits ('+' :: cs) n := by
  intro h
  have hall := (digits_iff.mp h).1.2
  rw [List.all_cons] at hall
  exact absurd hall (by simp)

/-- The number that digits are read as. -/
theorem readDigits_eq_some_iff {cs : List Char} {n : Nat} :
    (if cs ≠ [] ∧ cs.all Char.isDigit = true then
      let n := cs.foldl (fun n c => 10 * n + (c.toNat - 48)) 0
      if n < addressLimit then some n else none
    else none) = some n ↔ Digits cs n ∧ n < 2 ^ 64 := by
  have hlimit : addressLimit = 2 ^ 64 := rfl
  rw [digits_iff, ← hlimit]
  dsimp only
  split
  · next hdigits =>
    rw [Option.ite_none_right_eq_some, Option.some.injEq]
    constructor
    · rintro ⟨hlt, rfl⟩
      exact ⟨⟨hdigits, rfl⟩, hlt⟩
    · rintro ⟨⟨-, rfl⟩, hlt⟩
      exact ⟨hlt, rfl⟩
  · next hdigits =>
    simp only [reduceCtorEq, false_iff]
    rintro ⟨⟨hboth, -⟩, -⟩
    exact hdigits hboth

/-- The texts that are read as sizes are those that stand for one. -/
theorem parseSize?_eq_some_iff {text : String} {n : Nat} :
    parseSize? text = some n ↔ IsSize text n := by
  unfold parseSize? IsSize Spells
  refine readDigits_eq_some_iff.trans ?_
  apply and_congr_left'
  split
  · next rest htext =>
    -- a plus sign is no digit, so only what follows it can be the number
    constructor
    · intro h
      exact ⟨rest, h, .inr htext⟩
    · rintro ⟨digits, h, hplain | hplus⟩
      · rw [← hplain, htext] at h
        exact absurd h not_digits_plus
      · cases htext.symm.trans hplus
        exact h
  · next htext =>
    constructor
    · intro h
      exact ⟨_, h, .inl rfl⟩
    · rintro ⟨digits, h, hplain | hplus⟩
      · rw [hplain]
        exact h
      · exact absurd hplus (htext digits)

theorem IsSize.unique {text : String} {n n' : Nat} (h : IsSize text n) (h' : IsSize text n') :
    n = n' :=
  Option.some.inj ((parseSize?_eq_some_iff.mpr h).symm.trans (parseSize?_eq_some_iff.mpr h'))

/-! ### Entries -/

def valuesOf (key : String) (entries : List (String × String)) : List String :=
  (entries.filter fun entry => entry.1 = key).map Prod.snd

@[simp] theorem valuesOf_concat (key : String) (entries : List (String × String))
    (entry : String × String) :
    valuesOf key (entries ++ [entry]) =
      valuesOf key entries ++ if entry.1 = key then [entry.2] else [] := by
  by_cases h : entry.1 = key
  · simp [valuesOf, h]
  · simp [valuesOf, h]

/-- The number that the last of some texts stands for, if there are any. -/
def LastSize (texts : List String) : Option Nat → Prop
  | none => texts = []
  | some n => ∃ text, texts.getLast? = some text ∧ IsSize text n

theorem LastSize.unique {texts : List String} {o o' : Option Nat} (h : LastSize texts o)
    (h' : LastSize texts o') : o = o' := by
  rcases o with _ | n <;> rcases o' with _ | n'
  · rfl
  · obtain ⟨text, hlast, -⟩ := h'
    rw [h] at hlast
    cases hlast
  · obtain ⟨text, hlast, -⟩ := h
    rw [h'] at hlast
    cases hlast
  · obtain ⟨text, hlast, hsize⟩ := h
    obtain ⟨text', hlast', hsize'⟩ := h'
    cases hlast.symm.trans hlast'
    rw [hsize.unique hsize']

theorem LastSize.concat (texts : List String) {text : String} {n : Nat} (h : IsSize text n) :
    LastSize (texts ++ [text]) (some n) :=
  ⟨text, by simp, h⟩

namespace ExternalRange

structure Describes (entries : List (String × String)) (r : ExternalRange) : Prop where
  offsets : ∀ text ∈ valuesOf "offset" entries, ∃ n, IsSize text n
  lengths : ∀ text ∈ valuesOf "length" entries, ∃ n, IsSize text n
  location : r.location = (valuesOf "location" entries).getLast?
  offset : ∃ o, LastSize (valuesOf "offset" entries) o ∧ r.offset = o.getD 0
  length : LastSize (valuesOf "length" entries) r.length

variable {tensor : String} {entries : List (String × String)} {r r' : ExternalRange}

theorem Describes.unique (h : Describes entries r) (h' : Describes entries r') : r = r' := by
  obtain ⟨-, -, hlocation, ⟨o, ho, hoffset⟩, hlength⟩ := h
  obtain ⟨-, -, hlocation', ⟨o', ho', hoffset'⟩, hlength'⟩ := h'
  have hlast := ho.unique ho'
  cases r with
  | mk location offset length =>
    cases r' with
    | mk location' offset' length' =>
      simp only at hlocation hlocation' hoffset hoffset' hlength hlength'
      rw [hlocation, hlocation', hoffset, hoffset', hlast, hlength.unique hlength']

theorem describes_start : Describes [] start where
  offsets := by simp [valuesOf]
  lengths := by simp [valuesOf]
  location := rfl
  offset := ⟨none, rfl, rfl⟩
  length := rfl

/-- What one entry does: its key says which part of the range it gives. -/
theorem update_eq_ok_iff {key value : String} :
    update tensor r (key, value) = .ok r' ↔
      (key = "location" ∧ r' = { r with location := some value }) ∨
      (key = "offset" ∧ ∃ n, IsSize value n ∧ r' = { r with offset := n }) ∨
      (key = "length" ∧ ∃ n, IsSize value n ∧ r' = { r with length := some n }) ∨
      (key ≠ "location" ∧ key ≠ "offset" ∧ key ≠ "length") ∧ r' = r := by
  simp only [← parseSize?_eq_some_iff]
  unfold update
  dsimp only
  by_cases hlocation : key = "location"
  · subst hlocation
    simp [eq_comm]
  · by_cases hoffset : key = "offset"
    · subst hoffset
      cases parseSize? value with
      | none => simp [bind, Except.bind]
      | some n => simp [bind, Except.bind, pure, Except.pure, eq_comm]
    · by_cases hlength : key = "length"
      · subst hlength
        cases parseSize? value with
        | none => simp [bind, Except.bind]
        | some n => simp [bind, Except.bind, pure, Except.pure, eq_comm]
      · simp [hlocation, hoffset, hlength, eq_comm]

/-- An entry adds to the description what it does to the range. -/
theorem Describes.update {entry : String × String} (h : Describes entries r)
    (hupdate : update tensor r entry = .ok r') : Describes (entries ++ [entry]) r' := by
  obtain ⟨key, value⟩ := entry
  obtain ⟨hoffsets, hlengths, hlocation, hoffset, hlength⟩ := h
  rcases update_eq_ok_iff.mp hupdate with ⟨rfl, rfl⟩ | ⟨rfl, n, hn, rfl⟩ | ⟨rfl, n, hn, rfl⟩ |
    ⟨⟨hne₁, hne₂, hne₃⟩, rfl⟩
  · exact ⟨by simpa using hoffsets, by simpa using hlengths, by simp, by simpa using hoffset,
      by simpa using hlength⟩
  · refine ⟨?_, by simpa using hlengths, by simpa using hlocation, ?_, by simpa using hlength⟩
    · simpa [or_imp, forall_and] using ⟨hoffsets, n, hn⟩
    · exact ⟨some n, by simpa using LastSize.concat _ hn, rfl⟩
  · refine ⟨by simpa using hoffsets, ?_, by simpa using hlocation, by simpa using hoffset, ?_⟩
    · simpa [or_imp, forall_and] using ⟨hlengths, n, hn⟩
    · simpa using LastSize.concat _ hn
  · exact ⟨by simpa [hne₂] using hoffsets, by simpa [hne₃] using hlengths,
      by simpa [hne₁] using hlocation, by simpa [hne₂] using hoffset,
      by simpa [hne₃] using hlength⟩

/-- Entries that are all taken in describe the range they lead to. -/
theorem describes_of_foldlM (h : entries.foldlM (ExternalRange.update tensor) start = .ok r) :
    Describes entries r := by
  induction entries using List.reverseRecOn generalizing r with
  | nil =>
    cases h
    exact describes_start
  | append_singleton entries entry ih =>
    rw [List.foldlM_append] at h
    obtain ⟨r₀, hr₀, h⟩ := exceptBind_eq_ok_iff.mp h
    rw [List.foldlM_cons] at h
    obtain ⟨r₁, hr₁, h⟩ := exceptBind_eq_ok_iff.mp h
    cases h
    exact (ih hr₀).update hr₁

/-- Entries whose numbers are numbers are all taken in. -/
theorem exists_foldlM (tensor : String)
    (hoffsets : ∀ text ∈ valuesOf "offset" entries, ∃ n, IsSize text n)
    (hlengths : ∀ text ∈ valuesOf "length" entries, ∃ n, IsSize text n) :
    ∃ r, entries.foldlM (ExternalRange.update tensor) start = .ok r := by
  induction entries using List.reverseRecOn with
  | nil => exact ⟨start, rfl⟩
  | append_singleton entries entry ih =>
    obtain ⟨key, value⟩ := entry
    simp only [valuesOf_concat, List.forall_mem_append] at hoffsets hlengths
    obtain ⟨r₀, hr₀⟩ := ih hoffsets.1 hlengths.1
    have hupdate : ∃ r, ExternalRange.update tensor r₀ (key, value) = .ok r := by
      simp only [update_eq_ok_iff]
      by_cases hoffset : key = "offset"
      · obtain ⟨n, hn⟩ := hoffsets.2 value (by simp [hoffset])
        exact ⟨_, .inr (.inl ⟨hoffset, n, hn, rfl⟩)⟩
      · by_cases hlength : key = "length"
        · obtain ⟨n, hn⟩ := hlengths.2 value (by simp [hlength])
          exact ⟨_, .inr (.inr (.inl ⟨hlength, n, hn, rfl⟩))⟩
        · by_cases hlocation : key = "location"
          · exact ⟨_, .inl ⟨hlocation, rfl⟩⟩
          · exact ⟨_, .inr (.inr (.inr ⟨⟨hlocation, hoffset, hlength⟩, rfl⟩))⟩
    obtain ⟨r, hr⟩ := hupdate
    refine ⟨r, ?_⟩
    rw [List.foldlM_append]
    exact exceptBind_eq_ok_iff.mpr ⟨r₀, hr₀, exceptBind_eq_ok_iff.mpr ⟨r, hr, rfl⟩⟩

theorem foldlM_eq_ok_iff :
    entries.foldlM (ExternalRange.update tensor) start = .ok r ↔ Describes entries r := by
  constructor
  · exact describes_of_foldlM
  · intro h
    obtain ⟨r', hr'⟩ := exists_foldlM tensor h.offsets h.lengths
    rw [h.unique (describes_of_foldlM hr'), hr']

/-! ### Ranges -/

inductive Covers (r : ExternalRange) (content : Bytes) : Bytes → Prop where
  | part {n : Nat} (hlength : r.length = some n) (hfits : r.offset + n ≤ content.length) :
    r.Covers content (content.extract r.offset (r.offset + n))
  | rest (hlength : r.length = none) (hfits : r.offset ≤ content.length) :
    r.Covers content (content.drop r.offset)

theorem slice?_eq_some_iff {content bytes : Bytes} :
    r.slice? content = some bytes ↔ r.Covers content bytes := by
  unfold slice?
  cases hlength : r.length with
  | some n =>
    dsimp only
    rw [Option.ite_none_right_eq_some, Option.some.injEq, ← List.extract_eq_take_drop]
    constructor
    · rintro ⟨⟨-, hfits⟩, rfl⟩
      exact .part hlength hfits
    · intro h
      cases h with
      | part hsome hfits =>
        cases hlength.symm.trans hsome
        exact ⟨⟨Nat.le_add_right _ _, hfits⟩, rfl⟩
      | rest hnone _ => cases hlength.symm.trans hnone
  | none =>
    dsimp only
    rw [Option.ite_none_right_eq_some, Option.some.injEq, List.take_of_length_le (by simp)]
    constructor
    · rintro ⟨⟨hfits, -⟩, rfl⟩
      exact .rest hlength hfits
    · intro h
      cases h with
      | part hsome _ => cases hlength.symm.trans hsome
      | rest _ hfits => exact ⟨⟨hfits, Nat.le_refl _⟩, rfl⟩

end ExternalRange

/-! ### Locations -/

/-- A location that stays below the directory it is taken in: it does not start at the
    root, and no part of it goes up. -/
def StaysInside (location : String) : Prop :=
  location.toList.head? ≠ some '/' ∧ ['.', '.'] ∉ location.toList.splitOn '/'

theorem cut_eq_splitOn (cs : List Char) : Path.cut cs = cs.splitOn '/' := by
  induction cs with
  | nil => rfl
  | cons c rest ih =>
    rw [Path.cut, ih, List.splitOn_cons_eq_if_modifyHead]
    by_cases hslash : c = '/'
    · simp [hslash]
    · simp only [if_neg hslash, beq_iff_eq]
      cases hsplit : rest.splitOn '/' with
      | nil => exact absurd hsplit (List.splitOn_ne_nil _ _)
      | cons piece more => rfl

theorem escapes_eq_false_iff {location : String} :
    Path.escapes ⟨location⟩ = false ↔ StaysInside location := by
  have hup : ∀ piece : List Char, String.ofList piece = ".." ↔ piece = ['.', '.'] := by
    intro piece
    rw [← String.toList_inj, String.toList_ofList]
    rfl
  simp only [Path.escapes, Path.isAbsolute, Path.pieces, cut_eq_splitOn, StaysInside,
    Bool.or_eq_false_iff, decide_eq_false_iff_not, List.any_map, List.any_eq_false,
    Function.comp_apply, decide_eq_true_eq, hup]
  apply and_congr_right'
  constructor
  · intro h hmem
    exact h _ hmem rfl
  · rintro h piece hmem rfl
    exact h hmem

/-! ### External data -/

section ExternalData

variable {source : Source} {tensor : String} {entries : List (String × String)}
  {directory : Path} {r : ExternalRange} {location : String} {content : Bytes}

/-- Once the file is read, only its range can be wrong. -/
theorem result_externalData (hdirectory : source.directory = some directory)
    (hentries : ExternalRange.Describes entries r) (hlocation : r.location = some location)
    (hinside : StaysInside location)
    (hread : source.read (directory.join ⟨location⟩) = .ok content) :
    (externalData source tensor entries).result =
      (Traced.require (r.slice? content) (.externalRange tensor (directory.join ⟨location⟩)
        content.length) : Load Bytes).result := by
  have hrange : Traced.ofExcept (entries.foldlM (ExternalRange.update tensor) .start) =
      (pure r : Load ExternalRange) := by
    rw [ExternalRange.foldlM_eq_ok_iff.mpr hentries]
    rfl
  unfold externalData
  rw [hdirectory, hrange]
  simp only [Traced.require, pure_bind, hlocation, escapes_eq_false_iff.mpr hinside, hread]
  rfl

/-- What is returned has passed all checks. -/
theorem externalData_eq_ok {bytes : Bytes}
    (h : (externalData source tensor entries).result = .ok bytes) :
    ∃ directory r location content, source.directory = some directory ∧
      ExternalRange.Describes entries r ∧ r.location = some location ∧ StaysInside location ∧
      source.read (directory.join ⟨location⟩) = .ok content ∧ r.Covers content bytes := by
  obtain ⟨directory, hdirectory, h⟩ := Traced.bind_eq_ok_iff.mp h
  obtain ⟨r, hr, h⟩ := Traced.bind_eq_ok_iff.mp h
  obtain ⟨location, hlocation, h⟩ := Traced.bind_eq_ok_iff.mp h
  split at h
  · cases h
  · next hinside =>
    obtain ⟨_, -, h⟩ := Traced.bind_eq_ok_iff.mp h
    cases hread : source.read (directory.join ⟨location⟩) with
    | error cause =>
      rw [hread] at h
      cases h
    | ok content =>
      rw [hread] at h
      exact ⟨directory, r, location, content, Traced.require_eq_ok_iff.mp hdirectory,
        ExternalRange.foldlM_eq_ok_iff.mp hr, Traced.require_eq_ok_iff.mp hlocation,
        escapes_eq_false_iff.mp (by simpa using hinside), hread,
        ExternalRange.slice?_eq_some_iff.mp (Traced.require_eq_ok_iff.mp h)⟩

end ExternalData

/-- **External data is the range that its entries describe**, and a range that leaves the
    file is refused. -/
theorem externalData_exact (source : Source) (tensor : String)
    (entries : List (String × String)) :
    (∀ bytes, (externalData source tensor entries).result = .ok bytes ↔
      ∃ directory r location content, source.directory = some directory ∧
        ExternalRange.Describes entries r ∧ r.location = some location ∧ StaysInside location ∧
        source.read (directory.join ⟨location⟩) = .ok content ∧ r.Covers content bytes) ∧
    ∀ directory r location content, source.directory = some directory →
      ExternalRange.Describes entries r → r.location = some location → StaysInside location →
      source.read (directory.join ⟨location⟩) = .ok content →
      (∀ bytes, ¬r.Covers content bytes) →
      (externalData source tensor entries).result =
        .error (.externalRange tensor (directory.join ⟨location⟩) content.length) := by
  constructor
  · intro bytes
    constructor
    · exact externalData_eq_ok
    · rintro ⟨directory, r, location, content, hdirectory, hr, hlocation, hinside, hread, hcovers⟩
      rw [result_externalData hdirectory hr hlocation hinside hread,
        ExternalRange.slice?_eq_some_iff.mpr hcovers]
      rfl
  · intro directory r location content hdirectory hr hlocation hinside hread hexceeds
    have hslice : r.slice? content = none := by
      rw [Option.eq_none_iff_forall_ne_some]
      intro bytes hbytes
      exact hexceeds bytes (ExternalRange.slice?_eq_some_iff.mp hbytes)
    rw [result_externalData hdirectory hr hlocation hinside hread, hslice]
    rfl

def besideModel : Source :=
  ⟨fun path => if path = ⟨"models/w.bin"⟩ then .ok [1, 2, 3, 4, 5] else .error (.unread path),
    some ⟨"models"⟩⟩

/-- The last three bytes, after an offset that does not count. -/
def lastBytes : List (String × String) :=
  [("offset", "7"), ("location", "w.bin"), ("checksum", "-"), ("offset", "+2"), ("length", "03")]

def beyondAddresses : List (String × String) :=
  [("location", "w.bin"), ("offset", "18446744073709551615"), ("length", "2")]

theorem externalData_exact_besideModel :
    (externalData besideModel "w" lastBytes).result = .ok [3, 4, 5] ∧
    (externalData besideModel "w" beyondAddresses).result =
      .error (.externalRange "w" ⟨"models/w.bin"⟩ 5) := by
  have hinside : StaysInside "w.bin" := ⟨by decide, by decide⟩
  constructor
  · have hentries : lastBytes.foldlM (ExternalRange.update "w") .start =
        .ok ⟨some "w.bin", 2, some 3⟩ := by decide
    have hcovers : ExternalRange.slice? ⟨some "w.bin", 2, some 3⟩ [1, 2, 3, 4, 5] =
        some [3, 4, 5] := by decide
    apply ((externalData_exact besideModel "w" lastBytes).1 [3, 4, 5]).mpr
    exact ⟨⟨"models"⟩, _, "w.bin", [1, 2, 3, 4, 5], rfl,
      ExternalRange.describes_of_foldlM hentries, rfl, hinside, by decide,
      ExternalRange.slice?_eq_some_iff.mp hcovers⟩
  · have hentries : beyondAddresses.foldlM (ExternalRange.update "w") .start =
        .ok ⟨some "w.bin", 18446744073709551615, some 2⟩ := by decide
    apply (externalData_exact besideModel "w" beyondAddresses).2 ⟨"models"⟩ _ "w.bin"
      [1, 2, 3, 4, 5] rfl (ExternalRange.describes_of_foldlM hentries) rfl hinside (by decide)
    intro bytes h
    cases h with
    | part hlength hfits =>
      cases hlength
      exact absurd hfits (by decide)
    | rest hlength _ => cases hlength

end Mpsx.Onnx
