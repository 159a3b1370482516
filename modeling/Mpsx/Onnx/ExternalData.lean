/-
  Mpsx/Onnx/ExternalData.lean
  ===========================
  **Tensor data in other files.**  A tensor may name a file beside the model and a
  range of bytes in it, as text entries of which the last of a key counts.  Every
  offset and length has to be a number, also one that a later entry replaces.

  The location is taken inside the model's directory: one that starts at the root
  or goes up is refused before any file is touched.
-/

import Mpsx.Model.Tensor
import Mpsx.Onnx.Error

namespace Mpsx.Onnx

/-- Where data comes from: how files are read, and the directory of the model. -/
structure Source where
  read : Path → Except FileError Bytes
  directory : Option Path

/-- A source for models that keep all their data with them. -/
def Source.none : Source := ⟨fun path => .error (.unread path), Option.none⟩

/-- The entries that matter, as far as they have been read. -/
structure ExternalRange where
  location : Option String
  offset : Nat
  length : Option Nat
deriving DecidableEq, Repr

/-- A number below `2 ^ 64` in decimal digits, after at most one plus sign. -/
def parseSize? (text : String) : Option Nat :=
  let digits :=
    match text.toList with
    | '+' :: rest => rest
    | all => all
  if digits ≠ [] ∧ digits.all Char.isDigit then
    let n := digits.foldl (fun n c => 10 * n + (c.toNat - 48)) 0
    if n < addressLimit then some n else none
  else none

namespace ExternalRange

def start : ExternalRange := ⟨none, 0, none⟩

/-- Takes one more entry into account. -/
def update (tensor : String) (r : ExternalRange) (entry : String × String) :
    Except LoadError ExternalRange :=
  let number : Except LoadError Nat :=
    match parseSize? entry.2 with
    | some n => .ok n
    | none => .error (.externalNumber tensor entry.2)
  if entry.1 = "location" then .ok { r with location := some entry.2 }
  else if entry.1 = "offset" then return { r with offset := ← number }
  else if entry.1 = "length" then return { r with length := some (← number) }
  else .ok r

/-- The part of a file's content that the range covers, if it lies inside. -/
def slice? (r : ExternalRange) (content : Bytes) : Option Bytes :=
  let stop := match r.length with
    | some n => r.offset + n
    | none => content.length
  if r.offset ≤ stop ∧ stop ≤ content.length then
    some ((content.drop r.offset).take (stop - r.offset))
  else none

end ExternalRange

/-- The data of a tensor that is kept in another file. -/
def externalData (source : Source) (tensor : String) (entries : List (String × String)) :
    Load Bytes := do
  let directory ← Traced.require source.directory (.externalTensor tensor)
  let range ← Traced.ofExcept (entries.foldlM (ExternalRange.update tensor) .start)
  let location ← Traced.require range.location (.externalLocation tensor)
  if Path.escapes ⟨location⟩ then Traced.fail (.externalEscape tensor location)
  else
    let path := directory.join ⟨location⟩
    Traced.report (.readingExternal tensor path)
    match source.read path with
    | .error cause => Traced.fail (.file cause)
    | .ok content =>
      Traced.require (range.slice? content) (.externalRange tensor path content.length)

end Mpsx.Onnx
