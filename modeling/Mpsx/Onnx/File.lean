/-
  Mpsx/Onnx/File.lean
  ===================
  **Model files.**  Loading reads a file and takes external data from the
  directory it stands in; saving writes the whole encoding at once, and only
  after it is complete.
-/

import Mpsx.Onnx.Read
import Mpsx.Onnx.Write

namespace Mpsx.Onnx

/-- Reads the model in a file. -/
def load (read : Path → Except FileError Bytes) (path : Path) : Load Model := do
  Traced.report (.loading path)
  match read path with
  | .error cause => Traced.fail (.file cause)
  | .ok bytes => decode ⟨read, path.parent?⟩ bytes

/-- Writes a model to a file. -/
def save (fs : FileSystem) (m : Model) (path : Path) : Traced Event FileError FileSystem := do
  let bytes := encode m
  Traced.report (.writing bytes.length path)
  Traced.ofExcept (fs.write path bytes)

end Mpsx.Onnx
