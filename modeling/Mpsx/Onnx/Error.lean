/-
  Mpsx/Onnx/Error.lean
  ====================
  **Why a model cannot be read.**  Either a file cannot be read, or its content is
  malformed, or it uses a construct that has no place in a model here.
-/

import Mpsx.Event
import Mpsx.Files.FileSystem
import Mpsx.Onnx.Schema
import Mpsx.Text.Utf8
import Mpsx.Trace

namespace Mpsx.Onnx

inductive LoadError where
  | file (cause : FileError)
  | malformed (fault : Wire.Fault)
  | missingGraph
  | negativeShape (tensor : String) (dims : List Int64)
  | missingTensor (attr : String)
  | missingSubgraph (attr : String)
  | notText (attr : String) (why : Utf8.Invalid)
  | externalNumber (tensor value : String)
  | externalLocation (tensor : String)
  | externalEscape (tensor location : String)
  | externalRange (tensor : String) (path : Path) (size : Nat)
  | sparseInitializers (graph : String) (count : Nat)
  | functionAttribute (attr : String)
  | attributeKind (attr : String) (kind : AttributeKind)
  | externalTensor (tensor : String)
  | notTensor (value : String)
deriving DecidableEq, Repr

/-- The three kinds of errors that callers tell apart. -/
inductive LoadError.Kind where
  | file
  | invalidFormat
  | unsupported
deriving DecidableEq, Repr

namespace LoadError

def kind : LoadError → Kind
  | file _ => .file
  | malformed _ | missingGraph | negativeShape .. | missingTensor _ | missingSubgraph _
  | notText .. | externalNumber .. | externalLocation _ | externalEscape .. | externalRange .. =>
    .invalidFormat
  | sparseInitializers .. | functionAttribute _ | attributeKind .. | externalTensor _
  | notTensor _ => .unsupported

def detail : LoadError → String
  | file cause => cause.message
  | malformed fault => fault.message
  | missingGraph => "model has no graph"
  | negativeShape tensor dims =>
    "tensor " ++ tensor ++ " has negative dims " ++ Describe.integerList dims
  | missingTensor attr => "attribute " ++ attr ++ " has no tensor"
  | missingSubgraph attr => "attribute " ++ attr ++ " has no graph"
  | notText attr why => "attribute " ++ attr ++ ": " ++ why.message
  | externalNumber tensor value =>
    "tensor " ++ tensor ++ " has invalid external data field " ++ value
  | externalLocation tensor => "tensor " ++ tensor ++ " has no external data location"
  | externalEscape tensor location =>
    "external data location " ++ location ++ " of tensor " ++ tensor ++
      " escapes the model directory"
  | externalRange tensor path size =>
    "external data range of tensor " ++ tensor ++ " exceeds " ++ path.text ++ " (" ++
      toString size ++ " bytes)"
  | sparseInitializers graph count =>
    "graph " ++ graph ++ " has " ++ toString count ++ " sparse initializers"
  | functionAttribute attr => "attribute " ++ attr ++ " references a function attribute"
  | attributeKind attr kind => "attribute " ++ attr ++ " has type " ++ kind.name
  | externalTensor tensor => "tensor " ++ tensor ++ " stores its data externally"
  | notTensor value => "value " ++ value ++ " is not a tensor"

def message (e : LoadError) : String :=
  (match e.kind with
    | .file => "IO error: "
    | .invalidFormat => "Invalid format: "
    | .unsupported => "Unsupported construct: ") ++ e.detail

end LoadError

/-- A reading computation. -/
abbrev Load := Traced Event LoadError

end Mpsx.Onnx
