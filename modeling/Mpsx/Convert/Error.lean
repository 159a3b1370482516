/-
  Mpsx/Convert/Error.lean
  =======================
  **Why a model cannot be converted.**  A convolution is malformed, or a weight
  that has to be moved or cast has no shape, type or data that allows it.
-/

import Mpsx.Event
import Mpsx.Trace

namespace Mpsx

inductive ConvertError where
  | missingWeight (node : String)
  | groupNotInteger (node : String) (value : Attribute)
  | groupNotPositive (node : String) (group : Int64)
  | tooLarge (tensor : String) (shape : List UInt64)
  | wrongSize (tensor : String) (size : Nat) (shape : List UInt64) (elementType : ElementType)
      (expected : Nat)
  | notFourAxes (tensor : String) (shape : List UInt64)
  | noWidth (tensor : String) (elementType : ElementType)
  | noRawForm (tensor : String) (elementType : ElementType)
  | notPrecision (elementType : ElementType)
  | unknownPrecision (text : String)

/-- The three kinds of errors that callers tell apart. -/
inductive ConvertError.Kind where
  | invalidGraph
  | unsupportedShape
  | unsupportedType
deriving DecidableEq, Repr

namespace ConvertError

def kind : ConvertError → Kind
  | missingWeight _ | groupNotInteger .. | groupNotPositive .. | tooLarge .. | wrongSize .. =>
    .invalidGraph
  | notFourAxes .. => .unsupportedShape
  | noWidth .. | noRawForm .. | notPrecision _ | unknownPrecision _ => .unsupportedType

def detail : ConvertError → String
  | missingWeight node => "Conv node " ++ node ++ " has no weight input"
  | groupNotInteger node value =>
    "Conv node " ++ node ++ " has a non-integer group attribute " ++ value.describe
  | groupNotPositive node group => "Conv node " ++ node ++ " has group " ++ toString group.toInt
  | tooLarge tensor shape =>
    tensor ++ " has shape " ++ Describe.dimensions shape ++ ", too large to address"
  | wrongSize tensor size shape elementType expected =>
    tensor ++ " holds " ++ toString size ++ " bytes but shape " ++ Describe.dimensions shape ++
      " of " ++ elementType.name ++ " needs " ++ toString expected
  | notFourAxes tensor shape =>
    tensor ++ " has shape " ++ Describe.dimensions shape ++ "; swizzling needs a 4-D weight"
  | noWidth tensor elementType =>
    tensor ++ " has no fixed-width element type (" ++ elementType.name ++ ")"
  | noRawForm tensor elementType =>
    tensor ++ " has no raw representation (" ++ elementType.name ++ ")"
  | notPrecision elementType => elementType.name ++ " is not a target float kind"
  | unknownPrecision text => "unknown float kind " ++ text

def message (e : ConvertError) : String :=
  (match e.kind with
    | .invalidGraph => "Invalid graph: "
    | .unsupportedShape => "Unsupported shape: "
    | .unsupportedType => "Unsupported type: ") ++ e.detail

end ConvertError

/-- A converting computation.  It refuses a model with an error, or stops where a product
    of dimensions overflows. -/
abbrev Convert := Traced Event (Stop ConvertError)

/-! ### Naming a precision -/

namespace Precision

/-- The precision of an element type. -/
def ofElementType (t : ElementType) : Except ConvertError Precision :=
  match t.precision? with
  | some p => .ok p
  | none => .error (.notPrecision t)

/-- The precision with the code of an element type. -/
def ofCode (code : Int32) : Except ConvertError Precision := ofElementType (.ofCode code)

/-- The precision a user names; case does not matter. -/
def parse (text : String) : Except ConvertError Precision :=
  let lower := text.map Char.toLower
  if lower ∈ ["f32", "fp32", "float", "float32"] then .ok single
  else if lower ∈ ["f16", "fp16", "half", "float16"] then .ok half
  else .error (.unknownPrecision lower)

end Precision

end Mpsx
