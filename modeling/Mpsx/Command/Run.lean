/-
  Mpsx/Command/Run.lean
  =====================
  **Running the command.**  A model is read, stripped of its documentation,
  converted and written.  Nothing is written before all of it has succeeded, and
  nothing at all for a model that is a converted one already.

  `prepare` only reads; it is all that depends on other files.  `run` is the whole
  command over a file system, with its exit code and what it prints.

  A command that fails says why and exits with 1; one that is stopped by an overflow
  exits with 101.  Two things that are printed are left out of an outcome: the
  informational events, which are logged on the standard output with a time on each
  line, and where in the program an overflow has happened.
-/

import Mpsx.Command.Arguments
import Mpsx.Convert.Conversion
import Mpsx.Model.Documentation
import Mpsx.Onnx.File

namespace Mpsx.Command

/-- Why the command fails. -/
inductive Failure where
  | load (input : Path) (cause : Onnx.LoadError)
  | convert (cause : ConvertError)
  | write (output : Path) (cause : FileError)

namespace Failure

def context : Failure → String
  | load input _ => "Failed to load ONNX model: " ++ input.text
  | convert _ => "Conversion failed"
  | write output _ => "Failed to write MPSX model: " ++ output.text

/-- The causes, each one the cause of the one before. -/
def causes : Failure → List String
  | load _ cause =>
    match cause with
    | .file e => [cause.message, e.message]
    | _ => [cause.message]
  | convert cause => [cause.message]
  | write _ cause => [cause.asFailure, cause.message]

/-- A text with every line after the first moved to the right. -/
def indent (margin text : String) : String :=
  String.join (text.toList.map fun c =>
    if c = '\n' then "\n" ++ margin else String.singleton c)

/-- The causes as they are printed; several ones are numbered. -/
def listing (causes : List String) : String :=
  match causes with
  | [only] => "\n    " ++ indent "    " only
  | _ => String.join (causes.zipIdx.map fun c =>
      "\n    " ++ toString c.2 ++ ": " ++ indent "       " c.1)

def message (f : Failure) : String :=
  "Error: " ++ f.context ++ "\n\nCaused by:" ++ listing f.causes ++ "\n"

end Failure

/-- The precision that is asked for. -/
def Options.target (o : Options) : Precision := if o.half then .half else .single

/-- The model to write, or `none` if the input is a converted one already. -/
def prepare (read : Path → Except FileError Bytes) (o : Options) :
    Traced Event (Stop Failure) (Option Model) := do
  let m ← (Onnx.load read o.input).mapError fun e => .refused (.load o.input e)
  match ← (m.strip.convertOnce o.target).mapError (Stop.map .convert) with
  | .unchanged => return none
  | .converted m => return some m

/-- What is printed after a model has been written. -/
def doneLine (o : Options) : String :=
  "Done! " ++ o.input.text ++ " -> " ++ o.output.text ++ " (" ++ o.target.text ++ ")\n"

/-- What a command leaves behind. -/
structure Outcome where
  exitCode : Nat
  output : String
  errors : String
  files : FileSystem

/-- Converts a file in a file system: the new file system, or `none` if nothing had
    to be done. -/
def convertFile (fs : FileSystem) (o : Options) :
    Traced Event (Stop Failure) (Option FileSystem) := do
  match ← prepare fs.read o with
  | none => return none
  | some m =>
    let after ← (Onnx.save fs m o.output).mapError fun e => .refused (.write o.output e)
    return some after

/-- The exit code of a command that does not succeed. -/
def exitCode : Stop Failure → Nat
  | .refused _ => 1
  | .overflow => 101

/-- What is printed as an error. -/
def errorText : Stop Failure → String
  | .refused failure => failure.message
  | .overflow => "attempt to multiply with overflow\n"

/-- Carries out a conversion. -/
def convert (fs : FileSystem) (o : Options) : Outcome :=
  match (convertFile fs o).result with
  | .ok (some after) => ⟨0, doneLine o, "", after⟩
  | .ok none => ⟨0, "", "", fs⟩
  | .error stop => ⟨exitCode stop, "", errorText stop, fs⟩

def versionText : String := "onnx2mpsx 0.1.0\n"

def helpText : String :=
  "Convert an ONNX model to MPSX format\n\n" ++
  "Usage: onnx2mpsx [OPTIONS] --input <INPUT> --output <OUTPUT>\n\n" ++
  "Options:\n" ++
  "      --input <INPUT>    Path to ONNX model\n" ++
  "      --output <OUTPUT>  Path to MPSX model\n" ++
  "      --half             Use FP16 weights\n" ++
  "  -h, --help             Print help\n" ++
  "  -V, --version          Print version\n"

def usageText : String :=
  "error: the arguments are not understood\n\n" ++
  "Usage: onnx2mpsx [OPTIONS] --input <INPUT> --output <OUTPUT>\n\n" ++
  "For more information, try '--help'.\n"

/-- The whole command. -/
def run (fs : FileSystem) (arguments : List String) : Outcome :=
  match parse arguments with
  | some .help => ⟨0, helpText, "", fs⟩
  | some .version => ⟨0, versionText, "", fs⟩
  | some (.convert o) => convert fs o
  | none => ⟨2, "", usageText, fs⟩

end Mpsx.Command
