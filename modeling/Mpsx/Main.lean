/-
  Mpsx/Main.lean
  ==============
  **The program.**  It answers the command line with the files of the machine it
  runs on: files are read as the pure part asks for them, one more on each try,
  and the result is written at the end.
-/

import Mpsx.Command.Run
import Mpsx.Files.Snapshot

namespace Mpsx.Main

open Command

/-- The error of the file system behind an error of the machine.  The machine's
    error numbers come with either sign. -/
def fileError (e : IO.Error) : FileError :=
  let number := match e with
    | .noFileOrDirectory _ n _ | .inappropriateType _ n _ | .invalidArgument _ n _
    | .permissionDenied _ n _ | .resourceExhausted _ n _ => min n (0 - n)
    | _ => 0
  match number with
  | 2 => .notFound
  | 20 => .notDirectory
  | 21 => .isDirectory
  | 36 => .nameTooLong
  | 13 => .other "Permission denied (os error 13)"
  | 28 => .other "No space left on device (os error 28)"
  | _ => .other (toString e)

/-- Reads a file of the machine. -/
def fetch (path : Path) : IO (Except FileError Bytes) := do
  match FileSystem.checkPath path with
  | .error e => return .error e
  | .ok () =>
    try
      let content ← IO.FS.readBinFile path.text
      return .ok content.data.toList
    catch e => return .error (fileError e)

/-- Prepares the model, reading one more file whenever one is asked for. -/
partial def prepareFrom (known : Snapshot) (o : Options) :
    IO (Except (Stop Failure) (Option Model)) := do
  let outcome := (prepare known.read o).result
  match outcome with
  | .error (.refused (.load _ (.file (.unread path)))) =>
    prepareFrom (known.add path (← fetch path)) o
  | _ => return outcome

/-- Prints why the command does not succeed. -/
def complain (stop : Stop Failure) : IO UInt32 := do
  IO.eprint (errorText stop)
  return (exitCode stop).toUInt32

def convertFiles (o : Options) : IO UInt32 := do
  match ← prepareFrom .empty o with
  | .error stop => complain stop
  | .ok none => return 0
  | .ok (some m) =>
    try
      IO.FS.writeBinFile o.output.text ⟨(Onnx.encode m).toArray⟩
      IO.print (doneLine o)
      return 0
    catch e => complain (.refused (.write o.output (fileError e)))

end Mpsx.Main

open Mpsx.Command in
def main (arguments : List String) : IO UInt32 := do
  match parse arguments with
  | some .help =>
    IO.print helpText
    return 0
  | some .version =>
    IO.print versionText
    return 0
  | some (.convert o) => Mpsx.Main.convertFiles o
  | none =>
    IO.eprint usageText
    return 2
