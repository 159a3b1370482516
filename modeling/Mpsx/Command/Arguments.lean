/-
  Mpsx/Command/Arguments.lean
  ===========================
  **The command line.**  Arguments act from left to right, and the first one that
  asks for help or the version, or that cannot be understood, decides.  An option
  and its value may be two arguments or one with an equals sign between them; a
  value in an argument of its own does not look like an option.
-/

import Mpsx.Files.Path

namespace Mpsx.Command

/-- What a conversion is asked for with. -/
structure Options where
  input : Path
  output : Path
  half : Bool
deriving DecidableEq, Repr

inductive Request where
  | help
  | version
  | convert (options : Options)
deriving DecidableEq, Repr

/-- The options seen so far. -/
structure Seen where
  input : Option String
  output : Option String
  half : Bool

/-- The request when all arguments have been seen: both paths are needed. -/
def Seen.finish (s : Seen) : Option Request :=
  match s.input, s.output with
  | some input, some output => some (.convert ⟨⟨input⟩, ⟨output⟩, s.half⟩)
  | _, _ => none

/-- Gives a value to an option that takes one.  A value is not empty, and an option
    is given once. -/
def Seen.assign (s : Seen) (option value : String) : Option Seen :=
  if value = "" then none
  else if option = "--input" then
    if s.input.isNone then some { s with input := some value } else none
  else if option = "--output" then
    if s.output.isNone then some { s with output := some value } else none
  else none

/-- An argument cut at its first equals sign. -/
def cutOption (argument : String) : String × Option String :=
  let name := argument.toList.takeWhile (· ≠ '=')
  match argument.toList.dropWhile (· ≠ '=') with
  | [] => (argument, none)
  | _ :: value => (String.ofList name, some (String.ofList value))

/-- Whether an argument looks like an option. -/
def looksLikeOption (argument : String) : Bool :=
  match argument.toList with
  | '-' :: _ :: _ => true
  | _ => false

/-- Reads arguments after those in `s`; `none` if they are not understood. -/
def parseFrom (s : Seen) : List String → Option Request
  | [] => s.finish
  | argument :: rest =>
    match argument.toList with
    | '-' :: '-' :: _ =>
      match cutOption argument with
      | ("--", none) => if rest.isEmpty then s.finish else none
      | ("--help", none) => some .help
      | ("--version", none) => some .version
      | ("--half", none) => if s.half then none else parseFrom { s with half := true } rest
      | (option, some value) =>
        match s.assign option value with
        | some s => parseFrom s rest
        | none => none
      | (option, none) =>
        match rest with
        | [] => none
        | value :: rest =>
          if looksLikeOption value then none
          else
            match s.assign option value with
            | some s => parseFrom s rest
            | none => none
    | '-' :: 'h' :: _ => some .help
    | '-' :: 'V' :: _ => some .version
    | _ => none

/-- The request that arguments make; `none` if they are not understood. -/
def parse (arguments : List String) : Option Request := parseFrom ⟨none, none, false⟩ arguments

end Mpsx.Command
