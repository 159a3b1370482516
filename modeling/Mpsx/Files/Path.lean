/-
  Mpsx/Files/Path.lean
  ====================
  **Paths.**  A path is text, cut at slashes into pieces.  Empty pieces and single
  dots stand for the place itself; a first empty piece is the root.

  Everything here is lexical: no file system is asked.
-/

namespace Mpsx

/-- A path, as it was written. -/
structure Path where
  text : String
deriving DecidableEq, Repr

namespace Path

/-- The pieces between slashes, empty ones included. -/
def cut : List Char → List (List Char)
  | [] => [[]]
  | c :: rest =>
    if c = '/' then [] :: cut rest
    else
      match cut rest with
      | piece :: more => (c :: piece) :: more
      | [] => [[c]]

def pieces (p : Path) : List String := (cut p.text.toList).map String.ofList

def isAbsolute (p : Path) : Bool := p.text.toList.head? = some '/'

/-- A piece that stands for the place itself. -/
def isTrivial (piece : String) : Bool := piece = "" || piece = "."

/-- Whether a relative path could leave the directory it is taken in. -/
def escapes (p : Path) : Bool := p.isAbsolute || p.pieces.any (· = "..")

/-- The path of something inside a directory. -/
def join (base inside : Path) : Path :=
  if base.text = "" ∨ base.text.toList.getLast? = some '/' then ⟨base.text ++ inside.text⟩
  else ⟨base.text ++ "/" ++ inside.text⟩

/-- The pieces without the last proper one and without trivial ones at the end;
    `none` if there is no proper one. -/
def dropLast (pieces : List String) : Option (List String) :=
  match pieces.reverse.dropWhile isTrivial with
  | [] => none
  | _ :: before => some (before.dropWhile isTrivial).reverse

/-- The path without its last proper piece. -/
def parent? (p : Path) : Option Path :=
  match p.pieces with
  | "" :: rest =>
    (dropLast rest).map fun
      | [] => ⟨"/"⟩
      | kept => ⟨"/" ++ "/".intercalate kept⟩
  | "." :: rest =>
    match dropLast rest with
    | none => some ⟨""⟩
    | some kept => some ⟨"/".intercalate ("." :: kept)⟩
  | all => (dropLast all).map fun kept => ⟨"/".intercalate kept⟩

end Path

end Mpsx
