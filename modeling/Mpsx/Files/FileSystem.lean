/-
  Mpsx/Files/FileSystem.lean
  ==========================
  **File systems.**  A file system is a tree of directories and files, without
  links, and a working directory.  A path is walked piece by piece from the root
  or from the working directory; every piece has to be looked up in a directory,
  so the first obstacle on the way is the error.

  Reading leaves the tree alone.  Writing puts one file in place of the one that
  was there, or beside the others of its directory; no directory is ever made or
  removed by it.
-/

import Mpsx.Bytes
import Mpsx.Files.Path
import Mpsx.Table

namespace Mpsx

/-- Why a file cannot be read or written. -/
inductive FileError where
  | notFound
  | notDirectory
  | isDirectory
  | nameTooLong
  | nulByte
  /-- The file has not been looked at; see `Snapshot`. -/
  | unread (path : Path)
  | other (description : String)
deriving DecidableEq, Repr

def FileError.message : FileError → String
  | notFound => "No such file or directory (os error 2)"
  | notDirectory => "Not a directory (os error 20)"
  | isDirectory => "Is a directory (os error 21)"
  | nameTooLong => "File name too long (os error 36)"
  | nulByte => "file name contained an unexpected NUL byte"
  | unread path => "not read yet: " ++ path.text
  | other description => description

/-- The error as the failure of reading or writing a model. -/
def FileError.asFailure (e : FileError) : String := "IO error: " ++ e.message

inductive Entry where
  | file (content : Bytes)
  | directory (entries : List (String × Entry))

namespace Entry

/-- What stands under a list of names, the outermost first. -/
def at? (e : Entry) : List String → Option Entry
  | [] => some e
  | name :: rest =>
    match e with
    | .file _ => none
    | .directory entries =>
      match Table.get? entries name with
      | some inner => inner.at? rest
      | none => none

/-- Puts a file under a list of names, making the directories that are missing. -/
def insert (content : Bytes) : List String → Entry → Entry
  | [], _ => .file content
  | name :: rest, .directory entries =>
    let inner := (Table.get? entries name).getD (.directory [])
    .directory (Table.set name (insert content rest inner) entries)
  | name :: rest, .file _ => .directory [(name, insert content rest (.directory []))]

mutual

/-- All files with their names from here, the outermost first. -/
def files : Entry → List (List String × Bytes)
  | .file content => [([], content)]
  | .directory entries => filesOf entries

def filesOf : List (String × Entry) → List (List String × Bytes)
  | [] => []
  | (name, e) :: rest => (e.files.map fun f => (name :: f.1, f.2)) ++ filesOf rest

end

end Entry

structure FileSystem where
  root : Entry
  /-- The names from the root to the working directory. -/
  workingDirectory : List String

namespace FileSystem

/-- The longest name of an entry, in bytes. -/
def nameLimit : Nat := 255

/-- The longest path, in bytes. -/
def pathLimit : Nat := 4095

def nameSize (name : String) : Nat := (Bytes.ofString name).length

/-- The directory a path is walked from. -/
def start (fs : FileSystem) (p : Path) : List String :=
  if p.isAbsolute then [] else fs.workingDirectory

/-- The entries of the directory at a place. -/
def entriesAt (fs : FileSystem) (place : List String) :
    Except FileError (List (String × Entry)) :=
  match fs.root.at? place with
  | some (.directory entries) => .ok entries
  | some (.file _) => .error .notDirectory
  | none => .error .notFound

/-- Walks one piece from a place. -/
def step (fs : FileSystem) (place : List String) (piece : String) :
    Except FileError (List String) := do
  let entries ← fs.entriesAt place
  if Path.isTrivial piece then return place
  else if piece = ".." then return place.dropLast
  else if nameLimit < nameSize piece then throw .nameTooLong
  else
    match Table.get? entries piece with
    | some _ => return place ++ [piece]
    | none => throw .notFound

/-- Walks pieces from a place. -/
def walk (fs : FileSystem) (place : List String) (pieces : List String) :
    Except FileError (List String) :=
  pieces.foldlM fs.step place

/-- What is wrong with a path whatever the file system holds. -/
def checkPath (p : Path) : Except FileError Unit :=
  if p.text.toList.any fun c => c.toNat = 0 then throw .nulByte
  else if p.text = "" then throw .notFound
  else if pathLimit < nameSize p.text then throw .nameTooLong
  else return ()

/-- The content of a file. -/
def read (fs : FileSystem) (p : Path) : Except FileError Bytes := do
  checkPath p
  let place ← fs.walk (fs.start p) p.pieces
  match fs.root.at? place with
  | some (.file content) => return content
  | some (.directory _) => throw .isDirectory
  | none => throw .notFound

/-- The place of the file that writing to a path creates or replaces.  A path that
    ends with a slash or with dots names a directory. -/
def target (fs : FileSystem) (p : Path) : Except FileError (List String) := do
  checkPath p
  match p.pieces.reverse.dropWhile (· = "") with
  | [] => throw .isDirectory
  | name :: before =>
    let place ← fs.walk (fs.start p) before.reverse
    let entries ← fs.entriesAt place
    if name = "." ∨ name = ".." ∨ p.text.toList.getLast? = some '/' then throw .isDirectory
    else if nameLimit < nameSize name then throw .nameTooLong
    else
      match Table.get? entries name with
      | some (.directory _) => throw .isDirectory
      | _ => return place ++ [name]

/-- The file system with a file of the given content at a path. -/
def write (fs : FileSystem) (p : Path) (content : Bytes) : Except FileError FileSystem := do
  let place ← fs.target p
  return { fs with root := fs.root.insert content place }

/-- A file system with the given files under one directory, which is also the
    working directory. -/
def ofFiles (directory : List String) (files : List (Path × Bytes)) : FileSystem where
  root := files.foldl
    (fun root f => root.insert f.2 (directory ++ f.1.pieces.filter fun p => !Path.isTrivial p))
    (directory.foldr (fun name e => .directory [(name, e)]) (.directory []))
  workingDirectory := directory

/-- The files under the working directory, with their paths from there. -/
def localFiles (fs : FileSystem) : List (Path × Bytes) :=
  match fs.root.at? fs.workingDirectory with
  | some e => e.files.map fun f => (⟨"/".intercalate f.1⟩, f.2)
  | none => []

end FileSystem

end Mpsx
