/-
  Mpsx/Files/Snapshot.lean
  ========================
  **Partial views of a file system.**  A snapshot knows what reading some paths
  has given.  A computation over a snapshot that needs another path ends with the
  error that names it, so whoever holds the real files can look and try again.
-/

import Mpsx.Files.FileSystem

namespace Mpsx

/-- What reading some paths has given. -/
structure Snapshot where
  known : Table (Except FileError Bytes)

namespace Snapshot

def empty : Snapshot := ⟨[]⟩

/-- Adds what reading a path has given. -/
def add (s : Snapshot) (path : Path) (outcome : Except FileError Bytes) : Snapshot :=
  ⟨Table.set path.text outcome s.known⟩

def read (s : Snapshot) (path : Path) : Except FileError Bytes :=
  (Table.get? s.known path.text).getD (.error (.unread path))

end Snapshot

end Mpsx
