import BlockIndex.Extract.Source
import BlockIndex.Store.Basic

/-! Stores in files.  A library of databases keeps a store in the file of a path; `Database` holds what
is used of it.  The directory of the file is made if it is missing. -/

namespace BlockIndex

namespace Store

inductive OpenError where
  /-- The directory of the file cannot be made. -/
  | directory (e : AccessError) (path : String)
  /-- A refusal in the words of the library. -/
  | refused (text : String)
  deriving DecidableEq, Repr

def OpenError.message : OpenError → String
  | .directory e path => e.message path
  | .refused text => text

/-- What is used of a library of databases. -/
structure Database where
  /-- The store in the file of a path, and the disk with the file; a missing file is made. -/
  connect : Disk Bytes → Path → Except OpenError (Store × Disk Bytes)
  /-- The disk with a store in the file of a path that was opened before. -/
  commit : Store → Disk Bytes → Path → Disk Bytes

/-- The disk with the directory of a file, made if it is missing. -/
def withDirectory (d : Disk Bytes) (p : Path) : Except OpenError (Disk Bytes) :=
  match d.locate p.parent with
  | .ok _ => .ok d
  | .error _ =>
    match d.makeDirectories p.parent with
    | .ok d => .ok d
    | .error e => .error (.directory e p.parent.toString)

/-- The store in the file of a path, and the disk with the file and its directory. -/
def openFile (library : Database) (d : Disk Bytes) (p : Path) :
    Except OpenError (Store × Disk Bytes) :=
  (withDirectory d p).bind fun d => library.connect d p

end Store

end BlockIndex
