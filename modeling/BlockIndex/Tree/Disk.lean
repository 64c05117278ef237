import BlockIndex.Text.Quoted
import BlockIndex.Tree.Basic
import BlockIndex.Tree.Path

/-! Access to files by path.  A disk is a tree with a directory in which relative paths start.  On the
way to a file each part but the last must be a directory, also one that two dots lead back out
of. -/

namespace BlockIndex

inductive AccessError where
  | missing
  | isDirectory
  | notDirectory
  /-- The path holds the character that ends a name. -/
  | badName
  deriving DecidableEq, Repr

def AccessError.message (e : AccessError) (path : String) : String :=
  match e with
  | .missing => "[Errno 2] No such file or directory: " ++ Text.quoted path
  | .isDirectory => "[Errno 21] Is a directory: " ++ Text.quoted path
  | .notDirectory => "[Errno 20] Not a directory: " ++ Text.quoted path
  | .badName => "embedded null byte"

/-- A tree of files and the directory in which relative paths start. -/
structure Disk (α : Type) where
  tree : Tree α
  here : List String

namespace Disk

variable {α : Type}

/-- The way that the parts of a path lead from a directory. -/
def walk (t : Tree α) (here : List String) : List String → Except AccessError (List String)
  | [] => .ok here
  | p :: ps =>
    match t.find? here with
    | some (.directory _) =>
      walk t (if p = ".." then here.dropLast else here ++ [p]) ps
    | some (.file _) => .error .notDirectory
    | none => .error .missing

/-- The way from the root to where a path leads. -/
@[irreducible]
def way (d : Disk α) (p : Path) : Except AccessError (List String) :=
  if p.toString.toList.contains '\x00' then .error .badName
  else walk d.tree (if p.isAbsolute then [] else d.here) p.parts

def locate (d : Disk α) (p : Path) : Except AccessError (Tree α) :=
  (d.way p).bind fun way =>
    match d.tree.find? way with
    | some t => .ok t
    | none => .error .missing

/-- The content of the file to which a path leads. -/
def read (d : Disk α) (p : Path) : Except AccessError α :=
  (d.locate p).bind fun t =>
    match t with
    | .file c => .ok c
    | .directory _ => .error .isDirectory

def isDirectory (d : Disk α) (p : Path) : Bool :=
  match d.locate p with
  | .ok (.directory _) => true
  | _ => false

def isFile (d : Disk α) (p : Path) : Bool :=
  match d.locate p with
  | .ok (.file _) => true
  | _ => false

/-- The disk with new content in the file to which a path leads.  The file is made if there is
none; its directory must be there. -/
def write (d : Disk α) (p : Path) (content : α) : Except AccessError (Disk α) :=
  (d.way p).bind fun way =>
    match d.tree.find? way with
    | some (.directory _) => .error .isDirectory
    | some (.file _) => .ok { d with tree := Tree.insert (.file content) way d.tree }
    | none =>
      match d.tree.find? way.dropLast with
      | some (.directory _) => .ok { d with tree := Tree.insert (.file content) way d.tree }
      | some (.file _) => .error .notDirectory
      | none => .error .missing

/-- The disk with new content in the file of a written path.  The empty path leads nowhere, and one
that ends with a slash or with a dot for a name leads to no file. -/
def writeAt (d : Disk α) (path : String) (content : α) : Except AccessError (Disk α) :=
  let p := Path.ofString path
  match (Text.splitAt '/' path.toList).getLast?.getD [] with
  | [] =>
    if path.isEmpty then .error .missing
    else (d.write p content).bind fun _ => .error .isDirectory
  | ['.'] =>
    (d.locate p).bind fun t => .error (if t.isDirectory then .isDirectory else .notDirectory)
  | _ => d.write p content

/-- The directories that lie on parts of a way, made where they are missing, and the end of the
way. -/
def makeFrom (d : Disk α) (way : List String) : List String →
    Except AccessError (Disk α × List String)
  | [] => .ok (d, way)
  | p :: ps =>
    match d.tree.find? way with
    | some (.directory _) =>
      if p = ".." then makeFrom d way.dropLast ps
      else
        let next := way ++ [p]
        match d.tree.find? next with
        | some _ => makeFrom d next ps
        | none => makeFrom { d with tree := Tree.insert (.directory []) next d.tree } next ps
    | some (.file _) => .error .notDirectory
    | none => .error .missing

/-- The disk with the directories to which a path leads, made where they are missing. -/
def makeDirectories (d : Disk α) (p : Path) : Except AccessError (Disk α) :=
  if p.toString.toList.contains '\x00' then .error .badName
  else (d.makeFrom (if p.isAbsolute then [] else d.here) p.parts).map (·.1)

/-- The disk with something put where a path leads; directories on the way are made. -/
def place (d : Disk α) (p : Path) (t : Tree α) : Disk α :=
  { d with tree := Tree.insert t (Path.resolve ⟨"/", d.here⟩ p).parts d.tree }

def remove (d : Disk α) (p : Path) : Disk α :=
  { d with tree := Tree.erase (Path.resolve ⟨"/", d.here⟩ p).parts d.tree }

end Disk

end BlockIndex
