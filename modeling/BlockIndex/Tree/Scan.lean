import BlockIndex.Text.LowerCase
import BlockIndex.Tree.Basic
import BlockIndex.Tree.Ignore
import BlockIndex.Tree.Path

/-! Scanning a tree for files with selected extensions.  The files of a directory come first, then
those of its subdirectories, both in the order of their names; ignored files and directories are
left out. -/

namespace BlockIndex

structure Selection where
  /-- The extensions, in lower case. -/
  extensions : List String
  /-- The ignore patterns. -/
  patterns : List String

namespace Selection

def ignores (s : Selection) (path : String) (isDirectory : Bool) : Bool :=
  s.patterns.any fun p => Ignore.covers p path isDirectory

def takes (s : Selection) (name path : String) : Bool :=
  s.extensions.contains (Text.lower (Path.ofString name).suffix) && !s.ignores path false

/-- The directories that are never entered. -/
def closedDirectories : List String := [".git"]

def enters (s : Selection) (name path : String) : Bool :=
  !closedDirectories.contains name && !s.ignores path true

end Selection

namespace Tree

variable {α : Type}

def pathIn (directory name : String) : String :=
  if directory.isEmpty then name else directory ++ "/" ++ name

/-- Named things in the order of their names. -/
def inNameOrder {β : Type} (xs : List (String × β)) : List (String × β) :=
  xs.mergeSort fun a b => !decide (b.1 < a.1)

/-- The paths of the files of a directory that are taken. -/
def takenFiles (s : Selection) (directory : String) (es : List (String × Tree α)) : List String :=
  (((inNameOrder es).filter fun e => !e.2.isDirectory).filter fun e =>
    s.takes e.1 (pathIn directory e.1)).map fun e => pathIn directory e.1

mutual

/-- The paths of the taken files of a tree whose own path is `directory`. -/
def scanAt (s : Selection) (directory : String) : Tree α → List String
  | .file _ => []
  | .directory es =>
    takenFiles s directory es ++ (inNameOrder (scanEntries s directory es)).flatMap (·.2)

/-- For each directory that is entered its name and the paths of its taken files. -/
def scanEntries (s : Selection) (directory : String) :
    List (String × Tree α) → List (String × List String)
  | [] => []
  | (name, t) :: es =>
    if t.isDirectory && s.enters name (pathIn directory name) then
      (name, scanAt s (pathIn directory name) t) :: scanEntries s directory es
    else scanEntries s directory es

end

/-- The paths of the taken files of a tree, seen from its top. -/
def scan (s : Selection) (t : Tree α) : List String := t.scanAt s ""

end Tree

end BlockIndex
