import BlockIndex.Text.Lines

/-! Paths as texts.  A path has a root and parts; empty parts and single dots are left out, two dots
are kept until a path is resolved against a directory. -/

namespace BlockIndex

/-- A path: its root, which is empty, one slash or two, and its parts. -/
structure Path where
  root : String
  parts : List String
  deriving DecidableEq, Repr

namespace Path

/-- The root of a written path.  Exactly two slashes are a root of their own. -/
def rootOf : List Char → String
  | '/' :: '/' :: '/' :: _ => "/"
  | '/' :: '/' :: _ => "//"
  | '/' :: _ => "/"
  | _ => ""

def partsOf (s : List Char) : List String :=
  ((Text.splitAt '/' s).map String.ofList).filter fun p => !p.isEmpty && p != "."

def ofString (s : String) : Path := ⟨rootOf s.toList, partsOf s.toList⟩

/-- The text of a path; the empty path is a dot. -/
def toString (p : Path) : String :=
  if p.root.isEmpty && p.parts.isEmpty then "." else p.root ++ "/".intercalate p.parts

instance : ToString Path := ⟨toString⟩

def isAbsolute (p : Path) : Bool := !p.root.isEmpty

/-- The second path as seen from the first one. -/
def join (p q : Path) : Path := if q.isAbsolute then q else ⟨p.root, p.parts ++ q.parts⟩

/-- The last part of a path, empty if there is none. -/
def fileName (p : Path) : String := p.parts.getLast?.getD ""

def parent (p : Path) : Path := ⟨p.root, p.parts.dropLast⟩

/-- The end of a name from its last full stop on, unless the full stop is the first or the last
character. -/
def suffixOf (name : List Char) : List Char :=
  let tail := name.reverse.takeWhile (· != '.')
  if tail.isEmpty || tail.length + 1 ≥ name.length then [] else '.' :: tail.reverse

def suffix (p : Path) : String := String.ofList (suffixOf p.fileName.toList)

/-- The parts with two dots taken as the way to the directory above. -/
def climb (done : List String) : List String → List String
  | [] => done
  | p :: ps => if p = ".." then climb done.dropLast ps else climb (done ++ [p]) ps

/-- The path from the root, where a relative one is seen from the directory `here`. -/
def resolve (here p : Path) : Path := ⟨"/", climb [] (here.join p).parts⟩

/-- The path as seen from the directory `top`, if it lies in it. -/
def relativeTo? (p top : Path) : Option Path :=
  if p.root = top.root ∧ top.parts.isPrefixOf p.parts then
    some ⟨"", p.parts.drop top.parts.length⟩
  else none

end Path

end BlockIndex
