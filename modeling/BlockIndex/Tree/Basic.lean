/-! Trees of files and directories.  A tree is a file with its content or a directory with named
entries. -/

namespace BlockIndex

inductive Tree (α : Type) where
  | file (content : α)
  | directory (entries : List (String × Tree α))

namespace Tree

variable {α : Type}

def entries : Tree α → List (String × Tree α)
  | .file _ => []
  | .directory es => es

def isDirectory : Tree α → Bool
  | .file _ => false
  | .directory _ => true

def child? (t : Tree α) (name : String) : Option (Tree α) := t.entries.lookup name

/-- What lies at the end of a way through directories. -/
def find? (t : Tree α) : List String → Option (Tree α)
  | [] => some t
  | p :: ps => (t.child? p).bind fun c => c.find? ps

/-- The entries with the entry of a name replaced, or added at the end. -/
def setEntry (name : String) (t : Tree α) : List (String × Tree α) → List (String × Tree α)
  | [] => [(name, t)]
  | e :: es => if e.1 = name then (name, t) :: es else e :: setEntry name t es

/-- The tree with something put at the end of a way; directories on the way are made. -/
def insert (new : Tree α) : List String → Tree α → Tree α
  | [], _ => new
  | p :: ps, t =>
    .directory (setEntry p (insert new ps ((t.child? p).getD (.directory []))) t.entries)

/-- The tree without what lies at the end of a way. -/
def erase : List String → Tree α → Tree α
  | [], t => t
  | [p], t => .directory (t.entries.filter fun e => e.1 != p)
  | p :: ps, t =>
    match t.child? p with
    | some c => .directory (setEntry p (erase ps c) t.entries)
    | none => t

mutual

/-- The files of a tree with the ways that lead to them. -/
def filesAt (way : List String) : Tree α → List (List String × α)
  | .file c => [(way, c)]
  | .directory es => filesOf way es

def filesOf (way : List String) : List (String × Tree α) → List (List String × α)
  | [] => []
  | (name, t) :: es => filesAt (way ++ [name]) t ++ filesOf way es

end

/-- The files of a tree with the ways that lead to them from its top. -/
def files (t : Tree α) : List (List String × α) := t.filesAt []

end Tree

end BlockIndex
