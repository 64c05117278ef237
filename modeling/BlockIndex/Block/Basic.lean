import BlockIndex.Text.Quoted

/-! Blocks.  A block is a span of consecutive lines of a file, with its kind, the class and the
declaration it belongs to, and the subjects of the commits that touched the file.  Its identity is
what the store compares; its embedding text is what a provider of vectors is given. -/

namespace BlockIndex

inductive BlockKind where
  | function | method | struct | classLike | markdown | yaml | config | text
  deriving DecidableEq, Repr

namespace BlockKind

def all : List BlockKind :=
  [.function, .method, .struct, .classLike, .markdown, .yaml, .config, .text]

def name : BlockKind → String
  | .function => "function"
  | .method => "method"
  | .struct => "struct"
  | .classLike => "class"
  | .markdown => "markdown"
  | .yaml => "yaml"
  | .config => "config"
  | .text => "text"

def ofName? (s : String) : Option BlockKind := all.find? (·.name == s)

end BlockKind

/-- Line numbers from a first line to a last one, counted from 1. -/
structure Span where
  first : Nat
  last : Nat
  first_pos : 1 ≤ first := by omega
  first_le_last : first ≤ last := by omega
  deriving DecidableEq, Repr

/-- The span from one line number to another, if they are in order and count from 1. -/
def Span.make? (first last : Int) : Option Span :=
  if h : 1 ≤ first ∧ first ≤ last then some ⟨first.toNat, last.toNat, by omega, by omega⟩ else none

theorem Span.make?_eq_some {first last : Nat} (h₁ : 1 ≤ first) (h₂ : first ≤ last) :
    Span.make? first last = some ⟨first, last, h₁, h₂⟩ :=
  dif_pos ⟨Int.ofNat_le.mpr h₁, Int.ofNat_le.mpr h₂⟩

structure Block where
  path : String
  kind : BlockKind
  span : Span
  text : String
  className : Option String := none
  name : Option String := none
  relativePath : Option String := none
  commits : List String := []
  deriving DecidableEq, Repr

/-- What makes two blocks the same block. -/
structure Identity where
  path : String
  kind : BlockKind
  className : Option String
  name : Option String
  first : Nat
  last : Nat
  deriving DecidableEq, Repr

inductive BlockError where
  | unknownKind (name : String)
  | badRange (first last : Int) (path : String)
  deriving DecidableEq, Repr

def BlockError.message : BlockError → String
  | .unknownKind name => Text.quoted name ++ " is not a valid BlockType"
  | .badRange first last path =>
    "invalid line range " ++ toString first ++ "-" ++ toString last ++ " for " ++ path

namespace Block

/-- A block without names from the name of its kind and its line numbers.  The kind is checked
first. -/
def make? (path kind : String) (first last : Int) (text : String) : Except BlockError Block :=
  match BlockKind.ofName? kind with
  | none => .error (.unknownKind kind)
  | some k =>
    match Span.make? first last with
    | none => .error (.badRange first last path)
    | some span => .ok { path, kind := k, span, text }

/-- The path that is shown: the relative one, unless it is absent or empty. -/
def displayPath (b : Block) : String :=
  match b.relativePath with
  | some p => if p.isEmpty then b.path else p
  | none => b.path

def identity (b : Block) : Identity :=
  ⟨b.path, b.kind, b.className, b.name, b.span.first, b.span.last⟩

def headerLines (b : Block) : List String :=
  ["File: " ++ b.displayPath] ++
    (match b.className with
      | some c => ["Class: " ++ c]
      | none => []) ++
    (match b.name with
      | some n => ["Method/Function: " ++ n]
      | none => []) ++
    ["Lines: " ++ toString b.span.first ++ "-" ++ toString b.span.last] ++
    (if b.commits.isEmpty then [] else ["Recent commits: " ++ "; ".intercalate b.commits])

/-- The text for which a vector is asked: the header lines, an empty line, and the block's text. -/
def embeddingText (b : Block) : String :=
  "\n".intercalate b.headerLines ++ "\n\n" ++ b.text

/-- One line that names a block in messages. -/
def summary (b : Block) : String :=
  "<Block " ++ b.kind.name ++ " " ++ b.className.getD "" ++ " " ++ b.name.getD "" ++ " " ++ b.path ++
    ":" ++ toString b.span.first ++ "-" ++ toString b.span.last ++ ">"

end Block

end BlockIndex
