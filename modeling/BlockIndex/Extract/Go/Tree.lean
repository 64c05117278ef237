import BlockIndex.Text.Utf8

/-! Syntax trees of Go files, as a parser gives them.  The parser comes from elsewhere; what its trees
say is read off here. -/

namespace BlockIndex.Extract.Go

/-- A place in a text: how many rows come before it, and how many bytes of its own row. -/
structure Point where
  row : Nat
  column : Nat
  deriving DecidableEq, Repr

/-- The point in front of the byte with number `n`. -/
def Point.of (source : List UInt8) (n : Nat) : Point where
  row := (source.take n).count 10
  column := ((source.take n).reverse.takeWhile (· ≠ 10)).length

/-- What a node covers: the bytes from `first` on and before `past`, with the points of both. -/
structure Extent where
  first : Nat
  past : Nat
  start : Point
  stop : Point
  deriving DecidableEq, Repr

def Extent.of (source : List UInt8) (first past : Nat) : Extent :=
  ⟨first, past, Point.of source first, Point.of source past⟩

/-- The row in which an extent ends.  One that ends in front of a row ends in the row before it. -/
def Extent.lastRow (e : Extent) : Nat :=
  if e.stop.column = 0 ∧ e.start.row < e.stop.row then e.stop.row - 1 else e.stop.row

/-- A node of a syntax tree.  `field` is what it is to the node above it, if that has a name. -/
inductive Node where
  | node (kind : String) (field : Option String) (extent : Extent) (children : List Node)

/-- A parser gives the tree of the bytes of a file. -/
abbrev Parser := List UInt8 → Node

namespace Node

def kind : Node → String
  | node k _ _ _ => k

def field : Node → Option String
  | node _ f _ _ => f

def extent : Node → Extent
  | node _ _ e _ => e

def children : Node → List Node
  | node _ _ _ cs => cs

/-- The first child that is in a field. -/
def child? (n : Node) (name : String) : Option Node :=
  n.children.find? (·.field == some name)

/-- The text of a node. -/
def text (source : List UInt8) (n : Node) : String :=
  let bytes := (source.drop n.extent.first).take (n.extent.past - n.extent.first)
  String.ofList (Text.Utf8.decode bytes)

mutual

/-- The nodes of a tree, each before its children. -/
def preorder : Node → List Node
  | node k f e cs => node k f e cs :: preorders cs

def preorders : List Node → List Node
  | [] => []
  | n :: ns => preorder n ++ preorders ns

end

end Node

end BlockIndex.Extract.Go
