import BlockIndex.Block.Basic
import BlockIndex.Extract.Go.Tree

/-! The declarations in a syntax tree of Go: functions, methods and struct types, in the order of the
tree. -/

namespace BlockIndex.Extract.Go

inductive Declared where
  | function (name : Option String)
  | method (receiver name : Option String)
  | struct (name : Option String)
  deriving DecidableEq, Repr

/-- A declaration with the rows in which it starts and ends. -/
structure Declaration where
  declared : Declared
  row : Nat
  lastRow : Nat
  deriving DecidableEq, Repr

namespace Node

mutual

/-- The first type that is named in a tree.  One without a text counts only at the top. -/
def typeIn? (source : List UInt8) : Node → Option String
  | node k f e cs =>
    if k = "type_identifier" then some (text source (node k f e cs)) else typeAmong? source cs

def typeAmong? (source : List UInt8) : List Node → Option String
  | [] => none
  | n :: ns =>
    match typeIn? source n with
    | some t => if t = "" then typeAmong? source ns else some t
    | none => typeAmong? source ns

end

def nameIn? (source : List UInt8) (n : Node) : Option String :=
  (n.child? "name").map (text source)

/-- What a node declares. -/
def declared? (source : List UInt8) (n : Node) : Option Declared :=
  if n.kind = "function_declaration" then some (.function (n.nameIn? source))
  else if n.kind = "method_declaration" then
    some (.method ((n.child? "receiver").bind (typeIn? source)) (n.nameIn? source))
  else if n.kind = "type_spec" ∧ (n.child? "type").map kind = some "struct_type" then
    some (.struct (n.nameIn? source))
  else none

def declaration? (source : List UInt8) (n : Node) : Option Declaration :=
  (n.declared? source).map fun d => ⟨d, n.extent.start.row, n.extent.lastRow⟩

end Node

/-- The declarations in a source, in the order of its tree. -/
def declarations (parse : Parser) (source : List UInt8) : List Declaration :=
  (parse source).preorder.filterMap (Node.declaration? source)

namespace Declared

def kind : Declared → BlockKind
  | .function _ => .function
  | .method _ _ => .method
  | .struct _ => .struct

/-- The class of a declaration: the receiver of a method, the name of a struct type. -/
def className : Declared → Option String
  | .function _ => none
  | .method receiver _ => receiver
  | .struct name => name

def name : Declared → Option String
  | .function name => name
  | .method _ name => name
  | .struct _ => none

/-- The comment line before the text of a declaration.  A method without a receiver has none. -/
def caption : Declared → Option String
  | .function _ => none
  | .method receiver _ => (receiver.filter (· ≠ "")).map ("// Method of " ++ ·)
  | .struct _ => some "// Type definition"

end Declared

end BlockIndex.Extract.Go
