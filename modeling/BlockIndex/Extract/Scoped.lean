import BlockIndex.Block.Basic
import BlockIndex.Block.Body
import BlockIndex.Header.Pattern

/-! Declarations found line by line.  Each line is a class header, starts a declaration, or is passed
over.  A declaration is a method of the last class before it if it is indented deeper than that
class's header; nesting is not followed. -/

namespace BlockIndex.Extract

open Text

/-- A declaration that a line starts: its name and how its body ends. -/
structure Declaration where
  name : String
  body : Body.Rule

/-- What the lines of a language are.  The tests see a line without the blank characters around
it. -/
structure Language where
  /-- Whether a line can be neither a class header nor a declaration. -/
  passesOver : List Char → Bool
  /-- The shape of a class header. -/
  classHeader : Header.Pattern
  /-- The declaration that a line starts, inside a class or outside. -/
  declaration? : (inClass : Bool) → List Char → Option Declaration

/-- The class whose header was read last, and how far the header is indented. -/
structure Scope where
  className : String
  indentation : Nat

def Scope.classAt (scope : Option Scope) (indentation : Nat) : Option String :=
  scope.bind fun s => if s.indentation < indentation then some s.className else none

namespace Language

/-- The block of the declaration that line `i` starts, if it starts one. -/
def blockAt? (lang : Language) (path : String) (ls : List String) (scope : Option Scope) (i : Nat)
    (line : String) : Option Block :=
  let className := Scope.classAt scope (Body.indentation line)
  (lang.declaration? className.isSome (strip line.toList)).bind fun d =>
    let last := d.body.finish ls i
    (Span.make? (i + 1) (last + 1)).map fun span =>
      { path, span, className
        kind := if className.isSome then .method else .function
        text := Body.slice ls i last
        name := some d.name }

/-- The class header that a line is, if it is one. -/
def scopeAt? (lang : Language) (line : String) : Option Scope :=
  (lang.classHeader.name? (strip line.toList)).map fun c => ⟨c, Body.indentation line⟩

/-- The blocks of the lines from line `i` on, where `scope` is the class read last before them. -/
def blocksFrom (lang : Language) (path : String) (ls : List String) (scope : Option Scope)
    (i : Nat) : List String → List Block
  | [] => []
  | l :: rest =>
    if lang.passesOver (strip l.toList) then lang.blocksFrom path ls scope (i + 1) rest
    else
      match lang.scopeAt? l with
      | some s => lang.blocksFrom path ls (some s) (i + 1) rest
      | none =>
        (lang.blockAt? path ls scope i l).toList ++ lang.blocksFrom path ls scope (i + 1) rest

def blocks (lang : Language) (path content : String) : List Block :=
  lang.blocksFrom path (lines content) none 0 (lines content)

end Language

end BlockIndex.Extract
