import BlockIndex.Backend.Go.Token
import BlockIndex.Extract.Go.Tree

/-! A parser for Go files that reads declarations only.  Functions and methods stand at the top of a
file and start a statement; struct types stand anywhere.  The tree has a node for each of these, in
the order in which they start, with the nodes for its name, its receiver and its type. -/

namespace BlockIndex.Backend.Go

open Extract.Go

/-- The change of bracket depth at a token. -/
def opens : TokenKind → Bool
  | .mark c => c = '(' || c = '[' || c = '{'
  | _ => false

def closes : TokenKind → Bool
  | .mark c => c = ')' || c = ']' || c = '}'
  | _ => false

def separates : TokenKind → Bool
  | .semicolon => true
  | .lineEnd => true
  | _ => false

def depthAfter (depth : Nat) (k : TokenKind) : Nat :=
  if opens k then depth + 1 else if closes k then depth - 1 else depth

/-- The tokens without the line ends in front. -/
def skipLineEnds : List Token → List Token
  | [] => []
  | t :: ts => if t.kind = .lineEnd then skipLineEnds ts else t :: ts

structure Group where
  inside : List Token
  /-- The byte after the closing bracket. -/
  past : Nat
  rest : List Token

/-- The group that has been opened `depth + 1` brackets ago. -/
def groupFrom (depth : Nat) : List Token → Option Group
  | [] => none
  | t :: ts =>
    if closes t.kind && depth == 0 then some ⟨[], t.past, ts⟩
    else (groupFrom (depthAfter depth t.kind) ts).map fun g => { g with inside := t :: g.inside }

/-- The group in brackets that starts with the given bracket, line ends in front left out. -/
def group? (bracket : Char) (ts : List Token) : Option Group :=
  match skipLineEnds ts with
  | [] => none
  | t :: r => if t.kind = .mark bracket then groupFrom 0 r else none

/-- Where a declaration ends whose last token so far ends at `past`: after the last token before the
end of the statement. -/
def statementEnd (depth past : Nat) : List Token → Nat
  | [] => past
  | t :: ts =>
    if depth == 0 && separates t.kind then past
    else statementEnd (depthAfter depth t.kind) t.past ts

/-- The tokens between commas outside brackets. -/
def entriesFrom (depth : Nat) : List Token → List (List Token)
  | [] => [[]]
  | t :: ts =>
    if depth == 0 && decide (t.kind = .mark ',') then [] :: entriesFrom 0 ts
    else
      match entriesFrom (depthAfter depth t.kind) ts with
      | [] => [[t]]
      | e :: es => (t :: e) :: es

/-- The kinds of the tokens, line ends left out. -/
def kinds (ts : List Token) : List TokenKind :=
  (ts.map (·.kind)).filter fun k => !separates k

/-- Whether an entry of a parameter list gives a name before the type. -/
def isNamedEntry (ts : List Token) : Bool :=
  match ts.filter fun t => !separates t.kind with
  | ⟨.name _, _, _⟩ :: t :: r =>
    match t.kind with
    | .mark '.' => (r.head?.map (·.kind)) == some (.mark '.')
    | .mark '[' =>
      match groupFrom 0 r with
      | some g => g.inside.isEmpty || !g.rest.isEmpty
      | none => false
    | _ => true
  | _ => false

/-- The first type name in the tokens of a type: of a qualified name the last part, and no name of
a parameter or a field. -/
def firstTypeName : Nat → List TokenKind → Option String
  | 0, _ => none
  | fuel + 1, ks =>
    match ks with
    | [] => none
    | .name _ :: .mark '.' :: r => firstTypeName fuel r
    | .name n :: _ => some n
    | .mark '[' :: .name _ :: .mark ']' :: r => firstTypeName fuel r
    | .keyword "map" :: .mark '[' :: r => firstTypeName fuel r
    | .keyword "func" :: .mark '(' :: .name _ :: .name n :: _ => some n
    | .keyword "struct" :: .mark '{' :: .name _ :: .name n :: _ => some n
    | _ :: r => firstTypeName fuel r

/-- The type that a receiver names: the first type name in the list in parentheses, where the
names of parameters do not count. -/
def receiverType (ts : List Token) : Option String :=
  let entries := (entriesFrom 0 ts).filter fun e => !(kinds e).isEmpty
  let named := entries.any isNamedEntry
  entries.findSome? fun e =>
    let ks := kinds e
    if isNamedEntry e then firstTypeName ks.length ks.tail
    else if named && ks.length == 1 then none
    else firstTypeName ks.length ks

def nodeOf (source : List UInt8) (kind : String) (field : Option String) (first past : Nat)
    (children : List Node) : Node :=
  .node kind field (Extent.of source first past) children

def Token.nameNode (source : List UInt8) (t : Token) : Node :=
  nodeOf source "identifier" (some "name") t.first t.past []

/-- The node of a receiver, which the byte numbered `first` opens.  Of what is inside, it has the type
that the receiver names. -/
def receiverNode (source : List UInt8) (first : Nat) (receiver : Group) : Node :=
  let types := (receiverType receiver.inside).toList.filterMap fun n =>
    receiver.inside.find? (·.kind == .name n)
  nodeOf source "parameter_list" (some "receiver") first receiver.past
    (types.map fun t => nodeOf source "type_identifier" none t.first t.past [])

/-- The function or method whose reserved word `start` has been read. -/
def functionAt? (source : List UInt8) (start : Token) (ts : List Token) : Option Node :=
  match skipLineEnds ts with
  | ⟨.name n, first, past⟩ :: r =>
    let params := match group? '[' r with
      | some g => group? '(' g.rest
      | none => group? '(' r
    params.map fun g =>
      nodeOf source "function_declaration" none start.first (statementEnd 0 g.past g.rest)
        [Token.nameNode source ⟨.name n, first, past⟩]
  | ⟨.mark '(', opening, _⟩ :: r =>
    (groupFrom 0 r).bind fun receiver =>
      match skipLineEnds receiver.rest with
      | ⟨.name n, first, past⟩ :: r' =>
        (group? '(' r').map fun g =>
          nodeOf source "method_declaration" none start.first (statementEnd 0 g.past g.rest)
            [receiverNode source opening receiver, Token.nameNode source ⟨.name n, first, past⟩]
      | _ => none
  | _ => none

/-- Whether what stands in brackets after the name of a type are type parameters, not the length of
an array. -/
def areTypeParameters (ts : List Token) : Bool :=
  match kinds ts with
  | .name _ :: .name _ :: _ => true
  | .name _ :: .keyword _ :: _ => true
  | .name _ :: .mark ',' :: _ => true
  | .name _ :: .mark '~' :: _ => true
  | .name _ :: .mark '[' :: .mark ']' :: _ => true
  | _ => decide (1 < (entriesFrom 0 ts).length)

/-- The struct type whose specification starts with the tokens. -/
def structAt? (source : List UInt8) (ts : List Token) : Option Node :=
  match ts with
  | ⟨.name n, first, past⟩ :: r =>
    let type := match group? '[' r with
      | some g => if areTypeParameters g.inside then some g.rest else none
      | none => some r
    type.bind fun r' =>
      match skipLineEnds r' with
      | ⟨.keyword "struct", opening, _⟩ :: body =>
        (group? '{' body).map fun g =>
          nodeOf source "type_spec" none first g.past
            [Token.nameNode source ⟨.name n, first, past⟩,
              nodeOf source "struct_type" (some "type") opening g.past []]
      | _ => none
  | _ => none

/-- The struct types among the specifications in parentheses. -/
def structsIn (source : List UInt8) (depth : Nat) (atStart : Bool) : List Token → List Node
  | [] => []
  | t :: ts =>
    (if atStart then (structAt? source (t :: ts)).toList else []) ++
      structsIn source (depthAfter depth t.kind) (depth == 0 && separates t.kind) ts

/-- The struct types of a type declaration whose reserved word has been read. -/
def structsAfter (source : List UInt8) (ts : List Token) : List Node :=
  match skipLineEnds ts with
  | [] => []
  | t :: r =>
    if t.kind = .mark '(' then
      match groupFrom 0 r with
      | some g => structsIn source 0 true g.inside
      | none => []
    else (structAt? source (t :: r)).toList

/-- The declarations from a token on, `depth` brackets deep; `atStart` says whether a statement
starts here. -/
def declarationsFrom (source : List UInt8) (depth : Nat) (atStart : Bool) :
    List Token → List Node
  | [] => []
  | t :: ts =>
    (if t.kind = .keyword "func" then
      if depth == 0 && atStart then (functionAt? source t ts).toList else []
    else if t.kind = .keyword "type" then structsAfter source ts
    else []) ++
      declarationsFrom source (depthAfter depth t.kind) (separates t.kind) ts

def parse : Parser := fun source =>
  nodeOf source "source_file" none 0 source.length
    (declarationsFrom source 0 true (tokens (Text.Utf8.decode source)))

end BlockIndex.Backend.Go
