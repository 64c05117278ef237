import BlockIndex.Extract.Extractor
import BlockIndex.Tokens.Chunk
import BlockIndex.Tree.Path

/-! Texts without declarations: notes, settings and the like, divided into chunks under a token
limit. -/

namespace BlockIndex.Extract.Plain

def kinds : List (String × BlockKind) :=
  [(".md", .markdown), (".yml", .yaml), (".yaml", .yaml), (".conf", .config), (".config", .config),
   (".txt", .text)]

def kindOf (path : String) : BlockKind :=
  (kinds.lookup (Text.lower (Path.ofString path).suffix)).getD .text

def blockOf? (path : String) (c : Tokens.Chunk) : Option Block :=
  (Span.make? c.first c.last).map fun span => { path, span, kind := kindOf path, text := c.text }

def blocks (limit : Int) (path content : String) : List Block :=
  (Tokens.chunks limit (Text.lines content)).filterMap (blockOf? path)

def extractor (limit : Int) : Extractor where
  name := "text"
  extensions := kinds.map (·.1)
  extract path content := .ok (blocks limit path content)

end BlockIndex.Extract.Plain
