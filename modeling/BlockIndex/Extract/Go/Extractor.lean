import BlockIndex.Block.Body
import BlockIndex.Extract.Extractor
import BlockIndex.Extract.Go.Declaration

/-! Go files: functions, methods and struct types.  The text of a method and of a struct type starts
with a comment line that says what it belongs to. -/

namespace BlockIndex.Extract.Go

def blockOf? (path : String) (ls : List String) (d : Declaration) : Option Block :=
  let last := min (d.lastRow + 1) ls.length
  (Span.make? (d.row + 1) last).map fun span =>
    let text := Body.slice ls d.row (last - 1)
    { path, span
      kind := d.declared.kind
      className := d.declared.className
      name := d.declared.name
      text := match d.declared.caption with
        | some c => c ++ "\n" ++ text
        | none => text }

def blocks (parse : Parser) (path content : String) : List Block :=
  (declarations parse (Text.Utf8.encode content.toList)).filterMap
    (blockOf? path (Text.lines content))

def extractor (parse : Parser) : Extractor where
  name := "go"
  extensions := [".go"]
  extract path content := .ok (blocks parse path content)

end BlockIndex.Extract.Go
