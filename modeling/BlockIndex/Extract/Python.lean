import BlockIndex.Extract.Extractor
import BlockIndex.Extract.Scoped
import BlockIndex.Text.Word

/-! Python files: functions and methods with indented bodies. -/

namespace BlockIndex.Extract.Python

open Text Header Header.Pattern

def gap : Pattern := several (.one isBlank)

def identifier : Pattern := .named (several (.one isWord))

/-- Class headers such as `class C`. -/
def classHeader : Pattern := sequence [literal "class", gap, identifier]

/-- Function headers such as `def f` and `async def f`. -/
def functionHeader : Pattern :=
  sequence [optional (sequence [literal "async", gap]), literal "def", gap, identifier]

/-- A line counts only if it holds a colon and is no comment. -/
def language : Language where
  passesOver s := s.isEmpty || startsWith s ['#'] || !s.contains ':'
  classHeader := classHeader
  declaration? _ s := (functionHeader.name? s).map fun n => ⟨n, .indented⟩

def extractor : Extractor where
  name := "python"
  extensions := [".py"]
  extract path content := .ok (language.blocks path content)

end BlockIndex.Extract.Python
