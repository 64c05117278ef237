import BlockIndex.Extract.Scoped
import BlockIndex.Text.Word

/-! Languages whose bodies stand in braces.  A declaration has one of several shapes, tried in order;
a word of the language that looks like a name is none. -/

namespace BlockIndex.Extract

open Text Header Header.Pattern

/-- A shape of declarations. -/
structure Shape where
  pattern : Pattern
  /-- Whether it counts only inside a class. -/
  inClassOnly : Bool := false
  /-- Whether the body may be an expression without braces. -/
  mayBeExpression : Bool := false

/-- The words that control the flow of a program and so are not names of declarations. -/
def controlWords : List String :=
  ["if", "for", "while", "switch", "catch", "with", "return", "function", "foreach", "elseif",
   "else", "do", "try", "match", "new", "typeof"]

namespace Shape

def name? (s : Shape) (line : List Char) : Option String :=
  (s.pattern.name? line).filter fun n => !controlWords.contains n

/-- How the body of a declaration with the given first line ends.  A header that ends with a
semicolon and opens no brace has no body. -/
def bodyRule (s : Shape) (line : List Char) : Body.Rule :=
  if endsWith line [';'] && !line.contains '{' then .none
  else if s.mayBeExpression && !line.contains '{' then .expression
  else .braced

/-- The declaration that a line starts by a shape. -/
def declaration? (s : Shape) (inClass : Bool) (line : List Char) : Option Declaration :=
  if s.inClassOnly && !inClass then none
  else (s.name? line).map fun n => ⟨n, s.bodyRule line⟩

end Shape

def bracedLanguage (comments : List String) (classHeader : Pattern) (shapes : List Shape) :
    Language where
  passesOver line := line.isEmpty || comments.any fun c => startsWith line c.toList
  classHeader := classHeader
  declaration? inClass line := shapes.findSome? fun s => s.declaration? inClass line

/-- Blank characters, perhaps none. -/
def spaces : Pattern := .many (.one isBlank)

/-- One or more blank characters. -/
def gap : Pattern := several (.one isBlank)

/-- A word that is not read as the name. -/
def anyWord : Pattern := several (.one isWord)

def identifier : Pattern := .named anyWord

/-- A given word and the gap after it. -/
def wordGap (s : String) : Pattern := sequence [literal s, gap]

/-- Any number of the given words, each with a gap after it. -/
def modifiers (s : String) (ss : List String) : Pattern :=
  .many (sequence [choice (literal s) (ss.map literal), gap])

/-- A given word that no word character follows. -/
def wholeWord (s : String) : Pattern := sequence [literal s, .notBefore isWord]

/-- Characters other than the given one, perhaps none. -/
def except (c : Char) : Pattern := .many (.one (· != c))

end BlockIndex.Extract
