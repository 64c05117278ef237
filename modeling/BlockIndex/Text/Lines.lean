/-! Lines of a text.  `lineChars` divides a text at its line feeds; a final line feed ends the last
line and starts none.  `unifyLineEnds` turns the three written forms of a line end into a line feed.
`rows` divides a text at every character that ends a line or a page. -/

namespace BlockIndex.Text

/-- The lines of a text, each without its line feed. -/
def lineChars : List Char → List (List Char)
  | [] => []
  | c :: r =>
    if c = '\n' then [] :: lineChars r
    else
      match lineChars r with
      | [] => [[c]]
      | l :: ls => (c :: l) :: ls

def lines (s : String) : List String := (lineChars s.toList).map String.ofList

def joinLines (ls : List String) : String := "\n".intercalate ls

/-- The text with a carriage return, and a carriage return before a line feed, written as a line
feed. -/
def unifyLineEnds : List Char → List Char
  | [] => []
  | '\r' :: '\n' :: r => '\n' :: unifyLineEnds r
  | c :: r => (if c = '\r' then '\n' else c) :: unifyLineEnds r

/-- Whether a character ends a row: the line feed, the carriage return, the vertical tab, the form
feed, the three information separators, the next-line control, and the line and paragraph
separators. -/
def endsRow (c : Char) : Bool :=
  c = '\n' || c = '\r' || c = '\x0b' || c = '\x0c' || c = '\x1c' || c = '\x1d' || c = '\x1e' ||
    c = '\u0085' || c = '\u2028' || c = '\u2029'

/-- The rows of a text whose carriage returns before line feeds are taken out. -/
def rowChars : List Char → List (List Char)
  | [] => []
  | c :: r =>
    if endsRow c then [] :: rowChars r
    else
      match rowChars r with
      | [] => [[c]]
      | l :: ls => (c :: l) :: ls

def rows (s : String) : List String :=
  (rowChars (unifyLineEnds s.toList)).map String.ofList

def startsWith (s start : List Char) : Bool := start.isPrefixOf s

def endsWith (s finish : List Char) : Bool := finish.isSuffixOf s

/-- The pieces of a text between the occurrences of a separator; at least one piece. -/
def splitAt (separator : Char) : List Char → List (List Char)
  | [] => [[]]
  | c :: r =>
    if c = separator then [] :: splitAt separator r
    else
      match splitAt separator r with
      | [] => [[c]]
      | l :: ls => (c :: l) :: ls

theorem splitAt_ne_nil (separator : Char) (s : List Char) : splitAt separator s ≠ [] := by
  induction s with
  | nil => simp [splitAt]
  | cons c r ih =>
    unfold splitAt
    split
    · simp
    · split <;> simp

end BlockIndex.Text
