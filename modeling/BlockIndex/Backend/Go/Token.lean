/-! The tokens of Go, for a parser that reads declarations only.  Comments and blanks separate tokens
and are none.  A line end counts as a token where the token before it can end a statement: a name, a
literal, a closing bracket, a doubled sign, or one of the words that leave a block. -/

namespace BlockIndex.Backend.Go

inductive TokenKind where
  | keyword (word : String)
  /-- Any other word, also a number. -/
  | name (word : String)
  | literal
  /-- A character of an operator or a bracket. -/
  | mark (c : Char)
  | semicolon
  /-- The end of a line that can end a statement. -/
  | lineEnd
  deriving DecidableEq, Repr

/-- A token with the number of its first byte and that of the byte after it. -/
structure Token where
  kind : TokenKind
  first : Nat
  past : Nat
  deriving DecidableEq, Repr

def keywords : List String :=
  ["break", "case", "chan", "const", "continue", "default", "defer", "else", "fallthrough", "for",
   "func", "go", "goto", "if", "import", "interface", "map", "package", "range", "return",
   "select", "struct", "switch", "type", "var"]

/-- The reserved words that can end a statement. -/
def leavingWords : List String := ["break", "continue", "fallthrough", "return"]

inductive Mode where
  | between
  /-- A word; its characters so far, the last one first. -/
  | word (letters : List Char)
  /-- A slash that may start a comment. -/
  | slash
  | lineComment
  /-- A comment that ends with a star and a slash. -/
  | blockComment (afterStar : Bool)
  /-- A literal that ends with the given quote. -/
  | quoted (quote : Char) (afterBackslash : Bool)
  /-- A literal that ends with a grave accent. -/
  | raw

/-- The state of the reader: what is being read, where it started, the number of the next byte,
whether a line end would be a token, and the last character if it is a mark. -/
structure Reader where
  mode : Mode
  place : Nat
  start : Nat
  mayEnd : Bool
  lastMark : Option Char

def Reader.initial : Reader := ⟨.between, 0, 0, false, none⟩

/-- Whether a character can stand in a word.  A source without errors has no other characters
beyond the first 128 outside literals and comments. -/
def isWordChar (c : Char) : Bool := c.isAlphanum || c == '_' || decide (0x80 ≤ c.toNat)

/-- Whether the letters of a word, the last one first, are those of a number: then a full stop is
part of it. -/
def isNumber (letters : List Char) : Bool := (letters.getLast?.map Char.isDigit).getD false

namespace Reader

/-- The token of a word, and whether a line end may follow it.  After a full stop no word is
reserved. -/
def wordToken (r : Reader) (letters : List Char) : TokenKind × Bool :=
  let w := String.ofList letters.reverse
  if keywords.contains w && r.lastMark != some '.' then (.keyword w, leavingWords.contains w)
  else (.name w, true)

/-- The reader after a character that starts something new. -/
def begin (r : Reader) (c : Char) : List Token × Reader :=
  if c = '\n' then
    (if r.mayEnd then [⟨.lineEnd, r.place, r.place + 1⟩] else [],
      { r with mode := .between, mayEnd := false, lastMark := none })
  else if c = ' ' ∨ c = '\t' ∨ c = '\r' ∨ c = '\x0b' ∨ c = '\x0c' ∨ c = '\uFEFF' then
    ([], { r with mode := .between, lastMark := none })
  else if isWordChar c then ([], { r with mode := .word [c], start := r.place })
  else if c = '/' then ([], { r with mode := .slash, start := r.place })
  else if c = '"' ∨ c = '\'' then
    ([], { r with mode := .quoted c false, start := r.place, lastMark := none })
  else if c.toNat = 0x60 then ([], { r with mode := .raw, start := r.place, lastMark := none })
  else if c = ';' then
    ([⟨.semicolon, r.place, r.place + 1⟩],
      { r with mode := .between, mayEnd := false, lastMark := none })
  else
    let closes := c = ')' || c = ']' || c = '}'
    let doubled := (c = '+' || c = '-') && r.lastMark == some c
    ([⟨.mark c, r.place, r.place + c.utf8Size⟩],
      { r with mode := .between, mayEnd := closes || doubled, lastMark := some c })

/-- The reader after the literal that is being read, whose last character has one byte. -/
def endLiteral (r : Reader) : List Token × Reader :=
  ([⟨.literal, r.start, r.place + 1⟩], { r with mode := .between, mayEnd := true })

/-- The tokens that a character completes, and what is being read after it. -/
def take (r : Reader) (c : Char) : List Token × Reader :=
  match r.mode with
  | .between => r.begin c
  | .word letters =>
    if isWordChar c || (c == '.' && isNumber letters) then
      ([], { r with mode := .word (c :: letters) })
    else
      let t := r.wordToken letters
      let next := Reader.begin { r with mayEnd := t.2, lastMark := none } c
      (⟨t.1, r.start, r.place⟩ :: next.1, next.2)
  | .slash =>
    if c = '/' then ([], { r with mode := .lineComment })
    else if c = '*' then ([], { r with mode := .blockComment false })
    else
      let next := Reader.begin { r with mayEnd := false, lastMark := some '/' } c
      (⟨.mark '/', r.start, r.place⟩ :: next.1, next.2)
  | .lineComment =>
    if c = '\n' then r.begin c else ([], r)
  | .blockComment afterStar =>
    if afterStar && c = '/' then ([], { r with mode := .between })
    else ([], { r with mode := .blockComment (c = '*') })
  | .quoted quote afterBackslash =>
    if afterBackslash then ([], { r with mode := .quoted quote false })
    else if c = quote then r.endLiteral
    else ([], { r with mode := .quoted quote (c = '\\') })
  | .raw => if c.toNat = 0x60 then r.endLiteral else ([], r)

/-- The tokens that a character completes, and the reader at the next one. -/
def step (r : Reader) (c : Char) : List Token × Reader :=
  let (ts, next) := r.take c
  (ts, { next with place := r.place + c.utf8Size })

/-- The token that the end of the text completes. -/
def finish (r : Reader) : List Token :=
  match r.mode with
  | .word letters => [⟨(r.wordToken letters).1, r.start, r.place⟩]
  | .slash => [⟨.mark '/', r.start, r.place⟩]
  | _ => []

end Reader

def tokensFrom (r : Reader) : List Char → List Token
  | [] => r.finish
  | c :: s => (r.step c).1 ++ tokensFrom (r.step c).2 s

def tokens (s : List Char) : List Token := tokensFrom Reader.initial s

end BlockIndex.Backend.Go
