import BlockIndex.Settings.Basic

/-! Environment files.  Each statement names a variable and may give it a value, bare or in quotes; a
number sign starts a comment.  A statement that cannot be read is passed over up to the end of its
line.  In a value, a name in braces after a dollar sign stands for the value of that variable. -/

namespace BlockIndex.Backend.EnvFile

open Text
open BlockIndex.EnvFile (Variables)

/-- Whether a character is blank and ends no line. -/
def isSpace (c : Char) : Bool := isBlank c && c != '\n'

def pastSpaces (s : List Char) : List Char := s.dropWhile isSpace

def pastLine (s : List Char) : List Char := (s.dropWhile (· != '\n')).drop 1

/-- The text inside quotes and what follows the closing quote.  A quote after a backslash closes
only if no later quote does. -/
def quotedBody? (quote : Char) : List Char → Option (List Char × List Char)
  | [] => none
  | '\\' :: d :: r =>
    if d = quote then
      match quotedBody? quote r with
      | some (body, rest) => some ('\\' :: d :: body, rest)
      | none => some (['\\'], r)
    else (quotedBody? quote (d :: r)).map fun b => ('\\' :: b.1, b.2)
  | c :: r =>
    if c = quote then some ([], r) else (quotedBody? quote r).map fun b => (c :: b.1, b.2)

def escaped? : Char → Option Char
  | '\\' => some '\\'
  | '\'' => some '\''
  | '"' => some '"'
  | 'a' => some '\x07'
  | 'b' => some '\x08'
  | 'f' => some '\x0c'
  | 'n' => some '\n'
  | 'r' => some '\r'
  | 't' => some '\t'
  | 'v' => some '\x0b'
  | _ => none

def escapedSingle? : Char → Option Char
  | '\\' => some '\\'
  | '\'' => some '\''
  | _ => none

def unescape (f : Char → Option Char) : List Char → List Char
  | '\\' :: c :: r =>
    match f c with
    | some x => x :: unescape f r
    | none => '\\' :: unescape f (c :: r)
  | c :: r => c :: unescape f r
  | [] => []

/-- The text before the first number sign that comes after a blank, and before the blanks there. -/
def beforeComment : List Char → List Char
  | [] => []
  | c :: r =>
    if isBlank c && (r.dropWhile isBlank).head? == some '#' then []
    else c :: beforeComment r

def readValue? (s : List Char) : Option (List Char × List Char) :=
  match s with
  | [] => some ([], [])
  | '\n' :: _ => some ([], s)
  | '\'' :: r => (quotedBody? '\'' r).map fun b => (unescape escapedSingle? b.1, b.2)
  | '"' :: r => (quotedBody? '"' r).map fun b => (unescape escaped? b.1, b.2)
  | _ =>
    let line := s.takeWhile (· != '\n')
    some (stripRight (beforeComment line), s.drop line.length)

def isNameChar (c : Char) : Bool := c != '=' && c != '#' && !isBlank c

/-- The name at the front, if there is one, and what follows it; a comment has no name. -/
def readName? (s : List Char) : Option (Option (List Char) × List Char) :=
  match s with
  | '#' :: _ => some (none, s)
  | '\'' :: r =>
    let name := r.takeWhile (· != '\'')
    if name.isEmpty then none
    else
      match r.drop name.length with
      | _ :: rest => some (some name, rest)
      | [] => none
  | _ =>
    let name := s.takeWhile isNameChar
    if name.isEmpty then none else some (some name, s.drop name.length)

/-- The text without the word `export` and the spaces after it at its front. -/
def pastExport (s : List Char) : List Char :=
  let word := "export".toList
  if startsWith word && (pastSpaces (s.drop word.length)).length < (s.drop word.length).length then
    pastSpaces (s.drop word.length)
  else s
where
  startsWith (word : List Char) : Bool := word.isPrefixOf s

/-- What follows the rest of a line that may hold a comment. -/
def pastEnd? (s : List Char) : Option (List Char) :=
  let s := match pastSpaces s with
    | '#' :: r => r.dropWhile (· != '\n')
    | _ => s
  match pastSpaces s with
  | [] => some []
  | '\n' :: r => some r
  | _ => none

/-- A statement: a variable and its value, if one is given; or one that cannot be read. -/
inductive Statement where
  | empty
  | binding (name : List Char) (value : Option (List Char))
  | unreadable
  deriving DecidableEq, Repr

/-- The value after a name, if an equals sign comes first, and what follows. -/
def readAssignment (s : List Char) : List Char ⊕ (Option (List Char) × List Char) :=
  match pastSpaces s with
  | '=' :: r =>
    match readValue? (pastSpaces r) with
    | some (v, rest) => .inr (some v, rest)
    | none => .inl (pastSpaces r)
  | rest => .inr (none, rest)

/-- The statement at the front, which is no blank, and what follows it. -/
def readStatement (s : List Char) : Statement × List Char :=
  let s := pastExport s
  match readName? s with
  | none => (.unreadable, pastLine s)
  | some (name, s) =>
    match readAssignment s with
    | .inl rest => (.unreadable, pastLine rest)
    | .inr (value, s) =>
      match pastEnd? s with
      | some rest => (match name with
        | some n => .binding n value
        | none => .empty, rest)
      | none => (.unreadable, pastLine s)

/-- The statements, each with what is left of the text where the search for it began.  At most
`fuel` statements are read. -/
def readFrom : Nat → List Char → List (List Char × Statement)
  | 0, _ => []
  | fuel + 1, s =>
    match s.dropWhile isBlank with
    | [] => []
    | r =>
      let (x, rest) := readStatement r
      (s, x) :: readFrom fuel rest

/-- The statements of a text with the numbers of the lines where the search for them began. -/
def statements (s : List Char) : List (Nat × Statement) :=
  let total := s.count '\n'
  (readFrom (s.length + 1) s).map fun e => (total - e.1.count '\n' + 1, e.2)

/-- The numbers of the lines at which statements that cannot be read begin. -/
def unreadableLines (s : List Char) : List Nat :=
  (statements s).filterMap fun e =>
    match e.2 with
    | .unreadable => some e.1
    | _ => none

/-- The variable at the front of a text after a dollar sign and an opening brace: its name, the
text that stands for it if it has no value, and what follows. -/
def reference? (s : List Char) : Option (List Char × List Char × List Char) :=
  let name := s.takeWhile fun c => c != '\x7d' && c != ':'
  match s.drop name.length with
  | ':' :: '-' :: r =>
    let other := r.takeWhile (· != '\x7d')
    match r.drop other.length with
    | _ :: rest => some (name, other, rest)
    | [] => none
  | '\x7d' :: rest => some (name, [], rest)
  | _ => none

/-- The text with its references to variables replaced.  At most `fuel` characters are passed. -/
def expandFrom (value? : String → Option String) : Nat → List Char → List Char
  | 0, s => s
  | _, [] => []
  | fuel + 1, c :: r =>
    match c, r with
    | '$', '\x7b' :: s =>
      match reference? s with
      | some (name, other, rest) =>
        ((value? (String.ofList name)).map String.toList).getD other ++ expandFrom value? fuel rest
      | none => c :: expandFrom value? fuel r
    | _, _ => c :: expandFrom value? fuel r

/-- Bindings in which a later value of a variable takes the place of an earlier one. -/
def bind (name : String) (value : Option String) :
    List (String × Option String) → List (String × Option String)
  | [] => [(name, value)]
  | e :: es => if e.1 = name then (name, value) :: es else e :: bind name value es

/-- The value of a variable in a reference: that of the environment, or else the one bound so
far, where a variable without a value is empty. -/
def lookup (environment : Variables) (bound : List (String × Option String)) (name : String) :
    Option String :=
  match environment.lookup name with
  | some v => some v
  | none => (bound.lookup name).map fun v => v.getD ""

/-- The bindings of statements after those already made. -/
def bindAll (environment : Variables) (bound : List (String × Option String)) :
    List Statement → List (String × Option String)
  | [] => bound
  | .binding name value :: r =>
    let v := value.map fun v =>
      String.ofList (expandFrom (lookup environment bound) v.length v)
    bindAll environment (bind (String.ofList name) v bound) r
  | _ :: r => bindAll environment bound r

def bindings (environment : Variables) (s : List Char) : List (String × Option String) :=
  bindAll environment [] ((statements s).map (·.2))

/-- The variable that turns environment files off. -/
def switch : String := "PYTHON_DOTENV_DISABLED"

def isDisabled (environment : Variables) : Bool :=
  match environment.lookup switch with
  | some v => ["1", "true", "t", "yes", "y"].contains (lower v)
  | none => false

/-- The environment with the variables that are bound but not set yet. -/
def setAll : List (String × Option String) → Variables → Except EnvFileError Variables
  | [], env => .ok env
  | (name, value) :: r, env =>
    match env.lookup name, value with
    | none, some v =>
      if name.toList.contains '\x00' || v.toList.contains '\x00' then .error .nullByte
      else if name.toList.contains '=' then .error .badName
      else setAll r (env ++ [(name, v)])
    | _, _ => setAll r env

/-- The content of the file of a written path, unless such files are turned off.  A path that ends
with a slash leads to no file. -/
def read? (d : Disk Bytes) (env : Variables) (path : String) : Option Bytes :=
  if isDisabled env || Text.endsWith path.toList ['/'] then none
  else (d.read (Path.ofString path)).toOption

def complaint (line : Nat) : String :=
  "python-dotenv could not parse statement starting at line " ++ toString line

/-- The environment with what an environment file adds.  It prints a line for each statement that
cannot be read. -/
def load : BlockIndex.EnvFile.Loader := fun d env path =>
  match read? d env path with
  | none => .ok (env, [])
  | some bytes =>
    match Text.Utf8.decode? bytes with
    | none => .error .notText
    | some s =>
      let s := Text.unifyLineEnds s
      match setAll (bindings env s) env with
      | .ok env => .ok (env, (unreadableLines s).map complaint)
      | .error e => .error e

end BlockIndex.Backend.EnvFile
