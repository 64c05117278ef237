import BlockIndex.Text.Digit
import BlockIndex.Text.Lines

/-! The words of a command line.  A word that starts with a hyphen names an option, in full or, after
two hyphens, by the start of its name; the value of an option is the next word, or stands in the
same word after an equals sign or after the letter of a short option. -/

namespace BlockIndex.CommandLine

open Text

inductive Effect where
  | help
  | value (key : String)
  deriving DecidableEq, Repr

structure OptionForm where
  written : List Char
  effect : Effect
  deriving DecidableEq, Repr

/-- The value that stands in the word of an option. -/
inductive Attachment where
  | absent
  /-- A value right after the letter of a short option. -/
  | joined (text : List Char)
  /-- A value after an equals sign. -/
  | assigned (text : List Char)
  deriving DecidableEq, Repr

def Attachment.text? : Attachment → Option (List Char)
  | .absent => none
  | .joined text => some text
  | .assigned text => some text

inductive Word where
  /-- A word that names no option. -/
  | plain (text : List Char)
  /-- The two hyphens after which no word names an option. -/
  | divider
  | option (form : OptionForm) (attached : Attachment)
  /-- A word that looks like an option and is none. -/
  | unknown
  deriving DecidableEq, Repr

/-- Whether a text is a negative number without an exponent. -/
def isNegativeNumber (s : List Char) : Bool :=
  match s with
  | '-' :: r =>
    let whole := r.takeWhile fun c => (digitValue? c).isSome
    match r.drop whole.length with
    | [] => !whole.isEmpty
    | '.' :: f => !f.isEmpty && f.all fun c => (digitValue? c).isSome
    | _ => false
  | _ => false

def isLong (s : List Char) : Bool := startsWith s ['-', '-']

/-- The text before the first equals sign, and the text after it if there is one. -/
def atEquals (s : List Char) : List Char × Attachment :=
  let name := s.takeWhile (· != '=')
  match s.drop name.length with
  | [] => (name, .absent)
  | _ :: v => (name, .assigned v)

/-- The options that a word may stand for when it is not the full name of one. -/
def candidates (forms : List OptionForm) (s : List Char) : List Word :=
  if isLong s then
    let (start, attached) := atEquals s
    (forms.filter fun f => startsWith f.written start).map fun f => .option f attached
  else
    forms.filterMap fun f =>
      if f.written = s.take 2 then some (.option f (.joined (s.drop 2)))
      else if startsWith f.written s then some (.option f .absent)
      else none

/-- The option whose full name stands before an equals sign. -/
def namedAtEquals? (forms : List OptionForm) (s : List Char) : Option Word :=
  match atEquals s with
  | (_, .absent) => none
  | (name, v) => (forms.find? fun f => f.written == name).map fun f => .option f v

/-- A word that starts with a hyphen and is not the full name of an option; a start of several
names is refused. -/
def understand? (forms : List OptionForm) (s : List Char) : Option Word :=
  match namedAtEquals? forms s with
  | some w => some w
  | none =>
    match candidates forms s with
    | [w] => some w
    | _ :: _ :: _ => none
    | [] => some (if isNegativeNumber s || s.contains ' ' then .plain s else .unknown)

/-- A word as it is understood, unless it is a start of several names. -/
def Word.ofText? (forms : List OptionForm) (s : List Char) : Option Word :=
  match s with
  | '-' :: _ :: _ =>
    match forms.find? fun f => f.written == s with
    | some f => some (.option f .absent)
    | none => understand? forms s
  | _ => some (.plain s)

/-- The words as they are understood.  After the divider all words are plain. -/
def understandAll? (forms : List OptionForm) : List (List Char) → Option (List Word)
  | [] => some []
  | s :: r =>
    if s = ['-', '-'] then some (.divider :: r.map .plain)
    else do
      let w ← Word.ofText? forms s
      let ws ← understandAll? forms r
      return w :: ws

def nextValue? : List Word → Option (List Char × List Word)
  | .plain v :: r => some (v, r)
  | _ => none

/-- Whether the letters after one that asks for help are as they should be.  Each names an option,
up to one that names none or has a value; a value may be the next word. -/
def lettersFit (forms : List OptionForm) (rest : List Word) : List Char → Bool
  | [] => true
  | c :: cs =>
    match forms.find? fun f => f.written == ['-', c] with
    | none => c != '-'
    | some f =>
      match f.effect, cs with
      | .value _, [] => (nextValue? rest).isSome
      | .value _, _ => true
      | .help, '=' :: _ => false
      | .help, _ => lettersFit forms rest cs

/-- What an option at the front of the words comes to. -/
inductive Taken where
  | help
  | value (key : String) (text : List Char) (rest : List Word)
  | misused

/-- Takes an option with the value that stands in its word and the words that follow. -/
def take (forms : List OptionForm) (f : OptionForm) (attached : Attachment) (rest : List Word) :
    Taken :=
  match f.effect with
  | .value key =>
    match attached.text? with
    | some v => .value key v rest
    | none =>
      match nextValue? rest with
      | some (v, rest) => .value key v rest
      | none => .misused
  | .help =>
    match attached with
    | .absent => .help
    | .assigned _ => .misused
    | .joined v => if lettersFit forms rest v then .help else .misused

end BlockIndex.CommandLine
