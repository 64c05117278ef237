import BlockIndex.Json.Value
import BlockIndex.Number.Reading

/-! Reading JSON.  Besides the standard's values the words `NaN`, `Infinity` and `-Infinity` are
read as numbers.  A text that is no JSON is refused with a reason and a position. -/

namespace BlockIndex.Json

open Number

inductive Problem where
  | byteOrderMark
  | value
  | memberName
  | colon
  | comma
  | openText
  | control
  | escape
  | codePoint
  | extra
  | longNumber (digits : Nat)
  deriving DecidableEq, Repr

def Problem.message : Problem → String
  | .byteOrderMark => "Unexpected UTF-8 BOM (decode using utf-8-sig)"
  | .value => "Expecting value"
  | .memberName => "Expecting property name enclosed in double quotes"
  | .colon => "Expecting ':' delimiter"
  | .comma => "Expecting ',' delimiter"
  | .openText => "Unterminated string starting at"
  | .control => "Invalid control character at"
  | .escape => "Invalid \\escape"
  | .codePoint => "Invalid \\uXXXX escape"
  | .extra => "Extra data"
  | .longNumber digits =>
    "Exceeds the limit (" ++ toString maxDigits ++
      " digits) for integer string conversion: value has " ++ toString digits ++
      " digits; use sys.set_int_max_str_digits() to increase the limit"

/-- A reason with the position of the character to which it applies, counted from 0. -/
structure ReadError where
  problem : Problem
  position : Nat
  deriving DecidableEq, Repr

/-- The wording of a refusal, with the line and the column of the position. -/
def ReadError.message (e : ReadError) (s : List Char) : String :=
  match e.problem with
  | .longNumber _ => e.problem.message
  | _ =>
    let before := s.take e.position
    let line := before.count '\n' + 1
    let column := (before.reverse.takeWhile (· != '\n')).length + 1
    e.problem.message ++ ": line " ++ toString line ++ " column " ++ toString column ++ " (char " ++
      toString e.position ++ ")"

/-- A place in a text: its position and what follows. -/
structure Cursor where
  position : Nat
  rest : List Char

def Cursor.skip (c : Cursor) (n : Nat) : Cursor := ⟨c.position + n, c.rest.drop n⟩

def isSpace (c : Char) : Bool := c = ' ' || c = '\t' || c = '\n' || c = '\r'

def Cursor.pastSpaces (c : Cursor) : Cursor := c.skip (c.rest.takeWhile isSpace).length

def hexValue? (c : Char) : Option Nat :=
  if '0' ≤ c ∧ c ≤ '9' then some (c.toNat - 48)
  else if 'a' ≤ c ∧ c ≤ 'f' then some (c.toNat - 87)
  else if 'A' ≤ c ∧ c ≤ 'F' then some (c.toNat - 55)
  else none

/-- The number that four hexadecimal digits stand for. -/
def fourHex? : List Char → Option Nat
  | a :: b :: c :: d :: _ => do
    let a ← hexValue? a
    let b ← hexValue? b
    let c ← hexValue? c
    let d ← hexValue? d
    some (((a * 16 + b) * 16 + c) * 16 + d)
  | _ => none

def escaped? : Char → Option Char
  | '"' => some '"'
  | '\\' => some '\\'
  | '/' => some '/'
  | 'b' => some '\x08'
  | 'f' => some '\x0c'
  | 'n' => some '\n'
  | 'r' => some '\r'
  | 't' => some '\t'
  | _ => none

/-- The character of a code point; halves of pairs stand for no character. -/
def charOf (n : Nat) : Char := if n.isValidChar then Char.ofNat n else '\uFFFD'

/-- The character written with the four digits `digits`, which start at `c`, and the place after
it.  Two halves of a pair are one character. -/
def codePoint (c : Cursor) (n : Nat) : Except ReadError (Char × Cursor) :=
  let next := c.skip 4
  if 0xD800 ≤ n ∧ n < 0xDC00 then
    match next.rest with
    | '\\' :: 'u' :: r =>
      if r.length < 5 then .ok (charOf n, next)
      else
        match fourHex? r with
        | none => .error ⟨.codePoint, next.position + 1⟩
        | some m =>
          if 0xDC00 ≤ m ∧ m < 0xE000 then
            .ok (charOf (0x10000 + (n - 0xD800) * 0x400 + (m - 0xDC00)), next.skip 6)
          else .ok (charOf n, next)
    | _ => .ok (charOf n, next)
  else .ok (charOf n, next)

/-- The characters of a text in quotes that was opened at `start`, and the place after the closing
quote.  At most `fuel` characters are read. -/
def textFrom (start : Nat) : Nat → Cursor → Except ReadError (List Char × Cursor)
  | 0, _ => .error ⟨.openText, start⟩
  | fuel + 1, c =>
    match c.rest with
    | [] => .error ⟨.openText, start⟩
    | '"' :: _ => .ok ([], c.skip 1)
    | '\\' :: [] => .error ⟨.openText, start⟩
    | '\\' :: 'u' :: r =>
      if r.length < 5 then .error ⟨.codePoint, c.position + 1⟩
      else
        match fourHex? r with
        | none => .error ⟨.codePoint, c.position + 1⟩
        | some n => do
          let (x, next) ← codePoint (c.skip 2) n
          let (xs, last) ← textFrom start fuel next
          .ok (x :: xs, last)
    | '\\' :: e :: _ =>
      match escaped? e with
      | none => .error ⟨.escape, c.position⟩
      | some x => do
        let (xs, last) ← textFrom start fuel (c.skip 2)
        .ok (x :: xs, last)
    | x :: _ =>
      if x.toNat < 0x20 then .error ⟨.control, c.position⟩
      else do
        let (xs, last) ← textFrom start fuel (c.skip 1)
        .ok (x :: xs, last)

/-- A text whose opening quote is at the place. -/
def readText (c : Cursor) : Except ReadError (String × Cursor) := do
  let (s, next) ← textFrom c.position (c.rest.length + 1) (c.skip 1)
  .ok (String.ofList s, next)

def asciiDigits (s : List Char) : List Char := s.takeWhile Char.isDigit

def fractionChars : List Char → List Char
  | '.' :: s => if (asciiDigits s).isEmpty then [] else '.' :: asciiDigits s
  | _ => []

def exponentChars : List Char → List Char
  | e :: s =>
    if e = 'e' ∨ e = 'E' then
      let mark := match s with
        | '+' :: _ => ['+']
        | '-' :: _ => ['-']
        | _ => []
      let digits := asciiDigits (s.drop mark.length)
      if digits.isEmpty then [] else e :: mark ++ digits
    else []
  | [] => []

def readNumber (c : Cursor) : Except ReadError (Json × Cursor) :=
  let minus := if c.rest.head? = some '-' then ['-'] else []
  let s := c.rest.drop minus.length
  let digits := match s with
    | '0' :: _ => ['0']
    | _ => asciiDigits s
  if digits.isEmpty then .error ⟨.value, c.position⟩
  else
    let fraction := fractionChars (s.drop digits.length)
    let exponent := exponentChars (s.drop (digits.length + fraction.length))
    let all := minus ++ digits ++ fraction ++ exponent
    if fraction.isEmpty && exponent.isEmpty then
      match int? all with
      | some n => .ok (.whole n, c.skip all.length)
      | none => .error ⟨.longNumber digits.length, c.position⟩
    else .ok (.real ((double? all).getD .nan), c.skip all.length)

def words : List (String × Json) :=
  [("null", .null), ("true", .bool true), ("false", .bool false), ("NaN", .real .nan),
   ("Infinity", .real (.infinite false)), ("-Infinity", .real (.infinite true))]

mutual

def readValue : Nat → Cursor → Except ReadError (Json × Cursor)
  | 0, c => .error ⟨.value, c.position⟩
  | fuel + 1, c =>
    match c.rest with
    | '"' :: _ => do
      let (s, next) ← readText c
      .ok (.text s, next)
    | '[' :: _ =>
      let first := (c.skip 1).pastSpaces
      if first.rest.head? = some ']' then .ok (.array [], first.skip 1)
      else do
        let (xs, next) ← readElements fuel first
        .ok (.array xs, next)
    | '{' :: _ =>
      let first := (c.skip 1).pastSpaces
      if first.rest.head? = some '}' then .ok (.object [], first.skip 1)
      else do
        let (ms, next) ← readMembers fuel [] first
        .ok (.object ms, next)
    | _ =>
      match words.find? fun w => w.1.toList.isPrefixOf c.rest with
      | some w => .ok (w.2, c.skip w.1.length)
      | none => readNumber c

/-- The elements of an array from a place on, and the place after the closing bracket. -/
def readElements : Nat → Cursor → Except ReadError (List Json × Cursor)
  | 0, c => .error ⟨.value, c.position⟩
  | fuel + 1, c => do
    let (x, next) ← readValue fuel c
    let next := next.pastSpaces
    match next.rest with
    | ']' :: _ => .ok ([x], next.skip 1)
    | ',' :: _ =>
      let (xs, last) ← readElements fuel (next.skip 1).pastSpaces
      .ok (x :: xs, last)
    | _ => .error ⟨.comma, next.position⟩

/-- The members of an object from a place on, added to those already read, and the place after the
closing brace. -/
def readMembers : Nat → List (String × Json) → Cursor →
    Except ReadError (List (String × Json) × Cursor)
  | 0, _, c => .error ⟨.value, c.position⟩
  | fuel + 1, ms, c =>
    if c.rest.head? = some '"' then do
      let (name, next) ← readText c
      let next := next.pastSpaces
      if next.rest.head? = some ':' then
        let (x, next) ← readValue fuel (next.skip 1).pastSpaces
        let next := next.pastSpaces
        match next.rest with
        | '}' :: _ => .ok (setMember name x ms, next.skip 1)
        | ',' :: _ => readMembers fuel (setMember name x ms) (next.skip 1).pastSpaces
        | _ => .error ⟨.comma, next.position⟩
      else .error ⟨.colon, next.position⟩
    else .error ⟨.memberName, c.position⟩

end

def read (s : List Char) : Except ReadError Json :=
  if s.head? = some '\uFEFF' then .error ⟨.byteOrderMark, 0⟩
  else do
    let (x, next) ← readValue (2 * s.length + 2) (Cursor.pastSpaces ⟨0, s⟩)
    let next := next.pastSpaces
    if next.rest.isEmpty then .ok x else .error ⟨.extra, next.position⟩

end BlockIndex.Json
