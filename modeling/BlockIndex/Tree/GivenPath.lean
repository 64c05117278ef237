import BlockIndex.Text.Quoted

/-! Paths as a file system gives them.  The name of a file is bytes.  Those that make up characters are
read as characters, and every other byte stands for itself; so a path may be no text. -/

namespace BlockIndex

inductive PathUnit where
  | char (c : Char)
  /-- A byte that belongs to no character. -/
  | byte (b : UInt8)
  deriving DecidableEq, Repr

abbrev GivenPath := List PathUnit

namespace PathUnit

def char? : PathUnit → Option Char
  | char c => some c
  | byte _ => none

/-- A unit as it is shown; a byte is shown by its number. -/
def shown : PathUnit → List Char
  | char c => [c]
  | byte b => '\\' :: 'u' :: Text.hexDigits 4 (0xDC00 + b.toNat)

end PathUnit

namespace GivenPath

def ofText (s : String) : GivenPath := s.toList.map .char

/-- The text of a path that is one. -/
def text? (p : GivenPath) : Option String := (p.mapM PathUnit.char?).map String.ofList

def shown (p : GivenPath) : String := String.ofList (p.flatMap PathUnit.shown)

end GivenPath

/-- Why a file whose path is no text cannot be read. -/
inductive RawError where
  /-- The path holds the character that ends a name. -/
  | badName
  /-- A refusal in the words of the system. -/
  | refused (text : String)
  deriving DecidableEq, Repr

/-- What files hold whose paths are no texts. -/
abbrev RawFiles := GivenPath → Except RawError (List UInt8)

end BlockIndex
