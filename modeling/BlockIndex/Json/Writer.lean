import BlockIndex.Json.Value
import BlockIndex.Number.Written
import BlockIndex.Text.Quoted

/-! Writing JSON without spaces.  Numbers in binary are written with the fewest digits that read
back. -/

namespace BlockIndex.Json

/-- A character as it stands between quotes. -/
def quotedChar (c : Char) : List Char :=
  if c = '"' ∨ c = '\\' then ['\\', c]
  else if c.toNat < 0x20 then '\\' :: 'u' :: Text.hexDigits 4 c.toNat
  else [c]

def quotedText (s : String) : List Char := '"' :: s.toList.flatMap quotedChar ++ ['"']

mutual

def write : Json → List Char
  | .null => "null".toList
  | .bool b => (if b then "true" else "false").toList
  | .whole n => (toString n).toList
  | .real x => (x.shortest Double.vectorNames).toList
  | .text s => quotedText s
  | .array xs => '[' :: writeElements xs ++ [']']
  | .object ms => '\x7b' :: writeMembers ms ++ ['\x7d']

def writeElements : List Json → List Char
  | [] => []
  | [x] => write x
  | x :: xs => write x ++ ',' :: writeElements xs

def writeMembers : List (String × Json) → List Char
  | [] => []
  | [(name, x)] => quotedText name ++ ':' :: write x
  | (name, x) :: ms => quotedText name ++ ':' :: write x ++ ',' :: writeMembers ms

end

end BlockIndex.Json
