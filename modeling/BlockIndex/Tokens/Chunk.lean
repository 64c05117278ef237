import BlockIndex.Tokens.Count
import BlockIndex.Text.Lines

/-! Dividing lines into chunks under a token limit.  A chunk takes the next line while the tokens of
its lines stay within the limit; a line that is over the limit by itself stands alone. -/

namespace BlockIndex.Tokens

/-- The chunks of the remaining lines, where `current` holds the lines of the open chunk and
`tokens` their tokens. -/
def divideFrom (limit : Int) (current : List String) (tokens : Nat) :
    List String → List (List String)
  | [] => if current.isEmpty then [] else [current]
  | l :: ls =>
    if !current.isEmpty && decide (limit < ((tokens + count l : Nat) : Int)) then
      current :: divideFrom limit [l] (count l) ls
    else divideFrom limit (current ++ [l]) (tokens + count l) ls

def divide (limit : Int) (ls : List String) : List (List String) := divideFrom limit [] 0 ls

/-- A chunk with the numbers of its first and last line, counted from 1. -/
structure Chunk where
  first : Nat
  last : Nat
  text : String

/-- The chunks with their line numbers, where `before` lines come before them. -/
def number (before : Nat) : List (List String) → List Chunk
  | [] => []
  | c :: cs => ⟨before + 1, before + c.length, Text.joinLines c⟩ :: number (before + c.length) cs

def chunks (limit : Int) (ls : List String) : List Chunk := number 0 (divide limit ls)

end BlockIndex.Tokens
