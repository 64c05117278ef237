import BlockIndex.Text.Blank
import BlockIndex.Text.Punctuation

/-! Counting tokens.  A token is a punctuation mark, or a longest run of characters that are neither
blank nor punctuation marks. -/

namespace BlockIndex.Tokens

open Text

/-- The tokens of a text that start or end in it, where `inRun` says whether a run is open before
it: the open run is counted where it ends. -/
def countFrom (inRun : Bool) : List Char → Nat
  | [] => inRun.toNat
  | c :: r =>
    if isBlank c then inRun.toNat + countFrom false r
    else if isPunctuation c then inRun.toNat + 1 + countFrom false r
    else countFrom true r

def count (s : String) : Nat := countFrom false s.toList

end BlockIndex.Tokens
