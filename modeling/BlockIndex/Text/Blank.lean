import BlockIndex.Text.CharSet

/-! Blank characters: the separators of lines, paragraphs and words, the no-break spaces, and the
control characters that end or divide lines.  `strip` removes them from both ends of a text. -/

namespace BlockIndex.Text

def blanks : CharSet where
  ranges := [(0x0009, 0x000D), (0x001C, 0x0020), (0x0085, 0x0085), (0x00A0, 0x00A0), (0x1680, 0x1680),
  (0x2000, 0x200A), (0x2028, 0x2029), (0x202F, 0x202F), (0x205F, 0x205F), (0x3000, 0x3000)]

def isBlank (c : Char) : Bool := blanks.contains c

def stripLeft (s : List Char) : List Char := s.dropWhile isBlank

def stripRight (s : List Char) : List Char := (s.reverse.dropWhile isBlank).reverse

def strip (s : List Char) : List Char := stripRight (stripLeft s)

def allBlank (s : List Char) : Bool := s.all isBlank

theorem stripLeft_eq_nil_iff {s : List Char} : stripLeft s = [] ↔ allBlank s = true := by
  induction s with
  | nil => simp [stripLeft, allBlank]
  | cons c r ih =>
    by_cases h : isBlank c = true <;> simp_all [stripLeft, allBlank]

end BlockIndex.Text
