/-! File name patterns.  A star stands for any text, a question mark for any character, and a class in
brackets for one of its characters or, after an exclamation mark, for any other; all else stands
for itself.  A class may hold ranges; a range whose ends are in the wrong order holds nothing.  A
bracket that is never closed stands for itself. -/

namespace BlockIndex.Glob

inductive Item where
  | star
  | any
  | char (c : Char)
  /-- One of the characters in the ranges, or one that is in none of them. -/
  | set (negated : Bool) (ranges : List (Char × Char))
  deriving DecidableEq, Repr

def Item.accepts : Item → Char → Bool
  | .star, _ => false
  | .any, _ => true
  | .char a, c => a == c
  | .set negated ranges, c =>
    (ranges.any fun r => decide (r.1.toNat ≤ c.toNat) && decide (c.toNat ≤ r.2.toNat)) != negated

/-- The ranges of the text of a class.  A hyphen makes a range if characters stand on both sides of
it that belong to no other range. -/
def rangesOf : List Char → List (Char × Char)
  | [] => []
  | lo :: '-' :: hi :: r => (lo, hi) :: rangesOf r
  | c :: r => (c, c) :: rangesOf r

/-- The text of a class after its opening bracket, up to the closing one, which is not the first
character. -/
def classText? (s : List Char) : Option (List Char) :=
  let lead := match s with
    | '!' :: ']' :: _ => 2
    | '!' :: _ => 1
    | ']' :: _ => 1
    | _ => 0
  let body := (s.drop lead).takeWhile (· != ']')
  if lead + body.length < s.length then some (s.take lead ++ body) else none

def itemOfClass : List Char → Item
  | '!' :: s => .set true (rangesOf s)
  | s => .set false (rangesOf s)

/-- The parts of a pattern of at most `n` characters. -/
def parseFrom : Nat → List Char → List Item
  | 0, _ => []
  | _, [] => []
  | n + 1, c :: r =>
    if c = '*' then .star :: parseFrom n r
    else if c = '?' then .any :: parseFrom n r
    else if c = '[' then
      match classText? r with
      | some s => itemOfClass s :: parseFrom n (r.drop (s.length + 1))
      | none => .char '[' :: parseFrom n r
    else .char c :: parseFrom n r

def parse (s : List Char) : List Item := parseFrom s.length s

/-- For each position, whether one of the flags from there on is set. -/
def anyFrom : List Bool → List Bool
  | [] => []
  | b :: bs =>
    let later := anyFrom bs
    (b || later.headD false) :: later

/-- For each position of a text, whether a part that stands for one character stands for the
character there and the flag of the next position is set. -/
def shift (item : Item) : List Char → List Bool → List Bool
  | c :: s, _ :: bs => (item.accepts c && bs.headD false) :: shift item s bs
  | _, _ => [false]

/-- For each position of a text, its end included, whether the parts stand for what follows it. -/
def matchesFrom (s : List Char) : List Item → List Bool
  | [] => List.replicate s.length false ++ [true]
  | .star :: items => anyFrom (matchesFrom s items)
  | item :: items => shift item s (matchesFrom s items)

def fits (pattern text : List Char) : Bool :=
  (matchesFrom text (parse pattern)).headD false

end BlockIndex.Glob
