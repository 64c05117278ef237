import BlockIndex.Text.Blank
import BlockIndex.Text.Lines

/-! Where the body of a declaration ends.  A body is delimited by braces, by indentation, or, for an
expression, by a semicolon or a blank line.  Braces are counted wherever they stand, also inside
string literals and comments.  Lines are counted from 0 here. -/

namespace BlockIndex.Body

open Text

def indentation (line : String) : Nat :=
  (line.toList.takeWhile fun c => c = ' ' || c = '\t').length

def slice (ls : List String) (first last : Nat) : String :=
  joinLines ((ls.drop first).take (last + 1 - first))

/-- The braces seen so far: how many more were opened than closed, and whether any was opened. -/
structure Braces where
  depth : Int
  opened : Bool

/-- The braces after the characters of a line, or `none` if the body ends among them: at a closing
brace, some brace having been opened, that leaves none open. -/
def Braces.pass (b : Braces) : List Char → Option Braces
  | [] => some b
  | c :: r =>
    if c = '{' then Braces.pass ⟨b.depth + 1, true⟩ r
    else if c = '}' then
      if b.opened && decide (b.depth - 1 ≤ 0) then none else Braces.pass ⟨b.depth - 1, b.opened⟩ r
    else Braces.pass b r

/-- How many lines come before the line in which the body ends. -/
def linesBeforeClose (b : Braces) : List String → Option Nat
  | [] => none
  | l :: ls =>
    match b.pass l.toList with
    | none => some 0
    | some b' => (linesBeforeClose b' ls).map (· + 1)

/-- The last line of the body in braces of the declaration in line `start`: the line of the brace
that closes it, the last line of the file if none does, and the line itself if no brace follows. -/
def bracedEnd (ls : List String) (start : Nat) : Nat :=
  match linesBeforeClose ⟨0, false⟩ (ls.drop start) with
  | some n => start + n
  | none => if (ls.drop start).any (·.toList.contains '{') then ls.length - 1 else start

/-- The number of the lines that belong to an indented body.  A blank line belongs to it only if
a line of the body follows. -/
def indentedLength (base : Int) : List String → Nat
  | [] => 0
  | l :: ls =>
    if allBlank l.toList then
      if indentedLength base ls = 0 then 0 else indentedLength base ls + 1
    else if (indentation l : Int) ≤ base then 0
    else indentedLength base ls + 1

/-- The last line of the body of the declaration in line `start`: the last one before the first
line that is not blank and not indented deeper than `base`, blank lines at the end left out. -/
def indentedEnd (ls : List String) (start : Nat) (base : Int) : Nat :=
  start + indentedLength base (ls.drop (start + 1))

/-- The number of lines of an expression: up to a line that ends with a semicolon or the line
before a blank one. -/
def expressionLength : List String → Nat
  | [] => 0
  | l :: ls =>
    if allBlank l.toList then 0
    else if endsWith (strip l.toList) [';'] then 1
    else expressionLength ls + 1

def expressionEnd (ls : List String) (start : Nat) : Nat :=
  start + (expressionLength (ls.drop start) - 1)

/-- How the body of a declaration is delimited. -/
inductive Rule where
  | none
  | braced
  | indented
  | expression
  deriving DecidableEq, Repr

def Rule.finish (rule : Rule) (ls : List String) (start : Nat) : Nat :=
  match rule with
  | .none => start
  | .braced => bracedEnd ls start
  | .indented => indentedEnd ls start ((ls[start]?.map fun l => (indentation l : Int)).getD 0)
  | .expression => expressionEnd ls start

end BlockIndex.Body
