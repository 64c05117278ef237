import BlockIndex.Glob.Basic
import BlockIndex.Text.Blank
import BlockIndex.Text.Lines

/-! Ignore patterns.  A pattern covers a path if it is a glob of the whole path or of its last name, if
the path lies below it, or if it is one of the names on the path.  A pattern that ends with a slash
covers only what is or lies in a directory. -/

namespace BlockIndex.Ignore

open Text

/-- A pattern without the slashes at its ends. -/
structure Pattern where
  body : List Char
  directoriesOnly : Bool
  deriving DecidableEq, Repr

def Pattern.ofChars (s : List Char) : Pattern :=
  let s := s.dropWhile (· = '/')
  ⟨(s.reverse.dropWhile (· = '/')).reverse, endsWith s ['/']⟩

/-- Whether a pattern covers a path whose names are separated by slashes. -/
def Pattern.covers (p : Pattern) (path : List Char) (isDirectory : Bool) : Bool :=
  let names := splitAt '/' path
  let directories := if isDirectory then names else names.dropLast
  let below := startsWith path (p.body ++ ['/'])
  if p.body.isEmpty then false
  else if p.directoriesOnly then below || directories.any (Glob.fits p.body)
  else
    Glob.fits p.body path || Glob.fits p.body (names.getLast?.getD []) || below ||
      names.contains p.body

def covers (pattern path : String) (isDirectory : Bool) : Bool :=
  (Pattern.ofChars pattern.toList).covers path.toList isDirectory

/-- The patterns of an ignore file: its lines without blank characters around them, but for empty
lines, comments and exceptions. -/
def patternsOf (content : List Char) : List String :=
  ((lineChars content).map strip).filterMap fun l =>
    match l with
    | [] => none
    | '#' :: _ => none
    | '!' :: _ => none
    | _ => some (String.ofList l)

end BlockIndex.Ignore
