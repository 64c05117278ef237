/-! Patterns for the first line of a declaration.  A pattern reads characters from the front of a
line.  Where it can go on in several ways, the ways come in order of preference: the first
alternative before the second, more repetitions before fewer.  One part of a pattern can be marked
as the name of what is declared. -/

namespace BlockIndex.Header

inductive Pattern where
  | empty
  | one (accepts : Char → Bool)
  | seq (p q : Pattern)
  /-- Reads one of two patterns, preferably the first. -/
  | alt (p q : Pattern)
  /-- Reads a pattern any number of times, preferably often. -/
  | many (p : Pattern)
  /-- Reads a pattern and takes what it reads as the name. -/
  | named (p : Pattern)
  /-- Reads nothing, where no character of the class follows. -/
  | notBefore (stops : Char → Bool)

/-- A name where it stands, with all that comes after it. -/
structure Named where
  text : List Char
  after : List Char
  deriving DecidableEq

/-- How far a pattern has come: the name, if it has been read, and what is left. -/
structure Reading where
  name : Option Named
  rest : List Char
  deriving DecidableEq

/-- The ways to repeat a step at most `n` times, the longest first, followed by `tail`. -/
def repeatOnto (step : Reading → List Reading) : Nat → Reading → List Reading → List Reading
  | 0, s, tail => s :: tail
  | n + 1, s, tail => (step s).foldr (fun r t => repeatOnto step n r t) (s :: tail)

namespace Pattern

/-- The ways to read a pattern, the preferred one first. -/
def readings : Pattern → Reading → List Reading
  | .empty, s => [s]
  | .one accepts, s =>
    match s.rest with
    | [] => []
    | c :: r => if accepts c then [⟨s.name, r⟩] else []
  | .seq p q, s => (p.readings s).flatMap q.readings
  | .alt p q, s => p.readings s ++ q.readings s
  | .many p, s => repeatOnto p.readings s.rest.length s []
  | .named p, s =>
    (p.readings s).map fun r =>
      ⟨some ⟨s.rest.take (s.rest.length - r.rest.length), r.rest⟩, r.rest⟩
  | .notBefore stops, s =>
    match s.rest with
    | [] => [s]
    | c :: _ => if stops c then [] else [s]

def sequence : List Pattern → Pattern
  | [] => .empty
  | [p] => p
  | p :: ps => .seq p (sequence ps)

/-- One of the patterns, preferably the first. -/
def choice (p : Pattern) : List Pattern → Pattern
  | [] => p
  | q :: qs => .alt p (choice q qs)

/-- The pattern, preferably, or nothing. -/
def optional (p : Pattern) : Pattern := .alt p .empty

def several (p : Pattern) : Pattern := .seq p (.many p)

def char (c : Char) : Pattern := .one (· == c)

def literal (s : String) : Pattern := sequence (s.toList.map char)

def read? (p : Pattern) (line : List Char) : Option Reading := (p.readings ⟨none, line⟩).head?

/-- The name that a pattern reads, where it stands in the line. -/
def named? (p : Pattern) (line : List Char) : Option Named := (p.read? line).bind Reading.name

def name? (p : Pattern) (line : List Char) : Option String :=
  (p.named? line).map fun n => String.ofList n.text

end Pattern

end BlockIndex.Header
