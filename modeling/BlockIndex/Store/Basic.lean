import BlockIndex.Block.Basic
import BlockIndex.Embedding.Vector

/-! The store of blocks.  Its rows hold blocks with their vectors and have numbers that grow and are
never given twice; beside the rows it holds one fingerprint for each file.  Two rows never hold
blocks of one identity, where a missing name counts as an empty one. -/

namespace BlockIndex

/-- The identity with empty names in place of missing ones. -/
def Identity.folded (i : Identity) : Identity :=
  { i with className := some (i.className.getD ""), name := some (i.name.getD "") }

structure Row where
  id : Nat
  block : Block
  /-- The vector, if one was ever stored. -/
  vector : Option Vector
  /-- The text for which the vector is asked. -/
  text : String
  createdAt : Option String
  deriving DecidableEq, Repr

/-- The vector of a row, empty if there is none. -/
def Row.components (r : Row) : Vector := r.vector.getD []

/-- Whether a row has a vector that is not empty. -/
def Row.hasVector (r : Row) : Bool := !r.components.isEmpty

/-- Whether a row still waits for its vector. -/
def Row.isPending (r : Row) : Bool := r.vector.isNone

structure Store where
  /-- The rows in the order of their numbers. -/
  rows : List Row := []
  /-- The fingerprints in the order of their paths. -/
  fingerprints : List (String × String) := []
  /-- The greatest number that was ever given to a row. -/
  lastId : Nat := 0
  isClosed : Bool := false
  /-- The time that is noted for new rows. -/
  now : Option String := none
  deriving DecidableEq, Repr

namespace Store

def fingerprint? (s : Store) (path : String) : Option String := s.fingerprints.lookup path

/-- Fingerprints in the order of their paths with one more, which takes the place of an earlier one
of the same path. -/
def putFingerprint (path text : String) : List (String × String) → List (String × String)
  | [] => [(path, text)]
  | e :: es =>
    if e.1 = path then (path, text) :: es
    else if path < e.1 then (path, text) :: e :: es
    else e :: putFingerprint path text es

def setFingerprint (s : Store) (path text : String) : Store :=
  { s with fingerprints := putFingerprint path text s.fingerprints }

def dropFingerprint (s : Store) (path : String) : Store :=
  { s with fingerprints := s.fingerprints.filter fun e => e.1 != path }

def tracked (s : Store) : List String := s.fingerprints.map (·.1)

/-- The rows of a file, given by the path that is shown for it. -/
def rowsOf (s : Store) (path : String) : List Row :=
  s.rows.filter fun r => r.block.relativePath == some path

/-- The store without the rows of a file. -/
def deleteBlocks (s : Store) (path : String) : Store :=
  { s with rows := s.rows.filter fun r => r.block.relativePath != some path }

/-- Whether a block is stored; a missing name is not an empty one. -/
def holds (s : Store) (b : Block) : Bool := s.rows.any fun r => r.block.identity == b.identity

/-- Whether a block has the place of a stored one; a missing name is an empty one. -/
def isTaken (s : Store) (b : Block) : Bool :=
  s.rows.any fun r => r.block.identity.folded == b.identity.folded

/-- The row of a block.  Its path in the tree is the one that is shown; an empty vector is none. -/
def newRow (s : Store) (b : Block) (vector : Option Vector) (text : String) : Row where
  id := s.lastId + 1
  block := { b with relativePath := some b.displayPath }
  vector := vector.filter fun v => !v.isEmpty
  text := text
  createdAt := s.now

/-- The number of a new row for a block, and the store with it, unless the block's place is
taken. -/
def save? (s : Store) (b : Block) (vector : Option Vector) (text : String) : Option (Nat × Store) :=
  if s.isTaken b then none
  else some (s.lastId + 1,
    { s with rows := s.rows ++ [s.newRow b vector text], lastId := s.lastId + 1 })

/-- The store with a vector in the row of a number, if there is such a row. -/
def setVector? (s : Store) (id : Int) (v : Vector) : Option Store :=
  if s.rows.any fun r => (r.id : Int) == id then
    some { s with rows := s.rows.map fun r => if (r.id : Int) = id then { r with vector := some v }
      else r }
  else none

def pending (s : Store) : List Row := s.rows.filter (·.isPending)

def vectors (s : Store) : List Vector := s.rows.filterMap (·.vector)

def restamp (s : Store) (time : Option String) : Store :=
  { s with rows := s.rows.map fun r => { r with createdAt := time } }

theorem lookup_putFingerprint (path text : String) (es : List (String × String)) :
    (putFingerprint path text es).lookup path = some text := by
  induction es with
  | nil => simp [putFingerprint]
  | cons e es ih =>
    obtain ⟨p, t⟩ := e
    by_cases h : p = path
    · simp [putFingerprint, h]
    · have : (path == p) = false := by simpa using fun e => h e.symm
      by_cases lt : path < p <;> simp [putFingerprint, h, lt, List.lookup_cons, this, ih]

theorem fingerprint?_setFingerprint (s : Store) (path text : String) :
    (s.setFingerprint path text).fingerprint? path = some text :=
  lookup_putFingerprint path text s.fingerprints

end Store

end BlockIndex
