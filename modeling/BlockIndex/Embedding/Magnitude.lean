import BlockIndex.Embedding.Vector

/-! Statistics of a set of vectors: their common dimension, and the mean and the standard deviation of
their Euclidean lengths.  Tables of numbers are the work of a library; `Arrays` holds what is used of
it. -/

namespace BlockIndex.Magnitude

inductive Problem where
  /-- The vectors have different dimensions. -/
  | ragged (count : Nat)
  | overflow
  deriving DecidableEq, Repr

def Problem.message : Problem → String
  | .ragged count =>
    "setting an array element with a sequence. The requested array has an inhomogeneous shape " ++
      "after 1 dimensions. The detected shape was (" ++ toString count ++
      ",) + inhomogeneous part."
  | .overflow => "int too large to convert to float"

/-- What is used of a library for tables of numbers. -/
structure Arrays where
  /-- The table whose rows are the vectors. -/
  table : List Vector → Except Problem (List (List Double))
  /-- The Euclidean lengths of the rows of a table. -/
  lengths : List (List Double) → List Double
  mean : List Double → Double
  /-- The standard deviation of numbers as a whole population. -/
  deviation : List Double → Double

structure Summary where
  count : Nat
  dimensions : Nat
  mean : Double
  deviation : Double
  deriving DecidableEq, Repr

/-- The statistics of vectors; there are none without vectors. -/
def summary (a : Arrays) (vs : List Vector) : Except Problem (Option Summary) :=
  if vs.isEmpty then .ok none
  else
    match a.table vs with
    | .error e => .error e
    | .ok rows =>
      let lengths := a.lengths rows
      .ok (some ⟨vs.length, (rows.headD []).length, a.mean lengths, a.deviation lengths⟩)

end BlockIndex.Magnitude
