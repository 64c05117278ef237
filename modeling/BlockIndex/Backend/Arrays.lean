import BlockIndex.Embedding.Magnitude

/-! A library of arrays.  Sums are taken in a fixed order: eight running sums for up to 128 terms, and
halves for more. -/

namespace BlockIndex.Backend.Arrays

/-- Every eighth term is added to its running sum, from the left. -/
def addEight (sums : List Double) (terms : List Double) : List Double :=
  List.zipWith Double.add sums terms

/-- The running sums after `n` more groups of eight terms. -/
def runningSums : Nat → List Double → List Double → List Double
  | 0, sums, _ => sums
  | n + 1, sums, terms => runningSums n (addEight sums (terms.take 8)) (terms.drop 8)

def addNeighbours : List Double → List Double
  | x :: y :: r => x.add y :: addNeighbours r
  | r => r

/-- The sum of the terms from the left. -/
def sumLeft (start : Double) (terms : List Double) : Double := terms.foldl Double.add start

/-- The sum of at most 128 terms. -/
def sumShort (terms : List Double) : Double :=
  if terms.length < 8 then sumLeft .zero terms
  else
    let whole := terms.length / 8
    let sums := runningSums (whole - 1) (terms.take 8) (terms.drop 8)
    let total := (addNeighbours (addNeighbours (addNeighbours sums))).headD .zero
    sumLeft total (terms.drop (8 * whole))

/-- The sum of the terms.  More than 128 are divided in halves, the first one of a length that
eight divides; the halving is repeated at most `n` times. -/
def sumFrom : Nat → List Double → Double
  | 0, terms => sumShort terms
  | n + 1, terms =>
    if terms.length ≤ 128 then sumShort terms
    else
      let half := terms.length / 2 - terms.length / 2 % 8
      (sumFrom n (terms.take half)).add (sumFrom n (terms.drop half))

def sum (terms : List Double) : Double := sumFrom terms.length terms

/-- The Euclidean length of a vector. -/
def length (v : List Double) : Double := (sum (v.map fun x => x.mul x)).sqrt

def mean (terms : List Double) : Double := (sum terms).div (Double.ofInt terms.length)

/-- The standard deviation of the terms as a whole population. -/
def deviation (terms : List Double) : Double :=
  let m := mean terms
  (mean (terms.map fun x => (x.sub m).mul (x.sub m))).sqrt

/-- The rows of a table, if they have one length and none of their numbers is too large. -/
def table (vs : List Vector) : Except Magnitude.Problem (List (List Double)) :=
  if vs.any fun w => w.length != (vs.headD []).length then .error (.ragged vs.length)
  else
    match vs.mapM fun w => w.mapM Scalar.toDouble? with
    | none => .error .overflow
    | some rows => .ok rows

def library : Magnitude.Arrays where
  table := table
  lengths rows := rows.map length
  mean := mean
  deviation := deviation

end BlockIndex.Backend.Arrays
