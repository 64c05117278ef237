import BlockIndex.Number.Written

/-! Embedding vectors.  A vector is a list of whole numbers and numbers in binary; it is written with
brackets and commas. -/

namespace BlockIndex

inductive Scalar where
  | whole (n : Int)
  | real (x : Double)
  deriving DecidableEq, Repr

def Scalar.toText : Scalar → String
  | .whole n => toString n
  | .real x => x.shortest Double.vectorNames

def Scalar.toDouble? : Scalar → Option Double
  | .whole n => Double.ofInt? n
  | .real x => some x

abbrev Vector := List Scalar

namespace Vector

def ofDoubles (xs : List Double) : Vector := xs.map .real

def toText (v : Vector) : String := "[" ++ ", ".intercalate (v.map Scalar.toText) ++ "]"

end Vector

end BlockIndex
