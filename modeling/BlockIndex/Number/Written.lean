import BlockIndex.Number.Decimal

/-! Numbers as text, in two forms: the shortest text that reads back, with an exponent below `1e-04`
and from `1e+16` on; and a fixed number of places. -/

namespace BlockIndex.Double

/-- The texts of what is no finite number. -/
structure SpecialNames where
  nan : String
  infinite : String

/-- The names in lower case. -/
def plainNames : SpecialNames := ⟨"nan", "inf"⟩

/-- The names that a vector is written with. -/
def vectorNames : SpecialNames := ⟨"NaN", "Infinity"⟩

def signText (negative : Bool) : String := if negative then "-" else ""

/-- An exponent with its sign and at least two digits. -/
def exponentText (e : Int) : String :=
  (if e < 0 then "-" else "+") ++ (if e.natAbs < 10 then "0" else "") ++ toString e.natAbs

def zeros (n : Nat) : String := String.ofList (List.replicate n '0')

/-- Digits with a point after the first `before` of them; nothing follows a point at the end. -/
def pointed (digits : String) (before : Nat) : String :=
  let cs := digits.toList
  if cs.length ≤ before then digits
  else String.ofList (cs.take before) ++ "." ++ String.ofList (cs.drop before)

def shortestText (x : Decimal.Digits) : String :=
  let digits := toString x.digits
  let top : Int := digits.length + x.power
  if top < -3 ∨ 16 < top then pointed digits 1 ++ "e" ++ exponentText (top - 1)
  else if top ≤ 0 then "0." ++ zeros (-top).toNat ++ digits
  else if x.power ≥ 0 then digits ++ zeros x.power.toNat ++ ".0"
  else pointed digits top.toNat

/-- The shortest text that reads back as the number. -/
def shortest (names : SpecialNames) : Double → String
  | .nan => names.nan
  | .infinite s => signText s ++ names.infinite
  | .finite s m e =>
    signText s ++ (if m = 0 then "0.0" else shortestText (Decimal.shortest m e))

def fixed (places : Nat) : Double → String
  | .nan => plainNames.nan
  | .infinite s => signText s ++ plainNames.infinite
  | .finite s m e =>
    let digits := toString (Decimal.toPlaces m e places)
    let padded := zeros (places + 1 - digits.length) ++ digits
    signText s ++ pointed padded (padded.length - places)

end BlockIndex.Double
