/-! Numbers in binary with 53 significant bits.  A finite number is a mantissa times a power of two.
Each operation is the exact one followed by rounding to the nearest number, a tie going to the even
mantissa; what is too large becomes infinite. -/

namespace BlockIndex

/-- A number in binary with 53 significant bits. -/
inductive Double where
  | nan
  | infinite (negative : Bool)
  /-- The mantissa, below `2 ^ 53`, times two to the power of the exponent. -/
  | finite (negative : Bool) (mantissa : Nat) (exponent : Int)
  deriving DecidableEq, Repr

/-- The quotient rounded to the nearest whole number, a tie to the even one. -/
def roundDiv (n d : Nat) : Nat :=
  let q := n / d
  let r := n % d
  if 2 * r < d || (2 * r == d && q % 2 == 0) then q else q + 1

namespace Double

def minExponent : Int := -1074

def maxExponent : Int := 971

def zero : Double := .finite false 0 minExponent

/-- Numerator and denominator of a quotient divided by a power of two. -/
def unscaled (n d : Nat) (exponent : Int) : Nat × Nat :=
  if exponent ≥ 0 then (n, d * Nat.pow 2 exponent.toNat) else (n * Nat.pow 2 (-exponent).toNat, d)

/-- The exponent with which a positive quotient has 53 bits before the point, or the least one. -/
def exponentFor (n d : Nat) : Int :=
  let guess : Int := (Nat.log2 n : Int) - Nat.log2 d - 52
  let u := unscaled n d guess
  max minExponent (if u.1 / u.2 < Nat.pow 2 52 then guess - 1 else guess)

/-- The number nearest to a quotient. -/
def ofRatio (negative : Bool) (n d : Nat) : Double :=
  if n = 0 then .finite negative 0 minExponent
  else
    let e := exponentFor n d
    let u := unscaled n d e
    let m := roundDiv u.1 u.2
    if m < Nat.pow 2 53 then
      if e ≤ maxExponent then .finite negative m e else .infinite negative
    else if e + 1 ≤ maxExponent then .finite negative (Nat.pow 2 52) (e + 1)
    else .infinite negative

/-- The number nearest to a whole number times a power of two. -/
def ofScaled (negative : Bool) (m : Nat) (exponent : Int) : Double :=
  if exponent ≥ 0 then ofRatio negative (m * Nat.pow 2 exponent.toNat) 1
  else ofRatio negative m (Nat.pow 2 (-exponent).toNat)

/-- The number nearest to a whole number. -/
def ofInt (n : Int) : Double := ofRatio (n < 0) n.natAbs 1

/-- The number nearest to a whole number, unless that is too large. -/
def ofInt? (n : Int) : Option Double :=
  match ofInt n with
  | .infinite _ => none
  | x => some x

def neg : Double → Double
  | .nan => .nan
  | .infinite s => .infinite (!s)
  | .finite s m e => .finite (!s) m e

/-- A finite number as a whole number of units of `2 ^ unit`, for a unit not above its exponent. -/
def inUnits (negative : Bool) (m : Nat) (exponent unit : Int) : Int :=
  let n : Int := (m * Nat.pow 2 (exponent - unit).toNat : Nat)
  if negative then -n else n

def add : Double → Double → Double
  | .nan, _ => .nan
  | _, .nan => .nan
  | .infinite s, .infinite t => if s = t then .infinite s else .nan
  | .infinite s, _ => .infinite s
  | _, .infinite t => .infinite t
  | .finite s m e, .finite t n f =>
    let unit := min e f
    let sum := inUnits s m e unit + inUnits t n f unit
    if sum = 0 then .finite (s && t) 0 minExponent else ofScaled (sum < 0) sum.natAbs unit

def sub (x y : Double) : Double := x.add y.neg

def mul : Double → Double → Double
  | .nan, _ => .nan
  | _, .nan => .nan
  | .infinite s, .infinite t => .infinite (s != t)
  | .infinite s, .finite t n _ => if n = 0 then .nan else .infinite (s != t)
  | .finite s m _, .infinite t => if m = 0 then .nan else .infinite (s != t)
  | .finite s m e, .finite t n f => ofScaled (s != t) (m * n) (e + f)

def div : Double → Double → Double
  | .nan, _ => .nan
  | _, .nan => .nan
  | .infinite _, .infinite _ => .nan
  | .infinite s, .finite t _ _ => .infinite (s != t)
  | .finite s _ _, .infinite t => .finite (s != t) 0 minExponent
  | .finite s m e, .finite t n f =>
    if n = 0 then (if m = 0 then .nan else .infinite (s != t))
    else if e ≥ f then ofRatio (s != t) (m * Nat.pow 2 (e - f).toNat) n
    else ofRatio (s != t) m (n * Nat.pow 2 (f - e).toNat)

/-- The greatest number below `2 ^ bits` added to `root` whose square is at most `n`, bit by bit. -/
def rootFrom (n : Nat) : Nat → Nat → Nat
  | 0, root => root
  | bits + 1, root =>
    let next := root + Nat.pow 2 bits
    rootFrom n bits (if next * next ≤ n then next else root)

/-- The square root.  The mantissa is widened until its root has more bits than are kept; a
remainder is marked by one more bit, so that it rounds as the exact root does. -/
def sqrt : Double → Double
  | .nan => .nan
  | .infinite s => if s then .nan else .infinite false
  | .finite s m e =>
    if m = 0 then .finite s m e
    else if s then .nan
    else
      let odd := (e % 2).toNat
      let wide := m * Nat.pow 2 (120 + odd)
      let root := rootFrom wide 90 0
      let exponent := (e - 120 - odd) / 2
      if root * root = wide then ofScaled false root exponent
      else ofScaled false (2 * root + 1) (exponent - 1)

def isZero : Double → Bool
  | .finite _ m _ => m == 0
  | _ => false

def less : Double → Double → Bool
  | .nan, _ => false
  | _, .nan => false
  | .infinite s, .infinite t => s && !t
  | .infinite s, _ => s
  | _, .infinite t => !t
  | .finite s m e, .finite t n f =>
    let unit := min e f
    decide (inUnits s m e unit < inUnits t n f unit)

end Double

end BlockIndex
