import BlockIndex.Number.Double

/-! Numbers in decimal.  `shortest` gives the fewest digits that read back as the same number, and of
those the nearest.  `toPlaces` rounds to a number of places after the point, a tie going to the even
digit. -/

namespace BlockIndex.Decimal

structure Ratio where
  n : Nat
  d : Nat

/-- A finite number without its sign, in units of `2 ^ (exponent - 2)`. -/
def quarterUnits (units : Nat) (exponent : Int) : Ratio :=
  if exponent ≥ 2 then ⟨units * Nat.pow 2 (exponent - 2).toNat, 1⟩
  else ⟨units, Nat.pow 2 (2 - exponent).toNat⟩

/-- A finite number without its sign. -/
def valueOf (m : Nat) (exponent : Int) : Ratio := quarterUnits (4 * m) exponent

/-- The quotient in units of a power of ten. -/
def inTens (r : Ratio) (power : Int) : Ratio :=
  if power ≥ 0 then ⟨r.n, r.d * Nat.pow 10 power.toNat⟩
  else ⟨r.n * Nat.pow 10 (-power).toNat, r.d⟩

/-- The number of digits of a whole number, zero for zero. -/
def digitCount (n : Nat) : Nat := if n = 0 then 0 else (Nat.toDigits 10 n).length

/-- The number of places after the point before the first digit that is not zero, for a quotient
below one; at most the given number. -/
def leadingZeros : Nat → Nat → Nat → Nat
  | 0, _, _ => 0
  | fuel + 1, n, d => if 10 * n ≥ d then 0 else leadingZeros fuel (10 * n) d + 1

/-- The least power of ten that is greater than the quotient. -/
def magnitude (r : Ratio) : Int :=
  if r.n ≥ r.d then digitCount (r.n / r.d) else -(leadingZeros 400 r.n r.d : Int)

/-- Digits and the power of ten of their last one. -/
structure Digits where
  digits : Nat
  power : Int
  deriving DecidableEq, Repr

/-- The digits without zeros at the end; at most `n` are taken off. -/
def Digits.trim : Nat → Digits → Digits
  | 0, x => x
  | n + 1, x =>
    if x.digits ≠ 0 ∧ x.digits % 10 = 0 then Digits.trim n ⟨x.digits / 10, x.power + 1⟩ else x

/-- The first of the numbers with `count`, `count + 1`, … digits that reads back, where `low` and
`high` bound the quotients that do, `inclusive` says whether the bounds do, and `v` is the number
itself. -/
def shortestFrom (v low high : Ratio) (inclusive : Bool) (top : Int) : Nat → Nat → Digits
  | 0, count => ⟨roundDiv (inTens v (top - count)).n (inTens v (top - count)).d, top - count⟩
  | fuel + 1, count =>
    let power := top - count
    let x := inTens v power
    let l := inTens low power
    let h := inTens high power
    let fits (q : Nat) : Bool :=
      if inclusive then decide (l.n ≤ q * l.d) && decide (q * h.d ≤ h.n)
      else decide (l.n < q * l.d) && decide (q * h.d < h.n)
    let down := x.n / x.d
    let up := down + 1
    if fits down && down != 0 then
      if fits up && decide (2 * (x.n % x.d) > x.d) then ⟨up, power⟩
      else if fits up && decide (2 * (x.n % x.d) = x.d) && down % 2 == 1 then ⟨up, power⟩
      else ⟨down, power⟩
    else if fits up then ⟨up, power⟩
    else shortestFrom v low high inclusive top fuel (count + 1)

/-- The fewest digits that read back as the number `m * 2 ^ exponent`, `m` not being zero. -/
def shortest (m : Nat) (exponent : Int) : Digits :=
  let v := valueOf m exponent
  let low := quarterUnits
    (if m = Nat.pow 2 52 ∧ exponent > Double.minExponent then 4 * m - 1 else 4 * m - 2) exponent
  let high := quarterUnits (4 * m + 2) exponent
  (shortestFrom v low high (m % 2 == 0) (magnitude v) 17 1).trim 20

/-- The number in units of the last of the given places after the point, rounded. -/
def toPlaces (m : Nat) (exponent : Int) (places : Nat) : Nat :=
  let x := inTens (valueOf m exponent) (-(places : Int))
  roundDiv x.n x.d

end BlockIndex.Decimal
