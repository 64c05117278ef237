import BlockIndex.Number.Written

/-! Times.  A time in seconds is a number in binary with 53 significant bits.  Every such number is a
whole multiple of the least positive one, the tick; so a time is a whole number of ticks, and sums
and differences of times are whole numbers too.  `round` rounds them to 53 significant bits, as
arithmetic on numbers in binary does. -/

namespace BlockIndex

namespace Ticks

/-- The ticks of a second. -/
def perSecond : Nat := Nat.pow 2 (-Double.minExponent).toNat

def ofSeconds (n : Int) : Int := n * perSecond

/-- The nearest number with at most 53 significant bits, of two the one with the even mantissa. -/
def roundNat (n : Nat) : Nat :=
  if n < Nat.pow 2 53 then n
  else
    let unit := Nat.pow 2 (Nat.log2 n - 52)
    roundDiv n unit * unit

def round (n : Int) : Int := if n < 0 then -(roundNat n.natAbs : Int) else roundNat n.natAbs

/-- The time at which a span is over that begins at a given time. -/
def deadline (start span : Int) : Int := round (start + round span)

/-- What is left at a given time until a deadline. -/
def left (deadline now : Int) : Int := round (deadline - now)

/-- The number of seconds. -/
def toDouble (n : Int) : Double := Double.ofScaled (n < 0) n.natAbs Double.minExponent

/-- The seconds in decimal, where a whole number has no point. -/
def toText (n : Int) : String :=
  if n % perSecond = 0 then toString (n / perSecond) else (toDouble n).shortest Double.plainNames

end Ticks

end BlockIndex
