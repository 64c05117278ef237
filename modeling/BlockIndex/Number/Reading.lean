import BlockIndex.Number.Double
import BlockIndex.Text.Blank
import BlockIndex.Text.Digit

/-! Numbers read from text.  Blank characters may surround a number, except the information
separators; its digits may be of any script, and single underscores may stand between them. -/

namespace BlockIndex.Number

open Text

/-- Whether a character may stand around a number. -/
def isMargin (c : Char) : Bool := isBlank c && !(0x1c ≤ c.toNat && c.toNat ≤ 0x1f)

/-- The text without margins. -/
def trimmed (s : List Char) : List Char :=
  ((s.dropWhile isMargin).reverse.dropWhile isMargin).reverse

/-- A sign in front of a text, and the rest. -/
def sign : List Char → Bool × List Char
  | '-' :: s => (true, s)
  | '+' :: s => (false, s)
  | s => (false, s)

/-- The digits at the front of a text with the values read so far, the last one first, and the
rest.  An underscore is passed between two digits. -/
def digitsFrom (values : List Nat) : List Char → List Nat × List Char
  | [] => (values, [])
  | '_' :: c :: s =>
    match values, digitValue? c with
    | _ :: _, some d => digitsFrom (d :: values) s
    | _, _ => (values, '_' :: c :: s)
  | c :: s =>
    match digitValue? c with
    | some d => digitsFrom (d :: values) s
    | none => (values, c :: s)

/-- The number of digits, the last one first. -/
def ofDigits (values : List Nat) : Nat := values.foldr (fun d n => 10 * n + d) 0

/-- The greatest number of digits of a whole number that is read. -/
def maxDigits : Nat := 4300

def int? (s : List Char) : Option Int :=
  let (negative, s) := sign (trimmed s)
  match digitsFrom [] s with
  | (d :: ds, []) =>
    if (d :: ds).length > maxDigits then none
    else some (if negative then -(ofDigits (d :: ds) : Int) else ofDigits (d :: ds))
  | _ => none

/-- A decimal number `digits * 10 ^ power`, rounded.  A power that is out of reach is not
computed. -/
def ofDecimal (negative : Bool) (digits : Nat) (power : Int) : Double :=
  if digits = 0 then .finite negative 0 Double.minExponent
  else if power > 400 then .infinite negative
  else if power ≥ 0 then Double.ofRatio negative (digits * Nat.pow 10 power.toNat) 1
  else if power + (Nat.log2 digits : Int) < -1200 then .finite negative 0 Double.minExponent
  else Double.ofRatio negative digits (Nat.pow 10 (-power).toNat)

/-- The exponent at the front of a text, and the rest; without digits it is no exponent. -/
def exponentFrom (s : List Char) : Int × List Char :=
  match s with
  | e :: r =>
    if e = 'e' ∨ e = 'E' then
      let (negative, r) := sign r
      match digitsFrom [] r with
      | (d :: ds, rest) =>
        (if negative then -(ofDigits (d :: ds) : Int) else ofDigits (d :: ds), rest)
      | ([], _) => (0, s)
    else (0, s)
  | [] => (0, [])

/-- The digits after a point at the front of a text, the last one first, and the rest. -/
def fractionFrom (s : List Char) : List Nat × List Char :=
  match s with
  | '.' :: r =>
    match r with
    | '_' :: _ => ([], r)
    | _ => digitsFrom [] r
  | _ => ([], s)

def decimal? (negative : Bool) (s : List Char) : Option Double :=
  let (whole, r) := digitsFrom [] s
  let (fraction, r) := fractionFrom r
  if whole.isEmpty && fraction.isEmpty then none
  else
    match exponentFrom r with
    | (e, []) => some (ofDecimal negative (ofDigits (fraction ++ whole)) (e - fraction.length))
    | _ => none

/-- A text with the letters A to Z in lower case. -/
def lowerAscii (s : List Char) : List Char := s.map Char.toLower

def double? (s : List Char) : Option Double :=
  let (negative, s) := sign (trimmed s)
  let word := String.ofList (lowerAscii s)
  if word = "inf" ∨ word = "infinity" then some (.infinite negative)
  else if word = "nan" then some .nan
  else decimal? negative s

end BlockIndex.Number
