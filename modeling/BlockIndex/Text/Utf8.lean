/-! Text as bytes.  `encode` writes each character in one to four bytes.  `decode` reads bytes back
and puts one replacement character for every longest run of bytes that starts a character and is
not continued as it must be; `decode?` refuses such runs. -/

namespace BlockIndex.Text.Utf8

def encodeChar (c : Char) : List UInt8 :=
  let n := c.toNat
  if n < 0x80 then [UInt8.ofNat n]
  else if n < 0x800 then [UInt8.ofNat (0xC0 + n / 64), UInt8.ofNat (0x80 + n % 64)]
  else if n < 0x10000 then
    [UInt8.ofNat (0xE0 + n / 4096), UInt8.ofNat (0x80 + n / 64 % 64), UInt8.ofNat (0x80 + n % 64)]
  else
    [UInt8.ofNat (0xF0 + n / 262144), UInt8.ofNat (0x80 + n / 4096 % 64),
      UInt8.ofNat (0x80 + n / 64 % 64), UInt8.ofNat (0x80 + n % 64)]

def encode (s : List Char) : List UInt8 := s.flatMap encodeChar

def replacement : Char := '\uFFFD'

/-- A character of which some bytes have been read: the bits so far, how many bytes are still to
come, and the range in which the next one must lie. -/
structure Partial where
  bits : Nat
  missing : Nat
  low : Nat
  high : Nat

/-- What the first byte of a character gives: characters that are complete, and the character that
it leaves open. -/
def start (b : UInt8) : List Char × Option Partial :=
  let n := b.toNat
  if n < 0x80 then ([Char.ofNat n], none)
  else if n < 0xC2 then ([replacement], none)
  else if n < 0xE0 then ([], some ⟨n % 32, 1, 0x80, 0xBF⟩)
  else if n = 0xE0 then ([], some ⟨0, 2, 0xA0, 0xBF⟩)
  else if n = 0xED then ([], some ⟨13, 2, 0x80, 0x9F⟩)
  else if n < 0xF0 then ([], some ⟨n % 16, 2, 0x80, 0xBF⟩)
  else if n = 0xF0 then ([], some ⟨0, 3, 0x90, 0xBF⟩)
  else if n < 0xF4 then ([], some ⟨n % 8, 3, 0x80, 0xBF⟩)
  else if n = 0xF4 then ([], some ⟨4, 3, 0x80, 0x8F⟩)
  else ([replacement], none)

/-- The characters of the bytes that follow those of an open character. -/
def decodeFrom : Option Partial → List UInt8 → List Char
  | none, [] => []
  | some _, [] => [replacement]
  | none, b :: r => (start b).1 ++ decodeFrom (start b).2 r
  | some p, b :: r =>
    if p.low ≤ b.toNat ∧ b.toNat ≤ p.high then
      let bits := p.bits * 64 + b.toNat % 64
      if p.missing ≤ 1 then Char.ofNat bits :: decodeFrom none r
      else decodeFrom (some ⟨bits, p.missing - 1, 0x80, 0xBF⟩) r
    else replacement :: ((start b).1 ++ decodeFrom (start b).2 r)

/-- The text that bytes stand for, with replacements. -/
def decode (bytes : List UInt8) : List Char := decodeFrom none bytes

/-- The text that bytes stand for, if they are the bytes of a text. -/
def decode? (bytes : List UInt8) : Option (List Char) :=
  let s := decode bytes
  if encode s = bytes then some s else none

end BlockIndex.Text.Utf8
