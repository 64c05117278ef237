import BlockIndex.Text.Utf8

/-! Text written as bytes and read back.  Each character is read from its own bytes whatever follows
them, so that nothing is replaced in what was written (`decode_encode`). -/

namespace BlockIndex.Text.Utf8

variable {b : UInt8} {r : List UInt8} {p : Partial}

/-! ### First bytes -/

theorem decodeFrom_none_cons (b : UInt8) (r : List UInt8) :
    decodeFrom none (b :: r) = (start b).1 ++ decodeFrom (start b).2 r := rfl

theorem start_one (h : b.toNat < 0x80) : start b = ([Char.ofNat b.toNat], none) := by
  simp only [start, if_pos h]

theorem start_two (hlow : 0xC2 ≤ b.toNat) (hhigh : b.toNat < 0xE0) :
    start b = ([], some ⟨b.toNat % 32, 1, 0x80, 0xBF⟩) := by
  simp only [start]
  rw [if_neg (by omega), if_neg (by omega), if_pos hhigh]

/-- The second of three bytes must not make the character one that two bytes can write, nor half of
a pair. -/
theorem start_three (hlow : 0xE0 ≤ b.toNat) (hhigh : b.toNat < 0xF0) :
    start b = ([], some ⟨b.toNat % 16, 2, if b.toNat = 0xE0 then 0xA0 else 0x80,
      if b.toNat = 0xED then 0x9F else 0xBF⟩) := by
  simp only [start]
  rw [if_neg (by omega), if_neg (by omega), if_neg (by omega)]
  by_cases h₀ : b.toNat = 0xE0
  · simp [h₀]
  · by_cases h₁ : b.toNat = 0xED
    · simp [h₁]
    · rw [if_neg h₀, if_neg h₁, if_pos hhigh, if_neg h₀, if_neg h₁]

/-- The second of four bytes must not make the character one that three bytes can write, nor one
beyond the last. -/
theorem start_four (hlow : 0xF0 ≤ b.toNat) (hhigh : b.toNat ≤ 0xF4) :
    start b = ([], some ⟨b.toNat % 8, 3, if b.toNat = 0xF0 then 0x90 else 0x80,
      if b.toNat = 0xF4 then 0x8F else 0xBF⟩) := by
  simp only [start]
  rw [if_neg (by omega), if_neg (by omega), if_neg (by omega), if_neg (by omega),
    if_neg (by omega), if_neg (by omega)]
  by_cases h₀ : b.toNat = 0xF0
  · simp [h₀]
  · by_cases h₁ : b.toNat = 0xF4
    · simp [h₁]
    · rw [if_neg h₀, if_pos (by omega), if_neg h₀, if_neg h₁]

/-! ### Bytes that continue a character -/

theorem toNat_continued (n : Nat) : (UInt8.ofNat (0x80 + n % 64)).toNat = 0x80 + n % 64 :=
  UInt8.toNat_ofNat_of_lt' (show 0x80 + n % 64 < 256 by omega)

theorem decodeFrom_some_last {n : Nat} (hlow : p.low ≤ 0x80 + n % 64)
    (hhigh : 0x80 + n % 64 ≤ p.high) (h : p.missing = 1) :
    decodeFrom (some p) (UInt8.ofNat (0x80 + n % 64) :: r) =
      Char.ofNat (p.bits * 64 + n % 64) :: decodeFrom none r := by
  have hbits : (0x80 + n % 64) % 64 = n % 64 := by omega
  simp only [decodeFrom, toNat_continued, hbits]
  rw [if_pos ⟨hlow, hhigh⟩, if_pos (by omega)]

theorem decodeFrom_some_more {n : Nat} (hlow : p.low ≤ 0x80 + n % 64)
    (hhigh : 0x80 + n % 64 ≤ p.high) (h : 1 < p.missing) :
    decodeFrom (some p) (UInt8.ofNat (0x80 + n % 64) :: r) =
      decodeFrom (some ⟨p.bits * 64 + n % 64, p.missing - 1, 0x80, 0xBF⟩) r := by
  have hbits : (0x80 + n % 64) % 64 = n % 64 := by omega
  simp only [decodeFrom, toNat_continued, hbits]
  rw [if_pos ⟨hlow, hhigh⟩, if_neg (by omega)]

/-! ### What was written is read back -/

/-- The bytes of a character are read as the character, whatever follows them. -/
theorem decodeFrom_encodeChar_append (c : Char) (r : List UInt8) :
    decodeFrom none (encodeChar c ++ r) = c :: decodeFrom none r := by
  have hvalid : c.toNat < 0xD800 ∨ 0xDFFF < c.toNat ∧ c.toNat < 0x110000 := c.valid
  have hchar : Char.ofNat c.toNat = c := Char.ofNat_toNat c
  unfold encodeChar
  simp only
  generalize c.toNat = n at hvalid hchar ⊢
  -- one case for each number of bytes
  by_cases h₁ : n < 0x80
  · have hb := UInt8.toNat_ofNat_of_lt' (show n < 256 by omega)
    rw [if_pos h₁, List.singleton_append, decodeFrom_none_cons, start_one (by omega), hb, hchar]
    rfl
  rw [if_neg h₁]
  by_cases h₂ : n < 0x800
  · have hb := UInt8.toNat_ofNat_of_lt' (show 0xC0 + n / 64 < 256 by omega)
    have hbits : (0xC0 + n / 64) % 32 * 64 + n % 64 = n := by omega
    rw [if_pos h₂, List.cons_append, List.singleton_append, decodeFrom_none_cons,
      start_two (by omega) (by omega), List.nil_append,
      decodeFrom_some_last (by simp only; omega) (by simp only; omega) rfl]
    simp only [hb, hbits, hchar]
  rw [if_neg h₂]
  by_cases h₃ : n < 0x10000
  · have hb := UInt8.toNat_ofNat_of_lt' (show 0xE0 + n / 4096 < 256 by omega)
    have hbits : ((0xE0 + n / 4096) % 16 * 64 + n / 64 % 64) * 64 + n % 64 = n := by omega
    rw [if_pos h₃, List.cons_append, List.cons_append, List.singleton_append,
      decodeFrom_none_cons, start_three (by omega) (by omega), List.nil_append,
      decodeFrom_some_more (by simp only; split <;> omega) (by simp only; split <;> omega)
        Nat.one_lt_two,
      decodeFrom_some_last (by simp only; omega) (by simp only; omega) rfl]
    simp only [hb, hbits, hchar]
  · have hb := UInt8.toNat_ofNat_of_lt' (show 0xF0 + n / 262144 < 256 by omega)
    have hbits : (((0xF0 + n / 262144) % 8 * 64 + n / 4096 % 64) * 64 + n / 64 % 64) * 64 +
        n % 64 = n := by omega
    rw [if_neg h₃, List.cons_append, List.cons_append, List.cons_append, List.singleton_append,
      decodeFrom_none_cons, start_four (by omega) (by omega), List.nil_append,
      decodeFrom_some_more (by simp only; split <;> omega) (by simp only; split <;> omega)
        (by simp),
      decodeFrom_some_more (by simp only; omega) (by simp only; omega) (by simp),
      decodeFrom_some_last (by simp only; omega) (by simp only; omega) rfl]
    simp only [hb, hbits, hchar]

theorem decode_encode (s : List Char) : decode (encode s) = s := by
  induction s with
  | nil => rfl
  | cons c s ih =>
    show decodeFrom none (encodeChar c ++ encode s) = c :: s
    rw [decodeFrom_encodeChar_append]
    exact congrArg (c :: ·) ih

/-- The bytes of a text are those of no other text. -/
theorem decode?_encode (s : List Char) : decode? (encode s) = some s := by
  simp only [decode?, decode_encode, if_pos]

end BlockIndex.Text.Utf8
