import BlockIndex.Text.Blank
import BlockIndex.Text.Punctuation
import BlockIndex.Text.Word

/-! The blank characters around a text.  A text is its blank front, what `strip` leaves, and its blank
end (`leading_append_strip_append_trailing`); no blank character is a word character or a punctuation
mark. -/

namespace BlockIndex.Text

variable {s : List Char} {c : Char}

theorem span_append {f : Char → Bool} {v w : List Char} (hv : ∀ c ∈ v, f c = true)
    (hw : ∀ c, w.head? = some c → f c = false) :
    (v ++ w).takeWhile f = v ∧ (v ++ w).dropWhile f = w := by
  rw [List.takeWhile_append_of_pos hv, List.dropWhile_append_of_pos hv]
  cases w with
  | nil => simp
  | cons c w => simp [hw c rfl]

/-- The blank characters at the front of a text. -/
def leading (s : List Char) : List Char := s.takeWhile isBlank

/-- The blank characters at the end of a text, those of its front left out. -/
def trailing (s : List Char) : List Char := ((stripLeft s).reverse.takeWhile isBlank).reverse

theorem leading_append_strip_append_trailing (s : List Char) :
    leading s ++ strip s ++ trailing s = s := by
  have hright : strip s ++ trailing s = stripLeft s := by
    rw [strip, stripRight, trailing, ← List.reverse_append, List.takeWhile_append_dropWhile,
      List.reverse_reverse]
  rw [List.append_assoc, hright, leading, stripLeft, List.takeWhile_append_dropWhile]

theorem isBlank_of_mem_leading (h : c ∈ leading s) : isBlank c = true :=
  List.all_eq_true.mp (List.all_takeWhile) c h

theorem isBlank_of_mem_trailing (h : c ∈ trailing s) : isBlank c = true :=
  List.all_eq_true.mp (List.all_takeWhile) c (List.mem_reverse.mp h)

theorem mem_strip_iff (h : isBlank c = false) : c ∈ strip s ↔ c ∈ s := by
  have hsplit := leading_append_strip_append_trailing s
  constructor
  · intro hc
    rw [← hsplit]
    exact List.mem_append_left _ (List.mem_append_right _ hc)
  · intro hc
    rw [← hsplit, List.mem_append, List.mem_append] at hc
    rcases hc with (hc | hc) | hc
    · simp [isBlank_of_mem_leading hc] at h
    · exact hc
    · simp [isBlank_of_mem_trailing hc] at h

theorem strip_eq_nil_iff : strip s = [] ↔ allBlank s = true := by
  constructor
  · intro h
    refine List.all_eq_true.mpr fun c hc => ?_
    cases hb : isBlank c with
    | true => rfl
    | false =>
      have hmem := (mem_strip_iff hb).mpr hc
      rw [h] at hmem
      cases hmem
  · intro h
    rw [strip, stripLeft_eq_nil_iff.mpr h]
    rfl

/-! ### Other kinds of characters -/

/-- The code points of the characters in a set. -/
def CharSet.codes (s : CharSet) : List Nat :=
  s.ranges.flatMap fun r => List.range' r.1 (r.2 + 1 - r.1)

theorem CharSet.mem_codes {s : CharSet} (h : s.contains c = true) : c.toNat ∈ s.codes := by
  obtain ⟨r, hr, hle, hge⟩ := CharSet.contains_iff.mp h
  exact List.mem_flatMap.mpr ⟨r, hr, List.mem_range'_1.mpr ⟨hle, by omega⟩⟩

/-- What no code point of a set has, no character in the set has. -/
theorem CharSet.eq_false_of_codes {s : CharSet} {f : Char → Bool}
    (hnone : ∀ n ∈ s.codes, f (Char.ofNat n) = false) (h : s.contains c = true) : f c = false := by
  have := hnone c.toNat (CharSet.mem_codes h)
  rwa [Char.ofNat_toNat] at this

theorem isWord_eq_false_of_isBlank (h : isBlank c = true) : isWord c = false :=
  CharSet.eq_false_of_codes (by decide +kernel) h

theorem isPunctuation_eq_false_of_isBlank (h : isBlank c = true) : isPunctuation c = false :=
  CharSet.eq_false_of_codes (by decide +kernel) h

end BlockIndex.Text
