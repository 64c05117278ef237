import Mathlib.Algebra.GroupWithZero.Nat
import BlockIndex.Proofs.Text.Blank
import BlockIndex.Tokens.Count
import BlockIndex.Text.Lines

/-! Tokens of texts put together.  A character is blank, a punctuation mark or plain; two texts have
together the tokens of both, less one if a run of plain characters goes on from the first into the
second (`countFrom_append`).  So a blank character divides the count, and the tokens of lines are
those of the lines joined. -/

namespace BlockIndex.Tokens

open Text

/-- Whether a character is neither blank nor a punctuation mark. -/
def isPlain (c : Char) : Bool := !isBlank c && !isPunctuation c

variable {c : Char}

/-! ### The characters -/

theorem blank_or_mark_or_plain (c : Char) :
    isBlank c = true ∨ isPunctuation c = true ∨ isPlain c = true := by
  unfold isPlain
  cases isBlank c <;> cases isPunctuation c <;> simp

theorem isPlain_iff : isPlain c = true ↔ isBlank c = false ∧ isPunctuation c = false := by
  simp [isPlain]

theorem isPlain_of_isBlank (h : isBlank c = true) : isPlain c = false := by
  simp [isPlain, h]

theorem isPlain_of_isPunctuation (h : isPunctuation c = true) : isPlain c = false := by
  simp [isPlain, h]

theorem countFrom_of_isBlank (h : isBlank c = true) (inRun : Bool) (s : List Char) :
    countFrom inRun (c :: s) = inRun.toNat + countFrom false s := by
  rw [countFrom, if_pos h]

theorem countFrom_of_isPunctuation (h : isPunctuation c = true) (inRun : Bool) (s : List Char) :
    countFrom inRun (c :: s) = inRun.toNat + 1 + countFrom false s := by
  have hfilled : isBlank c ≠ true := fun hblank =>
    Bool.false_ne_true ((isPunctuation_eq_false_of_isBlank hblank).symm.trans h)
  rw [countFrom, if_neg hfilled, if_pos h]

theorem countFrom_of_isPlain (h : isPlain c = true) (inRun : Bool) (s : List Char) :
    countFrom inRun (c :: s) = countFrom true s := by
  obtain ⟨hblank, hmark⟩ := isPlain_iff.mp h
  rw [countFrom, hblank, hmark]
  rfl

/-! ### Texts put together -/

/-- Whether a plain character ends the text; what `inRun` says if the text is empty. -/
def endsPlain (inRun : Bool) (s : List Char) : Bool := (s.getLast?.map isPlain).getD inRun

def startsPlain (s : List Char) : Bool := (s.head?.map isPlain).getD false

theorem endsPlain_cons (inRun : Bool) (c : Char) (s : List Char) :
    endsPlain inRun (c :: s) = endsPlain (isPlain c) s := by
  unfold endsPlain
  rw [List.getLast?_cons]
  cases s.getLast? <;> rfl

theorem countFrom_true (s : List Char) :
    countFrom true s + (startsPlain s).toNat = 1 + countFrom false s := by
  cases s with
  | nil => rfl
  | cons c s =>
    have hstarts : startsPlain (c :: s) = isPlain c := rfl
    rw [hstarts]
    rcases blank_or_mark_or_plain c with hblank | hmark | hplain
    · rw [countFrom_of_isBlank hblank, countFrom_of_isBlank hblank, isPlain_of_isBlank hblank,
        Bool.toNat_true, Bool.toNat_false]
      omega
    · rw [countFrom_of_isPunctuation hmark, countFrom_of_isPunctuation hmark,
        isPlain_of_isPunctuation hmark, Bool.toNat_true, Bool.toNat_false]
      omega
    · rw [countFrom_of_isPlain hplain, countFrom_of_isPlain hplain, hplain, Bool.toNat_true]
      omega

/-- Two texts put together have the tokens of both, less one if a run goes on from the first into
the second. -/
theorem countFrom_append (inRun : Bool) (s t : List Char) :
    countFrom inRun (s ++ t) + (endsPlain inRun s && startsPlain t).toNat =
      countFrom inRun s + countFrom false t := by
  induction s generalizing inRun with
  | nil =>
    cases inRun with
    | false => simp [endsPlain, countFrom]
    | true => exact countFrom_true t
  | cons c s ih =>
    rw [List.cons_append, endsPlain_cons]
    have hrest := ih (isPlain c)
    rcases blank_or_mark_or_plain c with hblank | hmark | hplain
    · rw [isPlain_of_isBlank hblank] at hrest ⊢
      rw [countFrom_of_isBlank hblank, countFrom_of_isBlank hblank]
      omega
    · rw [isPlain_of_isPunctuation hmark] at hrest ⊢
      rw [countFrom_of_isPunctuation hmark, countFrom_of_isPunctuation hmark]
      omega
    · rw [hplain] at hrest ⊢
      rw [countFrom_of_isPlain hplain, countFrom_of_isPlain hplain]
      exact hrest

/-- A blank character divides the tokens before it from those after it. -/
theorem countFrom_append_blank (hc : isBlank c = true) (inRun : Bool) (s t : List Char) :
    countFrom inRun (s ++ c :: t) = countFrom inRun s + countFrom false t := by
  have happend := countFrom_append inRun s (c :: t)
  have hstarts : startsPlain (c :: t) = false := isPlain_of_isBlank hc
  rw [hstarts, Bool.and_false, countFrom_of_isBlank hc, Bool.toNat_false] at happend
  omega

theorem count_append_blank (hc : isBlank c = true) (s t : String) :
    count (s ++ String.singleton c ++ t) = count s + count t := by
  unfold count
  rw [String.toList_append, String.toList_append, String.toList_singleton, List.append_assoc,
    List.singleton_append]
  exact countFrom_append_blank hc false s.toList t.toList

/-- The tokens of lines are those of the lines joined. -/
theorem count_joinLines (ls : List String) : count (joinLines ls) = (ls.map count).sum := by
  induction ls with
  | nil => rfl
  | cons l ls ih =>
    cases ls with
    | nil => simp [joinLines]
    | cons l' ls =>
      have hjoin : joinLines (l :: l' :: ls) =
          l ++ String.singleton '\n' ++ joinLines (l' :: ls) := by
        simp [joinLines, String.intercalate_cons_cons]
      rw [hjoin, count_append_blank (by decide), ih]
      rfl

end BlockIndex.Tokens
