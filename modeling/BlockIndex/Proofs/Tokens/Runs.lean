import Mathlib.Data.Set.Card
import BlockIndex.Proofs.Tokens.Count

/-! Tokens told without the count.  The tokens of a text are its punctuation marks and its longest runs
of plain characters, and two texts put together have the tokens of both, but for one if a run goes
on from the one to the other (`count_eq_marks_add_runs`). -/

namespace BlockIndex.Tokens

open Text

/-- A part of a text, with what comes before it and after it. -/
structure Part where
  before : List Char
  chars : List Char
  after : List Char

/-- The part is a longest run of plain characters in the text `s`: it cannot be made longer on
either side. -/
structure Part.IsRun (s : List Char) (p : Part) : Prop where
  text_eq : p.before ++ p.chars ++ p.after = s
  filled : p.chars ≠ []
  plain : ∀ c ∈ p.chars, isPlain c = true
  before : ∀ c, p.before.getLast? = some c → isPlain c = false
  after : ∀ c, p.after.head? = some c → isPlain c = false

/-- The longest runs of plain characters in a text. -/
def runs (s : List Char) : Set Part := {p | p.IsRun s}

variable {s : List Char}

/-! ### Where runs start -/

/-- The divisions of a text at a place where a run starts, where `inRun` says whether a plain
character comes before the text. -/
def runStarts (inRun : Bool) (s : List Char) : Set (List Char × List Char) :=
  {p | p.1 ++ p.2 = s ∧ endsPlain inRun p.1 = false ∧ startsPlain p.2 = true}

theorem runStarts_nil (inRun : Bool) : runStarts inRun [] = ∅ := by
  refine Set.eq_empty_of_forall_notMem ?_
  rintro ⟨front, back⟩ ⟨hsplit, -, hback⟩
  obtain ⟨-, rfl⟩ := List.append_eq_nil_iff.mp hsplit
  cases hback

/-- The division of the text with one more character at its front. -/
def shift (c : Char) (p : List Char × List Char) : List Char × List Char := (c :: p.1, p.2)

theorem shift_injective (c : Char) : Function.Injective (shift c) := by
  rintro ⟨front, back⟩ ⟨front', back'⟩ h
  simpa [shift] using h

/-- A run starts at the first character, or in the text after it. -/
theorem runStarts_cons (inRun : Bool) (c : Char) (s : List Char) :
    runStarts inRun (c :: s) =
      {p | p = ([], c :: s) ∧ inRun = false ∧ isPlain c = true} ∪
        shift c '' runStarts (isPlain c) s := by
  ext ⟨front, back⟩
  constructor
  · rintro ⟨hsplit, hfront, hback⟩
    cases front with
    | nil =>
      obtain rfl : back = c :: s := hsplit
      exact .inl ⟨rfl, hfront, hback⟩
    | cons d front =>
      obtain ⟨rfl, hrest⟩ := List.cons.inj hsplit
      exact .inr ⟨(front, back), ⟨hrest, (endsPlain_cons inRun d front).symm.trans hfront, hback⟩,
        rfl⟩
  · rintro (⟨heq, hrun, hc⟩ | ⟨⟨front', back'⟩, ⟨hrest, hfront, hback⟩, heq⟩)
    · cases heq
      exact ⟨rfl, hrun, hc⟩
    · cases heq
      exact ⟨congrArg (c :: ·) hrest, (endsPlain_cons inRun c front').trans hfront, hback⟩

/-- How many runs start in a text. -/
def startCount (inRun : Bool) : List Char → Nat
  | [] => 0
  | c :: s => (!inRun && isPlain c).toNat + startCount (isPlain c) s

theorem encard_runStarts (inRun : Bool) (s : List Char) :
    (runStarts inRun s).encard = startCount inRun s := by
  induction s generalizing inRun with
  | nil => simp [runStarts_nil, startCount]
  | cons c s ih =>
    have hshift : (shift c '' runStarts (isPlain c) s).encard = startCount (isPlain c) s := by
      rw [(shift_injective c).encard_image, ih]
    -- the two parts of `runStarts_cons` have no division in common
    have hnotMem : ([], c :: s) ∉ shift c '' runStarts (isPlain c) s := by
      rintro ⟨p, -, hp⟩
      cases hp
    rw [runStarts_cons, startCount]
    by_cases hstart : inRun = false ∧ isPlain c = true
    · have hfirst : {p : List Char × List Char | p = ([], c :: s) ∧ inRun = false ∧
          isPlain c = true} = {([], c :: s)} := by
        ext p
        simp [hstart]
      rw [hfirst, Set.singleton_union, Set.encard_insert_of_notMem hnotMem, hshift, hstart.1,
        hstart.2, Nat.cast_add, add_comm]
      rfl
    · have hfirst : {p : List Char × List Char | p = ([], c :: s) ∧ inRun = false ∧
          isPlain c = true} = ∅ := by
        ext p
        simp [hstart]
      have hzero : (!inRun && isPlain c) = false := by
        cases inRun <;> simp_all
      rw [hfirst, Set.empty_union, hshift, hzero, Bool.toNat_false, Nat.zero_add]

/-- The tokens of a text are its punctuation marks and the runs that start in it, and one more if a
run is open before it. -/
theorem countFrom_eq (inRun : Bool) (s : List Char) :
    countFrom inRun s = inRun.toNat + s.countP isPunctuation + startCount inRun s := by
  induction s generalizing inRun with
  | nil => rfl
  | cons c s ih =>
    rw [startCount]
    rcases blank_or_mark_or_plain c with hblank | hmark | hplain
    · have hunmarked := isPunctuation_eq_false_of_isBlank hblank
      rw [countFrom_of_isBlank hblank, List.countP_cons_of_neg (by simp [hunmarked]),
        isPlain_of_isBlank hblank, Bool.and_false, Bool.toNat_false, ih, Bool.toNat_false]
      omega
    · rw [countFrom_of_isPunctuation hmark, List.countP_cons_of_pos hmark,
        isPlain_of_isPunctuation hmark, Bool.and_false, Bool.toNat_false, ih, Bool.toNat_false]
      omega
    · -- the run of `c` is the open one, or starts here
      have hone : inRun.toNat + (!inRun && true).toNat = 1 := by cases inRun <;> rfl
      rw [countFrom_of_isPlain hplain, List.countP_cons_of_neg (by simp [(isPlain_iff.mp hplain).2]),
        hplain, ih, Bool.toNat_true]
      omega

/-! ### Runs -/

theorem endsPlain_false_iff :
    endsPlain false s = false ↔ ∀ c, s.getLast? = some c → isPlain c = false := by
  unfold endsPlain
  cases s.getLast? <;> simp

/-- The run that starts at a division of a text. -/
def runAt (p : List Char × List Char) : Part :=
  ⟨p.1, p.2.takeWhile isPlain, p.2.dropWhile isPlain⟩

theorem runAt_injective : Function.Injective runAt := by
  rintro ⟨front, back⟩ ⟨front', back'⟩ h
  obtain ⟨hfront, hrun, hafter⟩ := Part.mk.inj h
  have hback : back = back' := by
    rw [← List.takeWhile_append_dropWhile (p := isPlain) (l := back), hrun, hafter,
      List.takeWhile_append_dropWhile]
  exact Prod.ext hfront hback

/-- A run is told by where it starts. -/
theorem runs_eq (s : List Char) : runs s = runAt '' runStarts false s := by
  ext p
  constructor
  · intro h
    refine ⟨(p.before, p.chars ++ p.after), ⟨?_, endsPlain_false_iff.mpr h.before, ?_⟩, ?_⟩
    · rw [← List.append_assoc]
      exact h.text_eq
    · obtain ⟨c, cs, hchars⟩ := List.exists_cons_of_ne_nil h.filled
      rw [hchars]
      exact h.plain c (hchars ▸ List.mem_cons_self)
    · obtain ⟨hrun, hafter⟩ := span_append h.plain h.after
      rw [runAt, hrun, hafter]
  · rintro ⟨⟨front, back⟩, ⟨hsplit, hfront, hback⟩, rfl⟩
    refine ⟨?_, ?_, ?_, endsPlain_false_iff.mp hfront, ?_⟩
    · rw [runAt, List.append_assoc, List.takeWhile_append_dropWhile]
      exact hsplit
    · cases back with
      | nil => cases hback
      | cons c back =>
        have hc : isPlain c = true := hback
        simp [runAt, hc]
    · exact List.all_eq_true.mp List.all_takeWhile
    · intro c hc
      have := List.head?_dropWhile_not isPlain back
      rw [runAt] at hc
      rw [hc] at this
      exact this

theorem count_eq (s : List Char) :
    (countFrom false s : ℕ∞) = s.countP isPunctuation + (runs s).encard := by
  rw [runs_eq, runAt_injective.encard_image, encard_runStarts, countFrom_eq, Bool.toNat_false,
    Nat.zero_add, Nat.cast_add]

/-- The tokens of a text are its punctuation marks and its longest runs of plain characters.  A
blank character divides them into those before it and those after it; without one, two texts put
together have the tokens of both or one less. -/
theorem count_eq_marks_add_runs (s t : String) :
    (count s : ℕ∞) = s.toList.countP isPunctuation + (runs s.toList).encard ∧
      (∀ c, isBlank c = true → count (s ++ String.singleton c ++ t) = count s + count t) ∧
      count s + count t ≤ count (s ++ t) + 1 ∧ count (s ++ t) ≤ count s + count t := by
  have happend := countFrom_append false s.toList t.toList
  have hseam := Bool.toNat_le (endsPlain false s.toList && startsPlain t.toList)
  rw [← String.toList_append] at happend
  refine ⟨count_eq s.toList, fun c hc => count_append_blank hc s t, ?_, ?_⟩
  · unfold count
    omega
  · unfold count
    omega

/-- A no-break space keeps two words apart, and without it they are one run; the quotation marks are
tokens of their own. -/
theorem count_eq_marks_add_runs_sample :
    let s := "a.b «c"
    let t := "d» e"
    isBlank '\u00a0' = true ∧ count (s ++ String.singleton '\u00a0' ++ t) = 8 ∧
      count (s ++ t) = 7 ∧ (runs (s ++ t).toList).encard = 4 := by
  intro s t
  have hcounts : count s = 5 ∧ count t = 3 ∧ count (s ++ t) = 7 := by decide +kernel
  obtain ⟨hs, ht, hboth⟩ := hcounts
  have hmarks : (s ++ t).toList.countP isPunctuation = 3 := by decide +kernel
  have hblank : isBlank '\u00a0' = true := by decide
  have happart := (count_eq_marks_add_runs s t).2.1 _ hblank
  have hruns := (count_eq_marks_add_runs (s ++ t) "").1
  rw [hs, ht] at happart
  rw [hboth, hmarks] at hruns
  refine ⟨hblank, happart, hboth, ?_⟩
  apply ENat.add_right_injective_of_ne_top (ENat.natCast_ne_top 3)
  exact hruns.symm

end BlockIndex.Tokens
