import BlockIndex.Block.Body

/-! Where bodies end.  A body ends no earlier than its declaration starts and within the file, however
it is delimited.  The end of an indented body is told by three conditions on the lines around it
(`EndsIndented`), which no other line meets (`indentedEnd_unique`). -/

namespace BlockIndex.Body

open Text

variable {ls : List String} {start n : Nat} {base : Int}

/-! ### Texts -/

/-- A text is that of the lines from line `first` to line `last`, joined. -/
def IsSlice (ls : List String) (first last : Nat) (text : String) : Prop :=
  ∃ before body after, ls = before ++ body ++ after ∧ before.length = first ∧
    first + body.length = last + 1 ∧ text = joinLines body

theorem isSlice_slice {first last : Nat} (hle : first ≤ last) (hlt : last < ls.length) :
    IsSlice ls first last (slice ls first last) := by
  refine ⟨ls.take first, (ls.drop first).take (last + 1 - first),
    (ls.drop first).drop (last + 1 - first), ?_, ?_, ?_, rfl⟩
  · rw [List.append_assoc, List.take_append_drop, List.take_append_drop]
  · rw [List.length_take]
    omega
  · rw [List.length_take, List.length_drop]
    omega

/-! ### Braces and expressions -/

theorem lt_length_of_linesBeforeClose {b : Braces} (h : linesBeforeClose b ls = some n) :
    n < ls.length := by
  induction ls generalizing b n with
  | nil => cases h
  | cons l ls ih =>
    unfold linesBeforeClose at h
    split at h
    · cases h
      exact Nat.succ_pos _
    · obtain ⟨m, hm, rfl⟩ := Option.map_eq_some_iff.mp h
      exact Nat.succ_lt_succ (ih hm)

theorem le_bracedEnd (ls : List String) (start : Nat) : start ≤ bracedEnd ls start := by
  unfold bracedEnd
  split
  · exact Nat.le_add_right _ _
  · split
    · next hopened =>
      have hne : ls.drop start ≠ [] := by
        rintro hnil
        rw [hnil] at hopened
        cases hopened
      have := List.length_pos_iff.mpr hne
      rw [List.length_drop] at this
      omega
    · exact Nat.le_refl _

theorem bracedEnd_lt (h : start < ls.length) : bracedEnd ls start < ls.length := by
  unfold bracedEnd
  split
  · next n hn =>
    have := lt_length_of_linesBeforeClose hn
    rw [List.length_drop] at this
    omega
  · split <;> omega

theorem expressionLength_le (ls : List String) : expressionLength ls ≤ ls.length := by
  induction ls with
  | nil => exact Nat.le_refl _
  | cons l ls ih =>
    unfold expressionLength
    split
    · exact Nat.zero_le _
    · split
      · exact Nat.succ_pos _
      · exact Nat.succ_le_succ ih

theorem expressionEnd_lt (h : start < ls.length) : expressionEnd ls start < ls.length := by
  have := expressionLength_le (ls.drop start)
  rw [List.length_drop] at this
  unfold expressionEnd
  omega

/-! ### Indentation -/

/-- The first `n` lines after a header make up its body: those that are not blank are indented
deeper than `base`, the last of them is not blank, and the next line that is not blank is not
indented deeper. -/
structure FillsIndented (base : Int) (ls : List String) (n : Nat) : Prop where
  le_length : n ≤ ls.length
  deeper : ∀ i line, i < n → ls[i]? = some line → allBlank line.toList = false →
    base < indentation line
  filled : ∀ m, n = m + 1 → ∃ line, ls[m]? = some line ∧ allBlank line.toList = false
  stops : ∀ i line, n ≤ i → ls[i]? = some line → allBlank line.toList = false →
    (∀ j l, n ≤ j → j < i → ls[j]? = some l → allBlank l.toList = true) →
    (indentation line : Int) ≤ base

/-- A first line that belongs to the body shifts what holds of the others by one. -/
theorem FillsIndented.cons {base : Int} {n : Nat} {l : String} (h : FillsIndented base ls n)
    (hl : allBlank l.toList = true ∨ base < indentation l)
    (hfilled : n = 0 → allBlank l.toList = false) : FillsIndented base (l :: ls) (n + 1) where
  le_length := Nat.succ_le_succ h.le_length
  deeper := by
    rintro (_ | i) line hi hline hnot
    · cases hline
      exact hl.resolve_left (by simp [hnot])
    · exact h.deeper i line (by omega) hline hnot
  filled := by
    rintro (_ | m) hm
    · exact ⟨l, rfl, hfilled (by omega)⟩
    · exact h.filled m (by omega)
  stops := by
    rintro (_ | i) line hi hline hnot hblank
    · omega
    · exact h.stops i line (by omega) hline hnot fun j m hj hji hm =>
        hblank (j + 1) m (by omega) (by omega) hm

/-- No line belongs to the body if the first one that is not blank is not indented deeper. -/
theorem fillsIndented_zero {base : Int}
    (h : ∀ (i : Nat) (line : String), ls[i]? = some line → allBlank line.toList = false →
      (∀ (j : Nat) (l : String), j < i → ls[j]? = some l → allBlank l.toList = true) →
      (indentation line : Int) ≤ base) : FillsIndented base ls 0 where
  le_length := Nat.zero_le _
  deeper i _ hi := absurd hi (Nat.not_lt_zero i)
  filled _ hm := by cases hm
  stops i line _ hline hnot hblank :=
    h i line hline hnot fun j l => hblank j l (Nat.zero_le j)

theorem fillsIndented_indentedLength (base : Int) (ls : List String) :
    FillsIndented base ls (indentedLength base ls) := by
  induction ls with
  | nil => exact fillsIndented_zero fun i line hline => by simp at hline
  | cons l ls ih =>
    unfold indentedLength
    split
    · next hblank =>
      split
      · next hzero =>
        refine fillsIndented_zero ?_
        rintro (_ | i) line hline hnot hbetween
        · cases hline
          simp [hblank] at hnot
        · exact ih.stops i line (by omega) hline hnot fun j m _ hji hm =>
            hbetween (j + 1) m (by omega) hm
      · next hpos => exact ih.cons (.inl hblank) fun h => absurd h hpos
    · next hnot =>
      have hnot : allBlank l.toList = false := by simpa using hnot
      split
      · next hle =>
        refine fillsIndented_zero ?_
        rintro (_ | i) line hline - hbetween
        · cases hline
          exact hle
        · have := hbetween 0 l (Nat.succ_pos i) rfl
          simp [hnot] at this
      · next hdeep => exact ih.cons (.inr (by omega)) fun _ => hnot

/-- Line `last` is the end of the indented body of the declaration in line `start`: the lines after
the header that are not blank are indented deeper than `base`, the last line is not blank unless it
is the header, and the next line that is not blank is not indented deeper. -/
structure EndsIndented (ls : List String) (start : Nat) (base : Int) (last : Nat) : Prop where
  start_le : start ≤ last
  lt_length : last < ls.length
  deeper : ∀ i line, start < i → i ≤ last → ls[i]? = some line → allBlank line.toList = false →
    base < indentation line
  filled : start < last → ∃ line, ls[last]? = some line ∧ allBlank line.toList = false
  stops : ∀ i line, last < i → ls[i]? = some line → allBlank line.toList = false →
    (∀ j l, last < j → j < i → ls[j]? = some l → allBlank l.toList = true) →
    (indentation line : Int) ≤ base

theorem endsIndented_indentedEnd (base : Int) (h : start < ls.length) :
    EndsIndented ls start base (indentedEnd ls start base) := by
  have hfills := fillsIndented_indentedLength base (ls.drop (start + 1))
  have hget : ∀ i, start < i → (ls.drop (start + 1))[i - (start + 1)]? = ls[i]? := by
    intro i hi
    rw [List.getElem?_drop]
    congr 1
    omega
  unfold indentedEnd
  generalize indentedLength base (ls.drop (start + 1)) = n at hfills
  refine ⟨Nat.le_add_right _ _, ?_, ?_, ?_, ?_⟩
  · have := hfills.le_length
    rw [List.length_drop] at this
    omega
  · intro i line hi hle hline hnot
    exact hfills.deeper (i - (start + 1)) line (by omega) ((hget i hi).trans hline) hnot
  · intro hlt
    obtain ⟨line, hline, hnot⟩ := hfills.filled (n - 1) (by omega)
    refine ⟨line, ?_, hnot⟩
    rw [← hget (start + n) hlt, ← hline]
    congr 1
    omega
  · intro i line hi hline hnot hblank
    refine hfills.stops (i - (start + 1)) line (by omega) ((hget i (by omega)).trans hline) hnot ?_
    intro j l hj hji hl
    refine hblank (j + (start + 1)) l (by omega) (by omega) ?_
    rw [← hl, ← hget _ (by omega), Nat.add_sub_cancel]

/-- If a line that is not blank follows the end of an indented body, then the first such line is not
indented deeper. -/
theorem EndsIndented.exists_shallow {last i : Nat} {line : String}
    (h : EndsIndented ls start base last) (hi : last < i) (hline : ls[i]? = some line)
    (hnot : allBlank line.toList = false) :
    ∃ j l, last < j ∧ j ≤ i ∧ ls[j]? = some l ∧ allBlank l.toList = false ∧
      (indentation l : Int) ≤ base := by
  induction i using Nat.strongRecOn generalizing line with
  | _ i ih =>
  by_cases hblank : ∀ j l, last < j → j < i → ls[j]? = some l → allBlank l.toList = true
  · exact ⟨i, line, hi, Nat.le_refl _, hline, hnot, h.stops i line hi hline hnot hblank⟩
  · simp only [Classical.not_forall, Bool.not_eq_true] at hblank
    obtain ⟨j, l, hj, hji, hl, hfilled⟩ := hblank
    obtain ⟨k, m, hk, hkj, hm⟩ := ih j hji hj hl hfilled
    exact ⟨k, m, hk, Nat.le_trans hkj (Nat.le_of_lt hji), hm⟩

/-- An indented body that starts within another one ends within it, if it is measured by no less. -/
theorem EndsIndented.last_le {base' : Int} {last start' last' : Nat}
    (h : EndsIndented ls start base last) (h' : EndsIndented ls start' base' last')
    (hle : start' ≤ last) (hbase : base ≤ base') : last' ≤ last := by
  refine Nat.le_of_not_lt fun hover => ?_
  obtain ⟨end', hend, hfilled⟩ := h'.filled (Nat.lt_of_le_of_lt hle hover)
  -- after the outer body comes a shallow line, which the inner body cannot have passed
  obtain ⟨j, l, hj, hjl, hl, hshown, hshallow⟩ := h.exists_shallow hover hend hfilled
  have := h'.deeper j l (Nat.lt_of_le_of_lt hle hj) hjl hl hshown
  omega

/-- An indented body that starts within another one ends within it, and its header is indented
deeper than what the other one is measured by. -/
theorem EndsIndented.nests {last start' last' : Nat} {line : String}
    (h : EndsIndented ls start base last) (h' : EndsIndented ls start' (indentation line) last')
    (hline : ls[start']? = some line) (hnot : allBlank line.toList = false)
    (hlt : start < start') (hle : start' ≤ last) :
    last' ≤ last ∧ base < indentation line := by
  have hdeep : base < indentation line := h.deeper start' line hlt hle hline hnot
  exact ⟨h.last_le h' hle (Int.le_of_lt hdeep), hdeep⟩

/-- The end of the indented body of the declaration in line `start` is the one line, not before
`start`, with these properties: every line after `start` up to it that is not blank is indented
deeper than `base`; it is `start` or not blank; and the first line after it that is not blank, if
there is one, is not indented deeper.  The text of the body is that of the lines up to it. -/
theorem indentedEnd_unique (base : Int) (h : start < ls.length) :
    (∀ last, last = indentedEnd ls start base ↔
      start ≤ last ∧
        (∀ i line, start < i → i ≤ last → ls[i]? = some line → allBlank line.toList = false →
          base < indentation line) ∧
        (last = start ∨ ∃ line, ls[last]? = some line ∧ allBlank line.toList = false) ∧
        ∀ i line, last < i → ls[i]? = some line → allBlank line.toList = false →
          (∀ j l, last < j → j < i → ls[j]? = some l → allBlank l.toList = true) →
          (indentation line : Int) ≤ base) ∧
      IsSlice ls start (indentedEnd ls start base) (slice ls start (indentedEnd ls start base)) := by
  have hends := endsIndented_indentedEnd base h
  refine ⟨fun last => ⟨?_, ?_⟩, isSlice_slice hends.start_le hends.lt_length⟩
  · rintro rfl
    refine ⟨hends.start_le, hends.deeper, ?_, hends.stops⟩
    rcases Nat.eq_or_lt_of_le hends.start_le with heq | hlt
    · exact .inl heq.symm
    · exact .inr (hends.filled hlt)
  · rintro ⟨hle, hdeeper, hlast, hstops⟩
    have hlt : last < ls.length := by
      rcases hlast with rfl | ⟨line, hline, -⟩
      · exact h
      · exact (List.getElem?_eq_some_iff.mp hline).1
    have hother : EndsIndented ls start base last :=
      ⟨hle, hlt, hdeeper, fun hlate => hlast.resolve_left (Nat.ne_of_gt hlate), hstops⟩
    apply Nat.le_antisymm
    · exact hends.last_le hother hends.start_le (Int.le_refl base)
    · exact hother.last_le hends hle (Int.le_refl base)

/-- Blank lines stand within the body and after it, a tab counts as much as a space, and a blank line
may be indented less or more. -/
theorem indentedEnd_unique_sample :
    let ls := ["x", " def f():", "    a", "", "\t\tb", "      ", " c", "  d"]
    1 < ls.length ∧ 4 = indentedEnd ls 1 1 ∧ 5 ≠ indentedEnd ls 1 1 ∧
      IsSlice ls 1 4 " def f():\n    a\n\n\t\tb" := by
  intro ls
  obtain ⟨hends, hslice⟩ := indentedEnd_unique 1 (show 1 < ls.length by decide)
  have hend : indentedEnd ls 1 1 = 4 := by decide +kernel
  refine ⟨by decide, hend.symm, fun hblank => ?_, ?_⟩
  · obtain ⟨-, -, hlast, -⟩ := (hends 5).mp hblank
    rcases hlast with hstart | ⟨line, hline, hshown⟩
    · exact absurd hstart (by decide)
    · obtain rfl : "      " = line := Option.some.inj hline
      exact absurd hshown (by decide)
  · rw [hend] at hslice
    exact hslice

/-! ### Bodies of every kind -/

theorem Rule.le_finish (rule : Rule) (ls : List String) (start : Nat) :
    start ≤ rule.finish ls start := by
  cases rule with
  | none => exact Nat.le_refl _
  | braced => exact le_bracedEnd ls start
  | indented => exact Nat.le_add_right _ _
  | expression => exact Nat.le_add_right _ _

theorem Rule.finish_lt (rule : Rule) (h : start < ls.length) :
    rule.finish ls start < ls.length := by
  cases rule with
  | none => exact h
  | braced => exact bracedEnd_lt h
  | indented => exact (endsIndented_indentedEnd _ h).lt_length
  | expression => exact expressionEnd_lt h

end BlockIndex.Body
