import BlockIndex.Proofs.Text.Blank
import BlockIndex.Text.Lines

/-! The rows of a text without the blank characters around them, blank rows left out.  How line ends
are written does not matter for them.  A text has itself, stripped, for its only such row exactly if
no character of it that ends a row stands between others that are not blank
(`rowTexts_eq_stripped_iff`). -/

namespace BlockIndex.Text

variable {c : Char} {s x y : List Char}

/-- The rows of a text that are not blank, without the blank characters around them. -/
def rowTexts (s : List Char) : List (List Char) :=
  ((rowChars s).map strip).filter fun r => !r.isEmpty

/-- A text without the blank characters around it, unless it is blank. -/
def stripped (s : List Char) : List (List Char) := [strip s].filter fun r => !r.isEmpty

/-! ### Stripping -/

theorem allBlank_append : allBlank (x ++ y) = (allBlank x && allBlank y) := List.all_append

theorem stripLeft_append_of_allBlank (h : allBlank x = true) :
    stripLeft (x ++ y) = stripLeft y := by
  rw [stripLeft, List.dropWhile_append, if_pos, stripLeft]
  exact List.isEmpty_iff.mpr (stripLeft_eq_nil_iff.mpr h)

theorem strip_append_of_allBlank_left (h : allBlank x = true) : strip (x ++ y) = strip y := by
  rw [strip, stripLeft_append_of_allBlank h, strip]

theorem stripRight_append_of_allBlank (h : allBlank y = true) :
    stripRight (x ++ y) = stripRight x := by
  have hrev : allBlank y.reverse = true := List.all_reverse.trans h
  have hleft : stripLeft (y.reverse ++ x.reverse) = stripLeft x.reverse :=
    stripLeft_append_of_allBlank hrev
  rw [stripRight, List.reverse_append]
  exact congrArg List.reverse hleft

theorem strip_append_of_allBlank_right (h : allBlank y = true) : strip (x ++ y) = strip x := by
  cases hx : allBlank x with
  | true =>
    have hboth : allBlank (x ++ y) = true := by rw [allBlank_append, hx, h]; rfl
    rw [strip_eq_nil_iff.mpr hboth, strip_eq_nil_iff.mpr hx]
  | false =>
    have hleft : stripLeft (x ++ y) = stripLeft x ++ y := by
      have hne : ¬(x.dropWhile isBlank).isEmpty = true := by
        intro hnil
        have hall := stripLeft_eq_nil_iff.mp (List.isEmpty_iff.mp hnil)
        simp [hx] at hall
      rw [stripLeft, List.dropWhile_append, if_neg hne, stripLeft]
    rw [strip, hleft, stripRight_append_of_allBlank h, strip]

theorem allBlank_leading (s : List Char) : allBlank (leading s) = true :=
  List.all_eq_true.mpr fun _ => isBlank_of_mem_leading

theorem allBlank_trailing (s : List Char) : allBlank (trailing s) = true :=
  List.all_eq_true.mpr fun _ => isBlank_of_mem_trailing

theorem strip_strip (s : List Char) : strip (strip s) = strip s := by
  have hsplit : strip (leading s ++ strip s ++ trailing s) = strip (strip s) := by
    rw [strip_append_of_allBlank_right (allBlank_trailing s),
      strip_append_of_allBlank_left (allBlank_leading s)]
  rw [← hsplit, leading_append_strip_append_trailing]

theorem length_strip_le (s : List Char) : (strip s).length ≤ s.length := by
  have hlen := congrArg List.length (leading_append_strip_append_trailing s)
  simp only [List.length_append] at hlen
  omega

theorem stripped_of_allBlank (h : allBlank s = true) : stripped s = [] := by
  rw [stripped, strip_eq_nil_iff.mpr h]
  rfl

/-! ### Rows one by one -/

theorem isBlank_of_endsRow (h : endsRow c = true) : isBlank c = true := by
  simp only [endsRow, Bool.or_eq_true, decide_eq_true_eq] at h
  rcases h with ((((((((h | h) | h) | h) | h) | h) | h) | h) | h) | h <;> subst h <;> decide

theorem allBlank_cons_of_endsRow (h : endsRow c = true) : allBlank (c :: y) = allBlank y := by
  rw [allBlank, List.all_cons, isBlank_of_endsRow h, Bool.true_and, allBlank]

theorem rowChars_append_cons (hx : ∀ d ∈ x, endsRow d = false) (hc : endsRow c = true) :
    rowChars (x ++ c :: y) = x :: rowChars y := by
  induction x with
  | nil => rw [List.nil_append, rowChars, if_pos hc]
  | cons d x ih =>
    obtain ⟨hd, hx⟩ := List.forall_mem_cons.mp hx
    rw [List.cons_append, rowChars, if_neg (Bool.eq_false_iff.mp hd), ih hx]

theorem rowChars_of_ne_nil (hne : x ≠ []) (hx : ∀ d ∈ x, endsRow d = false) :
    rowChars x = [x] := by
  induction x with
  | nil => exact absurd rfl hne
  | cons d x ih =>
    obtain ⟨hd, hx⟩ := List.forall_mem_cons.mp hx
    rw [rowChars, if_neg (Bool.eq_false_iff.mp hd)]
    cases x with
    | nil => rfl
    | cons e x => rw [ih (List.cons_ne_nil e x) hx]

/-- What holds of one row, and of a row before a text if it holds of the text, holds of every text.
-/
@[elab_as_elim]
theorem row_induction {P : List Char → Prop} (row : ∀ x, (∀ d ∈ x, endsRow d = false) → P x)
    (more : ∀ x c y, (∀ d ∈ x, endsRow d = false) → endsRow c = true → P y → P (x ++ c :: y))
    (s : List Char) : P s := by
  -- the row that is being read is kept in front
  have h : ∀ s x, (∀ d ∈ x, endsRow d = false) → P (x ++ s) := by
    intro s
    induction s with
    | nil =>
      intro x hx
      rw [List.append_nil]
      exact row x hx
    | cons c s ih =>
      intro x hx
      cases hc : endsRow c with
      | true => exact more x c s hx hc (ih [] fun _ hd => nomatch hd)
      | false =>
        rw [List.append_cons]
        refine ih (x ++ [c]) fun d hd => ?_
        rcases List.mem_append.mp hd with hd | hd
        · exact hx d hd
        · exact List.mem_singleton.mp hd ▸ hc
  exact h s [] fun _ hd => nomatch hd

theorem rowTexts_of_one_row (hx : ∀ d ∈ x, endsRow d = false) : rowTexts x = stripped x := by
  cases x with
  | nil => rfl
  | cons d x => rw [rowTexts, rowChars_of_ne_nil (List.cons_ne_nil d x) hx]; rfl

theorem rowTexts_of_row_append (hx : ∀ d ∈ x, endsRow d = false) (hc : endsRow c = true) :
    rowTexts (x ++ c :: y) = stripped x ++ rowTexts y := by
  rw [rowTexts, rowChars_append_cons hx hc, List.map_cons, ← List.singleton_append,
    List.filter_append]
  rfl

/-- The rows of two texts with the end of a row between them are those of the two. -/
theorem rowTexts_append_cons (hc : endsRow c = true) (x y : List Char) :
    rowTexts (x ++ c :: y) = rowTexts x ++ rowTexts y := by
  induction x using row_induction with
  | row x hx => rw [rowTexts_of_row_append hx hc, rowTexts_of_one_row hx]
  | more x d z hx hd ih =>
    rw [List.append_assoc, List.cons_append, rowTexts_of_row_append hx hd, ih,
      rowTexts_of_row_append hx hd, List.append_assoc]

theorem rowTexts_cons_of_endsRow (hc : endsRow c = true) (y : List Char) :
    rowTexts (c :: y) = rowTexts y :=
  rowTexts_append_cons hc [] y

/-! ### Blank rows and blank characters around rows -/

theorem rowTexts_eq_nil_iff : rowTexts s = [] ↔ allBlank s = true := by
  have hrow : ∀ x, stripped x = [] ↔ allBlank x = true := by
    intro x
    rw [← strip_eq_nil_iff]
    simp [stripped]
  induction s using row_induction with
  | row x hx => rw [rowTexts_of_one_row hx, hrow]
  | more x c y hx hc ih =>
    rw [rowTexts_of_row_append hx hc, List.append_eq_nil_iff, hrow, allBlank_append,
      allBlank_cons_of_endsRow hc, Bool.and_eq_true]
    exact and_congr_right fun _ => ih

theorem rowTexts_append_of_allBlank_left (hx : allBlank x = true) (y : List Char) :
    rowTexts (x ++ y) = rowTexts y := by
  induction x with
  | nil => rfl
  | cons c x ih =>
    obtain ⟨hc, hx⟩ := (Bool.and_eq_true _ _).mp hx
    rw [List.cons_append, ← ih hx]
    cases hends : endsRow c with
    | true => exact rowTexts_cons_of_endsRow hends _
    | false =>
      have hone : allBlank [c] = true := by simp [allBlank, hc]
      have hcons : ∀ z, (∀ d ∈ z, endsRow d = false) → ∀ d ∈ c :: z, endsRow d = false :=
        fun z hz => List.forall_mem_cons.mpr ⟨hends, hz⟩
      have hstrip : ∀ z, stripped (c :: z) = stripped z := by
        intro z
        have heq : strip (c :: z) = strip z := strip_append_of_allBlank_left hone
        rw [stripped, heq, stripped]
      generalize x ++ y = z
      induction z using row_induction with
      | row z hz => rw [rowTexts_of_one_row (hcons z hz), rowTexts_of_one_row hz, hstrip]
      | more z d u hz hd _ =>
        rw [← List.cons_append, rowTexts_of_row_append (hcons z hz) hd,
          rowTexts_of_row_append hz hd, hstrip]

theorem rowTexts_append_of_allBlank_right (hy : allBlank y = true) (x : List Char) :
    rowTexts (x ++ y) = rowTexts x := by
  induction x using row_induction with
  | row x hx =>
    rw [rowTexts_of_one_row hx]
    induction y using row_induction with
    | row y hy' =>
      have hboth : ∀ d ∈ x ++ y, endsRow d = false := List.forall_mem_append.mpr ⟨hx, hy'⟩
      rw [rowTexts_of_one_row hboth, stripped, strip_append_of_allBlank_right hy, stripped]
    | more y c z hy' hc _ =>
      have hboth : ∀ d ∈ x ++ y, endsRow d = false := List.forall_mem_append.mpr ⟨hx, hy'⟩
      rw [allBlank_append, allBlank_cons_of_endsRow hc, Bool.and_eq_true] at hy
      obtain ⟨hy, hz⟩ := hy
      rw [← List.append_assoc, rowTexts_of_row_append hboth hc, rowTexts_eq_nil_iff.mpr hz,
        List.append_nil, stripped, strip_append_of_allBlank_right hy, stripped]
  | more x c z hx hc ih =>
    rw [List.append_assoc, List.cons_append, rowTexts_of_row_append hx hc, ih,
      rowTexts_of_row_append hx hc]

theorem rowTexts_strip (s : List Char) : rowTexts (strip s) = rowTexts s := by
  rw [← rowTexts_append_of_allBlank_left (allBlank_leading s),
    ← rowTexts_append_of_allBlank_right (allBlank_trailing s),
    leading_append_strip_append_trailing]

/-- How line ends are written does not matter for the rows that are not blank. -/
theorem rowTexts_unifyLineEnds (s : List Char) : rowTexts (unifyLineEnds s) = rowTexts s := by
  -- the row that is being read is kept in front
  have h : ∀ s x, (∀ d ∈ x, endsRow d = false) →
      rowTexts (x ++ unifyLineEnds s) = rowTexts (x ++ s) := by
    intro s
    induction s using unifyLineEnds.induct with
    | case1 => exact fun x _ => rfl
    | case2 r ih =>
      intro x hx
      rw [unifyLineEnds, rowTexts_append_cons rfl, rowTexts_append_cons rfl,
        rowTexts_cons_of_endsRow rfl]
      exact congrArg _ (ih [] fun _ hd => nomatch hd)
    | case3 c r hnot ih =>
      intro x hx
      rw [unifyLineEnds.eq_3 c r hnot]
      by_cases hr : c = '\r'
      · rw [if_pos hr, hr, rowTexts_append_cons rfl, rowTexts_append_cons rfl]
        exact congrArg _ (ih [] fun _ hd => nomatch hd)
      · rw [if_neg hr]
        cases hc : endsRow c with
        | true =>
          rw [rowTexts_append_cons hc, rowTexts_append_cons hc]
          exact congrArg _ (ih [] fun _ hd => nomatch hd)
        | false =>
          rw [List.append_cons, List.append_cons x c r]
          exact ih (x ++ [c]) (List.forall_mem_append.mpr
            ⟨hx, List.forall_mem_singleton.mpr hc⟩)
  exact h s [] fun _ hd => nomatch hd

/-! ### Texts of one row -/

theorem length_stripped_le (s : List Char) : (stripped s).length ≤ (rowTexts s).length := by
  by_cases hs : allBlank s = true
  · rw [stripped_of_allBlank hs]
    exact Nat.zero_le _
  · have hpos : 0 < (rowTexts s).length :=
      List.length_pos_iff.mpr fun h => hs (rowTexts_eq_nil_iff.mp h)
    exact Nat.le_trans (List.length_filter_le _ _) hpos

/-- The end of a row inside a stripped text has texts on both sides. -/
theorem two_le_length_rowTexts (hc : c ∈ strip s) (hends : endsRow c = true) :
    2 ≤ (rowTexts s).length := by
  obtain ⟨x, y, hsplit⟩ := List.append_of_mem hc
  have hself : strip (x ++ c :: y) = x ++ c :: y := by rw [← hsplit, strip_strip]
  -- else stripping would take the end of the row away
  have hx : rowTexts x ≠ [] := by
    intro hnil
    have hblank : allBlank (x ++ [c]) = true := by
      rw [allBlank_append, rowTexts_eq_nil_iff.mp hnil, allBlank_cons_of_endsRow hends]
      rfl
    rw [List.append_cons, strip_append_of_allBlank_left hblank] at hself
    have hlen := length_strip_le y
    rw [hself] at hlen
    simp only [List.length_append, List.length_singleton] at hlen
    omega
  have hy : rowTexts y ≠ [] := by
    intro hnil
    have hblank : allBlank (c :: y) = true :=
      (allBlank_cons_of_endsRow hends).trans (rowTexts_eq_nil_iff.mp hnil)
    rw [strip_append_of_allBlank_right hblank] at hself
    have hlen := length_strip_le x
    rw [hself] at hlen
    simp only [List.length_append, List.length_cons] at hlen
    omega
  have hposx := List.length_pos_iff.mpr hx
  have hposy := List.length_pos_iff.mpr hy
  rw [← rowTexts_strip, hsplit, rowTexts_append_cons hends, List.length_append]
  omega

/-- A text has itself, stripped, for its only row exactly if no end of a row stands between
characters of it that are not blank. -/
theorem rowTexts_eq_stripped_iff :
    rowTexts s = stripped s ↔ ∀ c ∈ strip s, endsRow c = false := by
  constructor
  · intro heq c hc
    cases hends : endsRow c with
    | false => rfl
    | true =>
      have htwo := two_le_length_rowTexts hc hends
      have hone : (stripped s).length ≤ 1 := List.length_filter_le _ _
      rw [heq] at htwo
      omega
  · intro h
    rw [← rowTexts_strip, rowTexts_of_one_row h, stripped, strip_strip, stripped]

end BlockIndex.Text
