import BlockIndex.Text.Lines

/-! The lines of a text.  Joined by line feeds, with one more if the text ends with one, the lines give
the text back (`joinLines_lines_append`). -/

namespace BlockIndex.Text

variable {s : List Char}

theorem lineChars_eq_nil_iff : lineChars s = [] ↔ s = [] := by
  cases s with
  | nil => simp [lineChars]
  | cons c r =>
    unfold lineChars
    split
    · simp
    · split <;> simp

theorem lines_eq_nil_iff {s : String} : lines s = [] ↔ s = "" := by
  rw [lines, List.map_eq_nil_iff, lineChars_eq_nil_iff, String.toList_eq_nil_iff]

/-! ### Lines joined -/

/-- A character that is not in the separator is in one of the joined texts. -/
theorem mem_intercalate {sep : List Char} {d : Char} (hd : d ∉ sep) {ls : List (List Char)} :
    d ∈ sep.intercalate ls ↔ ∃ l ∈ ls, d ∈ l := by
  induction ls with
  | nil => simp
  | cons l ls ih =>
    cases ls with
    | nil => simp
    | cons l' ls => simp only [List.intercalate_cons_cons, List.mem_append, ih]; simp [hd]

theorem intercalate_lineChars (s : List Char) :
    ['\n'].intercalate (lineChars s) ++ (if s.getLast? = some '\n' then ['\n'] else []) = s := by
  induction s with
  | nil => rfl
  | cons c r ih =>
    cases hr : lineChars r with
    | nil =>
      obtain rfl := lineChars_eq_nil_iff.mp hr
      by_cases hc : c = '\n' <;> simp [lineChars, hc]
    | cons first rest =>
      have hlast : (c :: r).getLast? = r.getLast? := by
        cases r with
        | nil => cases hr
        | cons d r => exact List.getLast?_cons_cons
      rw [hr] at ih
      rw [hlast]
      by_cases hc : c = '\n'
      · have hlines : lineChars (c :: r) = [] :: first :: rest := by
          rw [lineChars, if_pos hc, hr]
        rw [hlines, List.intercalate_cons_cons, List.nil_append, List.append_assoc, ih, hc]
        rfl
      · have hlines : lineChars (c :: r) = (c :: first) :: rest := by
          rw [lineChars, if_neg hc, hr]
        have hfirst : ['\n'].intercalate ((c :: first) :: rest) =
            c :: ['\n'].intercalate (first :: rest) := by
          cases rest <;> simp [List.intercalate_cons_cons]
        rw [hlines, hfirst, List.cons_append, ih]

/-- Joined groups of lines, joined, are the lines joined. -/
theorem joinLines_map_joinLines {gs : List (List String)} (h : ∀ g ∈ gs, g ≠ []) :
    joinLines (gs.map joinLines) = joinLines gs.flatten := by
  unfold joinLines
  induction gs with
  | nil => rfl
  | cons g gs ih =>
    obtain ⟨hg, hgs⟩ := List.forall_mem_cons.mp h
    cases gs with
    | nil => simp
    | cons g' gs =>
      have hrest : (g' :: gs).flatten ≠ [] := by
        simp [hgs g' List.mem_cons_self]
      have hjoined : "\n".intercalate (g :: g' :: gs).flatten =
          "\n".intercalate g ++ "\n" ++ "\n".intercalate (g' :: gs).flatten :=
        String.intercalate_append_of_ne_nil hg hrest
      rw [hjoined, ← ih hgs, List.map_cons, List.map_cons, String.intercalate_cons_cons]

/-- The line feed that ends a text, if one does. -/
def finalNewline (s : String) : String := if s.toList.getLast? = some '\n' then "\n" else ""

/-- The lines of a text, joined, and the line feed at its end give the text back. -/
theorem joinLines_lines_append (s : String) : joinLines (lines s) ++ finalNewline s = s := by
  have hlines : (lines s).map String.toList = lineChars s.toList := by
    simp [lines, Function.comp_def]
  have hfinal : (finalNewline s).toList =
      if s.toList.getLast? = some '\n' then ['\n'] else [] := by
    unfold finalNewline
    split <;> rfl
  apply String.toList_inj.mp
  rw [String.toList_append, joinLines, String.toList_intercalate, hlines, hfinal]
  exact intercalate_lineChars s.toList

end BlockIndex.Text
