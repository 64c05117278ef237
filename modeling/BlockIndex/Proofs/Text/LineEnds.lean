import BlockIndex.Text.Lines

/-! Line ends in their three written forms.  A text without carriage returns whose line ends are all
written in one form is the same text once they are made line feeds (`unifyLineEnds_write`).  Mixed
forms would not do: a carriage return that ends a line and a line feed that ends an empty one are
together one line end. -/

namespace BlockIndex.Text

variable {c : Char} {r s : List Char}

/-- How the end of a line is written. -/
inductive LineEnd where
  | lineFeed
  | both
  | carriageReturn
  deriving DecidableEq, Repr

namespace LineEnd

def chars : LineEnd → List Char
  | lineFeed => ['\n']
  | both => ['\r', '\n']
  | carriageReturn => ['\r']

/-- A text with each of its line feeds written as a line end of one form. -/
def write (e : LineEnd) (s : List Char) : List Char :=
  s.flatMap fun c => if c = '\n' then e.chars else [c]

theorem write_cons (e : LineEnd) (c : Char) (r : List Char) :
    e.write (c :: r) = (if c = '\n' then e.chars else [c]) ++ e.write r := rfl

theorem lineFeed_not_mem_write (s : List Char) : '\n' ∉ carriageReturn.write s := by
  intro hmem
  obtain ⟨c, -, hc⟩ := List.mem_flatMap.mp hmem
  by_cases hn : c = '\n'
  · simp [hn, chars] at hc
  · rw [if_neg hn, List.mem_singleton] at hc
    exact hn hc.symm

end LineEnd

theorem unifyLineEnds_cons_of_ne (h : c ≠ '\r') :
    unifyLineEnds (c :: r) = c :: unifyLineEnds r := by
  rw [unifyLineEnds.eq_3 c r fun _ hc => absurd hc h, if_neg h]

theorem unifyLineEnds_both (r : List Char) :
    unifyLineEnds ('\r' :: '\n' :: r) = '\n' :: unifyLineEnds r := by
  rw [unifyLineEnds]

theorem unifyLineEnds_carriageReturn (h : '\n' ∉ r) :
    unifyLineEnds ('\r' :: r) = '\n' :: unifyLineEnds r := by
  rw [unifyLineEnds.eq_3 '\r' r, if_pos rfl]
  rintro r' - rfl
  exact h List.mem_cons_self

theorem unifyLineEnds_write (e : LineEnd) (h : '\r' ∉ s) : unifyLineEnds (e.write s) = s := by
  induction s with
  | nil => rfl
  | cons c r ih =>
    obtain ⟨hc, hr⟩ := not_or.mp (mt List.mem_cons.mpr h)
    rw [LineEnd.write_cons]
    by_cases hn : c = '\n'
    · rw [if_pos hn, hn]
      cases e with
      | lineFeed =>
        show unifyLineEnds ('\n' :: LineEnd.lineFeed.write r) = '\n' :: r
        rw [unifyLineEnds_cons_of_ne (by decide), ih hr]
      | both =>
        show unifyLineEnds ('\r' :: '\n' :: LineEnd.both.write r) = '\n' :: r
        rw [unifyLineEnds_both, ih hr]
      | carriageReturn =>
        show unifyLineEnds ('\r' :: LineEnd.carriageReturn.write r) = '\n' :: r
        rw [unifyLineEnds_carriageReturn (LineEnd.lineFeed_not_mem_write r), ih hr]
    · rw [if_neg hn, List.singleton_append, unifyLineEnds_cons_of_ne (Ne.symm hc), ih hr]

end BlockIndex.Text
