import BlockIndex.Proofs.Block.Body

/-! Bodies in braces.  The scan that counts braces line by line ends at the brace that matches the first
one: those between the two are balanced (`bracedEnd_matches`).  For balanced braces leave the depth
of the scan as it is, and a scan that ends has passed balanced braces. -/

namespace BlockIndex.Body

open Text

/-- A brace: the number of the line in which it stands, and whether it opens. -/
structure Brace where
  line : Nat
  opens : Bool

/-- The braces among the characters of line `n`. -/
def bracesOf (n : Nat) (s : List Char) : List Brace :=
  s.filterMap fun c =>
    if c = '{' then some ⟨n, true⟩ else if c = '}' then some ⟨n, false⟩ else none

/-- The braces of lines of which the first has number `n`. -/
def bracesFrom (n : Nat) : List String → List Brace
  | [] => []
  | l :: ls => bracesOf n l.toList ++ bracesFrom (n + 1) ls

/-- The braces from line `start` on. -/
def bracesAfter (ls : List String) (start : Nat) : List Brace :=
  bracesFrom start (ls.drop start)

/-- Braces that match one another in pairs: after an opening one come balanced braces, the closing
brace that matches it, and balanced braces. -/
inductive Balanced : List Brace → Prop
  | nil : Balanced []
  | pair {o c : Brace} {u v : List Brace} (hopens : o.opens = true) (hcloses : c.opens = false)
      (hu : Balanced u) (hv : Balanced v) : Balanced (o :: (u ++ c :: v))

/-- The opening brace before the braces `bs` is matched by `c`, one of them that closes: the braces
between the two are balanced. -/
def MatchedBy (bs : List Brace) (c : Brace) : Prop :=
  c.opens = false ∧ ∃ u v, bs = u ++ c :: v ∧ Balanced u

/-- The line of the brace at which a body ends. -/
def closingLine? (b : Braces) : List Brace → Option Nat
  | [] => none
  | x :: xs =>
    if x.opens then closingLine? ⟨b.depth + 1, true⟩ xs
    else if b.opened && decide (b.depth - 1 ≤ 0) then some x.line
    else closingLine? ⟨b.depth - 1, b.opened⟩ xs

variable {ls : List String} {start n : Nat} {x o c : Brace} {xs u : List Brace}
  {depth : Int}

/-! ### The scan of the braces -/

theorem closingLine?_bracesOf_append (b : Braces) (n : Nat) (s : List Char) (xs : List Brace) :
    closingLine? b (bracesOf n s ++ xs) =
      match b.pass s with
      | none => some n
      | some b' => closingLine? b' xs := by
  induction s generalizing b with
  | nil => rfl
  | cons c s ih =>
    unfold Braces.pass
    by_cases hopen : c = '{'
    · have hfirst : bracesOf n (c :: s) = ⟨n, true⟩ :: bracesOf n s := by
        simp [bracesOf, hopen]
      rw [hfirst, if_pos hopen, ← ih]
      rfl
    · by_cases hclose : c = '}'
      · have hfirst : bracesOf n (c :: s) = ⟨n, false⟩ :: bracesOf n s := by
          simp [bracesOf, hclose]
        rw [hfirst, if_neg hopen, if_pos hclose, List.cons_append, closingLine?, if_neg (by simp)]
        split
        · rfl
        · exact ih ⟨b.depth - 1, b.opened⟩
      · have hskip : bracesOf n (c :: s) = bracesOf n s := by
          simp [bracesOf, hopen, hclose]
        rw [hskip, if_neg hopen, if_neg hclose, ih]

/-- The scan line by line ends in the line in which the scan of the braces does. -/
theorem closingLine?_bracesFrom (b : Braces) (n : Nat) (ls : List String) :
    closingLine? b (bracesFrom n ls) = (linesBeforeClose b ls).map (n + ·) := by
  induction ls generalizing b n with
  | nil => rfl
  | cons l ls ih =>
    rw [bracesFrom, closingLine?_bracesOf_append, linesBeforeClose]
    cases b.pass l.toList with
    | none => rfl
    | some b' =>
      simp only [ih, Option.map_map]
      congr 1
      funext m
      simp only [Function.comp_apply]
      omega

theorem closingLine?_opens {opened : Bool} (h : x.opens = true) :
    closingLine? ⟨depth, opened⟩ (x :: xs) = closingLine? ⟨depth + 1, true⟩ xs := by
  rw [closingLine?, if_pos h]

theorem closingLine?_closes (h : x.opens = false) (hdepth : 0 < depth) :
    closingLine? ⟨depth + 1, true⟩ (x :: xs) = closingLine? ⟨depth, true⟩ xs := by
  have hover : ¬depth ≤ 0 := by omega
  simp [closingLine?, h, hover]

/-- Where no brace opens, the scan does not end. -/
theorem closingLine?_of_closing (h : ∀ x ∈ xs, x.opens = false) :
    closingLine? ⟨depth, false⟩ xs = none := by
  induction xs generalizing depth with
  | nil => rfl
  | cons x xs ih =>
    obtain ⟨hx, hxs⟩ := List.forall_mem_cons.mp h
    simp [closingLine?, hx, ih hxs]

/-- Balanced braces inside an open one leave the scan as it is. -/
theorem closingLine?_balanced_append (hu : Balanced u) (hdepth : 0 < depth) (xs : List Brace) :
    closingLine? ⟨depth, true⟩ (u ++ xs) = closingLine? ⟨depth, true⟩ xs := by
  induction hu generalizing depth xs with
  | nil => rfl
  | @pair o c u v hopens hcloses _ _ ihu ihv =>
    calc closingLine? ⟨depth, true⟩ (o :: (u ++ c :: v) ++ xs)
        = closingLine? ⟨depth + 1, true⟩ (u ++ c :: (v ++ xs)) := by
          rw [List.cons_append, List.append_assoc, List.cons_append, closingLine?_opens hopens]
      _ = closingLine? ⟨depth + 1, true⟩ (c :: (v ++ xs)) := ihu (by omega) _
      _ = closingLine? ⟨depth, true⟩ (v ++ xs) := closingLine?_closes hcloses hdepth
      _ = closingLine? ⟨depth, true⟩ xs := ihv hdepth xs

/-- A scan inside an open brace that ends has passed balanced braces and a closing one. -/
theorem exists_matchedBy (hdepth : 0 < depth) (h : closingLine? ⟨depth, true⟩ xs = some n) :
    ∃ c, MatchedBy xs c := by
  induction hlength : xs.length using Nat.strongRecOn generalizing xs depth with
  | _ k ih =>
  subst hlength
  cases xs with
  | nil => cases h
  | cons x xs =>
    cases hx : x.opens with
    | false => exact ⟨x, hx, [], xs, rfl, .nil⟩
    | true =>
      -- the brace `x` is matched by some `c`, and the scan goes on after `c` at the same depth
      rw [closingLine?_opens hx] at h
      obtain ⟨c, hc, u, v, rfl, hu⟩ := ih xs.length (by simp) (by omega) h rfl
      rw [closingLine?_balanced_append hu (by omega), closingLine?_closes hc hdepth] at h
      obtain ⟨c', hc', u', v', rfl, hu'⟩ := ih v.length (by simp; omega) hdepth h rfl
      exact ⟨c', hc', x :: (u ++ c :: u'), v', by simp, .pair hx hc hu hu'⟩

/-- After an opening brace the scan ends in the line of the brace that matches it. -/
theorem closingLine?_of_matchedBy (ho : o.opens = true) (h : MatchedBy xs c) :
    closingLine? ⟨0, false⟩ (o :: xs) = some c.line := by
  obtain ⟨hc, u, v, rfl, hu⟩ := h
  rw [closingLine?_opens ho]
  change closingLine? ⟨1, true⟩ (u ++ c :: v) = _
  rw [closingLine?_balanced_append hu Int.one_pos]
  simp [closingLine?, hc]

theorem closingLine?_of_not_matchedBy (ho : o.opens = true) (h : ∀ c, ¬MatchedBy xs c) :
    closingLine? ⟨0, false⟩ (o :: xs) = none := by
  rw [closingLine?_opens ho]
  refine Option.eq_none_iff_forall_ne_some.mpr fun n hn => ?_
  obtain ⟨c, hc⟩ := exists_matchedBy Int.one_pos hn
  exact h c hc

/-! ### The end of a body -/

theorem exists_opens_bracesOf_iff {s : List Char} :
    (∃ x ∈ bracesOf n s, x.opens = true) ↔ '{' ∈ s := by
  constructor
  · rintro ⟨x, hx, hopens⟩
    obtain ⟨c, hc, heq⟩ := List.mem_filterMap.mp hx
    by_cases hopen : c = '{'
    · exact hopen ▸ hc
    · rw [if_neg hopen] at heq
      by_cases hclose : c = '}'
      · rw [if_pos hclose] at heq
        cases heq
        cases hopens
      · rw [if_neg hclose] at heq
        cases heq
  · intro hs
    exact ⟨⟨n, true⟩, List.mem_filterMap.mpr ⟨'{', hs, rfl⟩, rfl⟩

theorem exists_opens_bracesFrom_iff :
    (∃ x ∈ bracesFrom n ls, x.opens = true) ↔ ls.any (·.toList.contains '{') = true := by
  induction ls generalizing n with
  | nil => simp [bracesFrom]
  | cons l ls ih =>
    rw [List.any_cons, Bool.or_eq_true, List.contains_iff_mem, ← ih (n := n + 1),
      ← exists_opens_bracesOf_iff (n := n), bracesFrom]
    simp only [List.mem_append, or_and_right, exists_or]

theorem exists_opens_bracesAfter_iff : (∃ x ∈ bracesAfter ls start, x.opens = true) ↔
    (ls.drop start).any (·.toList.contains '{') = true :=
  exists_opens_bracesFrom_iff

theorem bracedEnd_of_closingLine?_eq_some
    (h : closingLine? ⟨0, false⟩ (bracesAfter ls start) = some n) : bracedEnd ls start = n := by
  rw [bracesAfter, closingLine?_bracesFrom] at h
  obtain ⟨m, hm, rfl⟩ := Option.map_eq_some_iff.mp h
  rw [bracedEnd, hm]

theorem bracedEnd_of_closingLine?_eq_none
    (h : closingLine? ⟨0, false⟩ (bracesAfter ls start) = none) :
    bracedEnd ls start =
      if (ls.drop start).any (·.toList.contains '{') then ls.length - 1 else start := by
  rw [bracesAfter, closingLine?_bracesFrom, Option.map_eq_none_iff] at h
  rw [bracedEnd, h]

theorem bracedEnd_of_unopened (h : ∀ x ∈ bracesAfter ls start, x.opens = false) :
    bracedEnd ls start = start := by
  rw [bracedEnd_of_closingLine?_eq_none (closingLine?_of_closing h), if_neg]
  rw [← exists_opens_bracesAfter_iff]
  rintro ⟨x, hx, hopens⟩
  exact Bool.false_ne_true ((h x hx).symm.trans hopens)

theorem bracedEnd_of_matchedBy (hbraces : bracesAfter ls start = o :: xs) (ho : o.opens = true)
    (h : MatchedBy xs c) : bracedEnd ls start = c.line :=
  bracedEnd_of_closingLine?_eq_some (hbraces ▸ closingLine?_of_matchedBy ho h)

theorem bracedEnd_of_not_matchedBy (hbraces : bracesAfter ls start = o :: xs)
    (ho : o.opens = true) (h : ∀ c, ¬MatchedBy xs c) : bracedEnd ls start = ls.length - 1 := by
  rw [bracedEnd_of_closingLine?_eq_none (hbraces ▸ closingLine?_of_not_matchedBy ho h), if_pos]
  rw [← exists_opens_bracesAfter_iff, hbraces]
  exact ⟨o, List.mem_cons_self, ho⟩

/-- The last line of the body in braces of the declaration in line `start`: that line itself if no
brace opens from it on; if the first brace opens, the line of the brace that matches it, and the
last line of the file if none does.  It lies within the file, not before `start`, and the text of
the body is that of the lines up to it. -/
theorem bracedEnd_matches (h : start < ls.length) :
    ((∀ x ∈ bracesAfter ls start, x.opens = false) → bracedEnd ls start = start) ∧
      (∀ o xs, bracesAfter ls start = o :: xs → o.opens = true →
        (∀ c, MatchedBy xs c → bracedEnd ls start = c.line) ∧
        ((∀ c, ¬MatchedBy xs c) → bracedEnd ls start = ls.length - 1)) ∧
      start ≤ bracedEnd ls start ∧ bracedEnd ls start < ls.length ∧
      IsSlice ls start (bracedEnd ls start) (slice ls start (bracedEnd ls start)) :=
  ⟨bracedEnd_of_unopened,
    fun _ _ hbraces ho => ⟨fun _ => bracedEnd_of_matchedBy hbraces ho,
      bracedEnd_of_not_matchedBy hbraces ho⟩,
    le_bracedEnd ls start, bracedEnd_lt h, isSlice_slice (le_bracedEnd ls start) (bracedEnd_lt h)⟩

/-- Braces open and close over several lines; those of the last declaration are never matched. -/
theorem bracedEnd_matches_sample :
    let ls := ["\x7d", "f \x7b\x7b", "\x7d \x7b\x7b\x7d", "\x7d\x7d\x7d", "g \x7b", "\x7b\x7d", "z"]
    1 < ls.length ∧ bracedEnd ls 1 = 3 ∧
      IsSlice ls 1 3 "f \x7b\x7b\n\x7d \x7b\x7b\x7d\n\x7d\x7d\x7d" ∧
      4 < ls.length ∧ bracedEnd ls 4 = 6 := by
  intro ls
  obtain ⟨-, hmatched, -, -, hslice⟩ := bracedEnd_matches (show 1 < ls.length by decide)
  obtain ⟨-, hlast, -⟩ := bracedEnd_matches (show 4 < ls.length by decide)
  have hinner : Balanced [⟨1, true⟩, ⟨2, false⟩, ⟨2, true⟩, ⟨2, true⟩, ⟨2, false⟩, ⟨3, false⟩] :=
    .pair rfl rfl .nil (.pair rfl rfl (.pair rfl rfl .nil .nil) .nil)
  have hend : bracedEnd ls 1 = 3 :=
    (hmatched ⟨1, true⟩ _ rfl rfl).1 ⟨3, false⟩ ⟨rfl, _, _, rfl, hinner⟩
  have hunmatched : ∀ c, ¬MatchedBy [⟨5, true⟩, ⟨5, false⟩] c := by
    rintro c ⟨hc, u, v, hsplit, hu⟩
    cases hu with
    | nil =>
      obtain ⟨rfl, -⟩ := List.cons.inj hsplit
      cases hc
    | pair =>
      have := congrArg List.length hsplit
      simp only [List.length_append, List.length_cons, List.length_nil] at this
      omega
  refine ⟨by decide, hend, ?_, by decide, (hlast ⟨4, true⟩ _ rfl rfl).2 hunmatched⟩
  rw [hend] at hslice
  exact hslice

end BlockIndex.Body
