import Mathlib.Algebra.GroupWithZero.Nat
import BlockIndex.Proofs.Tokens.Chunk

/-! Chunks under a limit.  The lines are divided into chunks each of which is a single line or stays
within the limit; no such division has fewer chunks, and no chunk but the last can take the line
after it (`chunks_fewest`).  For whatever a division does with the lines of the open chunk, it has
not got further than the open chunk has. -/

namespace BlockIndex.Tokens

open Text

variable {limit : Int} {ls current g d : List String} {cs : List (List String)}
  {tokens before : Nat} {c : Chunk} {l : String}

/-- The tokens of lines. -/
def weight (ls : List String) : Nat := (ls.map count).sum

/-- Lines that can be one chunk: a single line, or lines within the limit. -/
def Fits (limit : Int) (ls : List String) : Prop := ls.length = 1 ∨ (weight ls : Int) ≤ limit

/-- A division of lines into consecutive chunks, none of them empty, each of which can be one. -/
structure Division (limit : Int) (ls : List String) (cs : List (List String)) : Prop where
  whole : cs.flatten = ls
  filled : ∀ c ∈ cs, c ≠ []
  fits : ∀ c ∈ cs, Fits limit c

@[simp] theorem weight_nil : weight [] = 0 := rfl

@[simp] theorem weight_cons (l : String) (ls : List String) :
    weight (l :: ls) = count l + weight ls := rfl

@[simp] theorem weight_append (ls ls' : List String) :
    weight (ls ++ ls') = weight ls + weight ls' := by
  simp [weight]

theorem fits_singleton (limit : Int) (l : String) : Fits limit [l] := .inl rfl

/-- More lines than one fit only within the limit. -/
theorem Fits.weight_le (h : Fits limit ls) (hlength : 1 < ls.length) :
    (weight ls : Int) ≤ limit :=
  h.resolve_left (Nat.ne_of_gt hlength)

/-- What is left of a chunk without its first line fits too. -/
theorem Fits.tail (h : Fits limit (l :: ls)) (hne : ls ≠ []) : Fits limit ls := by
  have hlength : 0 < ls.length := List.length_pos_iff.mpr hne
  have hle := h.weight_le (by simpa using hlength)
  rw [weight_cons] at hle
  exact .inr (by omega)

/-! ### The open chunk -/

/-- The open chunk: its tokens are counted, and it can be a chunk if it has a line. -/
structure Opened (limit : Int) (current : List String) (tokens : Nat) : Prop where
  tokens_eq : tokens = weight current
  fits : current ≠ [] → Fits limit current

theorem opened_nil (limit : Int) : Opened limit [] 0 := ⟨rfl, fun h => absurd rfl h⟩

theorem opened_singleton (limit : Int) (l : String) : Opened limit [l] (count l) :=
  ⟨rfl, fun _ => fits_singleton limit l⟩

/-- The line after an open chunk is over the limit exactly if the two do not fit together. -/
theorem Opened.over_iff (h : Opened limit current tokens) :
    (!current.isEmpty && decide (limit < ((tokens + count l : Nat) : Int))) = true ↔
      current ≠ [] ∧ ¬Fits limit (current ++ [l]) := by
  have hweight : weight (current ++ [l]) = tokens + count l := by
    rw [weight_append, h.tokens_eq]
    rfl
  rw [Bool.and_eq_true, Bool.not_eq_true', List.isEmpty_eq_false_iff, decide_eq_true_iff]
  refine and_congr_right fun hne => ?_
  have hlength : 1 < (current ++ [l]).length := by
    have := List.length_pos_iff.mpr hne
    rw [List.length_append]
    exact Nat.lt_add_of_pos_left this
  unfold Fits
  rw [hweight, not_or]
  omega

/-- An open chunk that takes the next line is one. -/
theorem Opened.take (h : Opened limit current tokens)
    (hroom : current = [] ∨ Fits limit (current ++ [l])) :
    Opened limit (current ++ [l]) (tokens + count l) where
  tokens_eq := by
    rw [weight_append, h.tokens_eq]
    rfl
  fits _ := by
    rcases hroom with rfl | hfits
    · exact fits_singleton limit l
    · exact hfits

/-- What comes of the lines from an open chunk on: it is closed where the next line does not fit
with it, and takes the line otherwise. -/
theorem Opened.divideFrom_cons (h : Opened limit current tokens) (l : String) (ls : List String) :
    (current ≠ [] ∧ ¬Fits limit (current ++ [l]) ∧
        divideFrom limit current tokens (l :: ls) =
          current :: divideFrom limit [l] (count l) ls) ∨
      (Opened limit (current ++ [l]) (tokens + count l) ∧
        divideFrom limit current tokens (l :: ls) =
          divideFrom limit (current ++ [l]) (tokens + count l) ls) := by
  rw [divideFrom]
  by_cases hover : (!current.isEmpty && decide (limit < ((tokens + count l : Nat) : Int))) = true
  · obtain ⟨hne, hfits⟩ := h.over_iff.mp hover
    exact .inl ⟨hne, hfits, if_pos hover⟩
  · refine .inr ⟨h.take ?_, if_neg hover⟩
    by_cases hne : current = []
    · exact .inl hne
    · refine .inr (Classical.not_not.mp fun hfits => hover (h.over_iff.mpr ⟨hne, hfits⟩))

theorem fits_of_mem_divideFrom (h : Opened limit current tokens)
    (hg : g ∈ divideFrom limit current tokens ls) : Fits limit g := by
  induction ls generalizing current tokens with
  | nil =>
    unfold divideFrom at hg
    split at hg
    · cases hg
    · next hfilled =>
      obtain rfl := List.mem_singleton.mp hg
      exact h.fits (by simpa using hfilled)
  | cons l ls ih =>
    rcases h.divideFrom_cons l ls with ⟨hne, -, heq⟩ | ⟨hopened, heq⟩
    · rw [heq] at hg
      rcases List.mem_cons.mp hg with rfl | hg
      · exact h.fits hne
      · exact ih (opened_singleton limit l) hg
    · rw [heq] at hg
      exact ih hopened hg

/-- The chunks are a division of the lines. -/
theorem division_divide (limit : Int) (ls : List String) :
    Division limit ls (divide limit ls) where
  whole := flatten_divide limit ls
  filled _ hg := ne_nil_of_mem_divideFrom hg
  fits _ hg := fits_of_mem_divideFrom (opened_nil limit) hg

/-- A chunk with a chunk after it does not fit with the line after it. -/
theorem not_fits_of_divideFrom {gs gs' : List (List String)} (h : Opened limit current tokens)
    (heq : divideFrom limit current tokens ls = gs ++ g :: gs') (hne : gs' ≠ []) :
    ∃ l, gs'.flatten.head? = some l ∧ ¬Fits limit (g ++ [l]) := by
  induction ls generalizing current tokens gs with
  | nil =>
    have hshort : (divideFrom limit current tokens []).length ≤ 1 := by
      unfold divideFrom
      split
      · exact Nat.zero_le 1
      · exact Nat.le_refl 1
    have hrest := List.length_pos_iff.mpr hne
    rw [heq, List.length_append, List.length_cons] at hshort
    omega
  | cons l ls ih =>
    rcases h.divideFrom_cons l ls with ⟨-, hfits, hclosed⟩ | ⟨hopened, htaken⟩
    · rw [hclosed] at heq
      cases gs with
      | nil =>
        obtain ⟨rfl, rfl⟩ := List.cons.inj heq
        refine ⟨l, ?_, hfits⟩
        rw [flatten_divideFrom]
        rfl
      | cons g' gs => exact ih (opened_singleton limit l) (List.cons.inj heq).2
    · rw [htaken] at heq
      exact ih hopened heq

/-! ### Other divisions -/

/-- Without its first line, the lines can be divided into no more chunks. -/
theorem Division.tail (h : Division limit (l :: ls) cs) :
    ∃ cs', Division limit ls cs' ∧ cs'.length ≤ cs.length := by
  obtain ⟨hwhole, hfilled, hfits⟩ := h
  cases cs with
  | nil => cases hwhole
  | cons c cs =>
    obtain ⟨l', c, rfl⟩ := List.exists_cons_of_ne_nil (hfilled c List.mem_cons_self)
    rw [List.flatten_cons, List.cons_append] at hwhole
    obtain ⟨rfl, rfl⟩ := List.cons.inj hwhole
    have hrest : Division limit cs.flatten cs :=
      ⟨rfl, fun g hg => hfilled g (List.mem_cons_of_mem _ hg),
        fun g hg => hfits g (List.mem_cons_of_mem _ hg)⟩
    by_cases hc : c = []
    · subst hc
      exact ⟨cs, hrest, Nat.le_succ _⟩
    · refine ⟨c :: cs, ⟨rfl, List.forall_mem_cons.mpr ⟨hc, hrest.filled⟩, ?_⟩, Nat.le_refl _⟩
      exact List.forall_mem_cons.mpr ⟨(hfits _ List.mem_cons_self).tail hc, hrest.fits⟩

theorem Division.suffix (h : Division limit (d ++ ls) cs) :
    ∃ cs', Division limit ls cs' ∧ cs'.length ≤ cs.length := by
  induction d generalizing cs with
  | nil => exact ⟨cs, h, Nat.le_refl _⟩
  | cons l d ih =>
    obtain ⟨cs', hcs', hle⟩ := h.tail
    obtain ⟨cs'', hcs'', hle'⟩ := ih hcs'
    exact ⟨cs'', hcs'', Nat.le_trans hle' hle⟩

/-- A first chunk gets no further than lines that do not fit with the line after them. -/
theorem Division.first_le (h : Division limit (current ++ l :: ls) (g :: cs)) (hne : current ≠ [])
    (hfits : ¬Fits limit (current ++ [l])) : ∃ d, cs.flatten = d ++ l :: ls := by
  have hwhole := h.whole
  rw [List.flatten_cons] at hwhole
  rcases List.append_eq_append_iff.mp hwhole with ⟨d, -, hrest⟩ | ⟨b, hg, hrest⟩
  · exact ⟨d, hrest⟩
  · cases b with
    | nil => exact ⟨[], hrest.symm⟩
    | cons l' b =>
      obtain ⟨rfl, -⟩ := List.cons.inj hrest
      have hlength : 0 < current.length := List.length_pos_iff.mpr hne
      have hle := (h.fits g List.mem_cons_self).weight_le (by simp [hg]; omega)
      refine absurd (.inr ?_) hfits
      simp only [hg, weight_append, weight_cons, weight_nil] at hle ⊢
      omega

/-- No division of the lines from the open chunk on has fewer chunks. -/
theorem length_divideFrom_le (h : Opened limit current tokens)
    (hcs : Division limit (current ++ ls) cs) :
    (divideFrom limit current tokens ls).length ≤ cs.length := by
  induction ls generalizing current tokens cs with
  | nil =>
    unfold divideFrom
    split
    · exact Nat.zero_le _
    · next hfilled =>
      refine List.length_pos_iff.mpr ?_
      rintro rfl
      have hwhole := hcs.whole
      rw [List.append_nil] at hwhole
      exact hfilled (List.isEmpty_iff.mpr hwhole.symm)
  | cons l ls ih =>
    rcases h.divideFrom_cons l ls with ⟨hne, hfits, hclosed⟩ | ⟨hopened, htaken⟩
    · cases cs with
      | nil =>
        have hwhole := hcs.whole
        simp at hwhole
      | cons g cs =>
        -- the first chunk of the division lies within the closed one, so the others divide
        -- at least the lines from `l` on
        obtain ⟨d, hd⟩ := hcs.first_le hne hfits
        have hrest : Division limit (d ++ l :: ls) cs :=
          ⟨hd, fun g hg => hcs.filled g (List.mem_cons_of_mem _ hg),
            fun g hg => hcs.fits g (List.mem_cons_of_mem _ hg)⟩
        obtain ⟨cs', hcs', hle⟩ := hrest.suffix
        rw [hclosed]
        exact Nat.succ_le_succ (Nat.le_trans (ih (opened_singleton limit l) hcs') hle)
    · rw [htaken]
      refine ih hopened ?_
      rwa [List.append_assoc]

/-! ### Numbered chunks -/

/-- The lines from the first one of a chunk to its last one. -/
def Chunk.linesIn (ls : List String) (c : Chunk) : List String :=
  (ls.drop (c.first - 1)).take (c.last + 1 - c.first)

theorem map_linesIn_number (hls : ls.drop before = cs.flatten) :
    (number before cs).map (·.linesIn ls) = cs := by
  induction cs generalizing before with
  | nil => rfl
  | cons g cs ih =>
    rw [List.flatten_cons] at hls
    have hnext : ls.drop (before + g.length) = cs.flatten := by
      rw [← List.drop_drop, hls, List.drop_left]
    have hfirst : (ls.drop (before + 1 - 1)).take (before + g.length + 1 - (before + 1)) = g := by
      rw [Nat.add_sub_cancel, hls, Nat.add_sub_add_right, Nat.add_sub_cancel_left, List.take_left]
    rw [number, List.map_cons, ih hnext, Chunk.linesIn, hfirst]

theorem map_linesIn_chunks (limit : Int) (ls : List String) :
    (chunks limit ls).map (·.linesIn ls) = divide limit ls :=
  map_linesIn_number (flatten_divide limit ls).symm

/-- The lines after a chunk are those of the chunks after it. -/
theorem drop_last_of_number {ds ds' : List Chunk} (hls : ls.drop before = cs.flatten)
    (h : number before cs = ds ++ c :: ds') :
    ls.drop c.last = (ds'.map (·.linesIn ls)).flatten := by
  induction cs generalizing before ds with
  | nil => simp [number] at h
  | cons g cs ih =>
    have hnext : ls.drop (before + g.length) = cs.flatten := by
      rw [← List.drop_drop, hls, List.flatten_cons, List.drop_left]
    rw [number] at h
    cases ds with
    | nil =>
      obtain ⟨rfl, rfl⟩ := List.cons.inj h
      rw [map_linesIn_number hnext]
      exact hnext
    | cons d ds => exact ih hnext (List.cons.inj h).2

/-- The chunks divide the lines under the limit, no division of the lines under the limit has fewer
chunks, and a chunk with another one after it does not fit with the line after it. -/
theorem chunks_fewest (limit : Int) (ls : List String) :
    Division limit ls ((chunks limit ls).map (·.linesIn ls)) ∧
      (∀ cs, Division limit ls cs → (chunks limit ls).length ≤ cs.length) ∧
      ∀ ds c ds', chunks limit ls = ds ++ c :: ds' → ds' ≠ [] →
        ∃ l, ls[c.last]? = some l ∧ ¬Fits limit (c.linesIn ls ++ [l]) := by
  refine ⟨?_, fun cs hcs => ?_, fun ds c ds' hsplit hne => ?_⟩
  · rw [map_linesIn_chunks]
    exact division_divide limit ls
  · have hlength := congrArg List.length (map_linesIn_chunks limit ls)
    rw [List.length_map] at hlength
    rw [hlength]
    exact length_divideFrom_le (opened_nil limit) hcs
  · have hgroups := map_linesIn_chunks limit ls
    rw [hsplit, List.map_append, List.map_cons] at hgroups
    obtain ⟨l, hl, hfits⟩ :=
      not_fits_of_divideFrom (opened_nil limit) hgroups.symm (by simpa using hne)
    have hwhole : ls.drop 0 = (divide limit ls).flatten := (flatten_divide limit ls).symm
    refine ⟨l, ?_, hfits⟩
    rw [← List.head?_drop, drop_last_of_number hwhole hsplit]
    exact hl

/-- A line over the limit stands alone, though a line without tokens comes before it. -/
theorem chunks_fewest_sample :
    let ls := ["a b", "", "c d e", "f", "g"]
    let apart := [["a b"], [""], ["c d e"], ["f"], ["g"]]
    Division 2 ls apart ∧ (chunks 2 ls).length = 3 ∧ (chunks 2 ls).length ≤ apart.length ∧
      ∃ l, ls[2]? = some l ∧ ¬Fits 2 (["a b", ""] ++ [l]) := by
  intro ls apart
  have halone : ∀ g ∈ apart, g.length = 1 := by decide
  have hapart : Division 2 ls apart := ⟨rfl, by decide, fun g hg => .inl (halone g hg)⟩
  have hchunks : (chunks 2 ls).map (fun c => (c.last, c.linesIn ls)) =
      [(2, ["a b", ""]), (3, ["c d e"]), (5, ["f", "g"])] := by decide +kernel
  obtain ⟨-, hfewest, hstops⟩ := chunks_fewest 2 ls
  refine ⟨hapart, by simpa using congrArg List.length hchunks, hfewest apart hapart, ?_⟩
  obtain ⟨c, ds, hsplit, hc, hds⟩ := List.map_eq_cons_iff.mp hchunks
  obtain ⟨hlast, hlines⟩ := Prod.mk.inj hc
  have hne : ds ≠ [] := by
    rintro rfl
    cases hds
  have hfirst := hstops [] c ds hsplit hne
  rwa [hlast, hlines] at hfirst

end BlockIndex.Tokens
