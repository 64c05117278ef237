import Mathlib.Data.List.Chain
import BlockIndex.Tokens.Chunk

/-! Chunks of lines.  Put together, the chunks are the lines that were divided, and none is empty; so
each numbered chunk holds just the lines that its numbers say, and it starts after the one before it
ends. -/

namespace BlockIndex.Tokens

open Text

variable {limit : Int} {ls current : List String} {tokens before : Nat} {cs : List (List String)}
  {c d : Chunk}

theorem flatten_divideFrom (limit : Int) (current : List String) (tokens : Nat)
    (ls : List String) : (divideFrom limit current tokens ls).flatten = current ++ ls := by
  induction ls generalizing current tokens with
  | nil =>
    unfold divideFrom
    split
    · next hempty => simp [List.isEmpty_iff.mp hempty]
    · simp
  | cons l ls ih =>
    unfold divideFrom
    split
    · rw [List.flatten_cons, ih]
      rfl
    · rw [ih, List.append_assoc]
      rfl

theorem flatten_divide (limit : Int) (ls : List String) : (divide limit ls).flatten = ls :=
  flatten_divideFrom limit [] 0 ls

theorem ne_nil_of_mem_divideFrom {g : List String} (h : g ∈ divideFrom limit current tokens ls) :
    g ≠ [] := by
  induction ls generalizing current tokens with
  | nil =>
    unfold divideFrom at h
    split at h
    · cases h
    · next hfilled =>
      obtain rfl := List.mem_singleton.mp h
      simpa using hfilled
  | cons l ls ih =>
    unfold divideFrom at h
    split at h
    · next hover =>
      rcases List.mem_cons.mp h with rfl | h
      · simp only [Bool.and_eq_true] at hover
        simpa using hover.1
      · exact ih h
    · exact ih h

/-! ### Numbers -/

theorem lt_first_of_mem_number (h : c ∈ number before cs) : before < c.first := by
  induction cs generalizing before with
  | nil => cases h
  | cons g cs ih =>
    rcases List.mem_cons.mp h with rfl | h
    · exact Nat.lt_succ_self before
    · exact Nat.lt_of_le_of_lt (Nat.le_add_right _ _) (ih h)

/-- Each chunk starts after the chunks before it end. -/
theorem pairwise_number (before : Nat) (cs : List (List String)) :
    (number before cs).Pairwise fun c d => c.last < d.first := by
  induction cs generalizing before with
  | nil => exact .nil
  | cons g cs ih => exact List.pairwise_cons.mpr ⟨fun _ hd => lt_first_of_mem_number hd, ih _⟩

theorem text_number (before : Nat) (cs : List (List String)) :
    (number before cs).map (·.text) = cs.map joinLines := by
  induction cs generalizing before with
  | nil => rfl
  | cons g cs ih => rw [number, List.map_cons, List.map_cons, ih]

theorem chunks_eq_nil_iff : chunks limit ls = [] ↔ ls = [] := by
  constructor
  · intro h
    have hnone : divide limit ls = [] := by
      cases hgroups : divide limit ls with
      | nil => rfl
      | cons g cs => simp [chunks, hgroups, number] at h
    rw [← flatten_divide limit ls, hnone, List.flatten_nil]
  · rintro rfl
    rfl

theorem first_of_head_number (h : (number before cs).head? = some c) : c.first = before + 1 := by
  cases cs with
  | nil => cases h
  | cons g cs =>
    cases h
    rfl

/-- Each chunk starts right after the one before it. -/
theorem isChain_number (before : Nat) (cs : List (List String)) :
    (number before cs).IsChain fun c d => d.first = c.last + 1 := by
  induction cs generalizing before with
  | nil => exact .nil
  | cons g cs ih =>
    cases cs with
    | nil => exact .singleton _
    | cons g' cs => exact .cons_cons rfl (ih (before + g.length))

theorem last_of_getLast_number (h : (number before cs).getLast? = some c) :
    c.last = before + cs.flatten.length := by
  induction cs generalizing before with
  | nil => cases h
  | cons g cs ih =>
    rw [List.flatten_cons, List.length_append, ← Nat.add_assoc]
    cases cs with
    | nil =>
      cases h
      rfl
    | cons g' cs =>
      rw [number, number, List.getLast?_cons_cons] at h
      exact ih h

/-- A chunk that holds the lines from its first one to its last one, of which there is at least
one. -/
structure Chunk.Holds (ls : List String) (c : Chunk) : Prop where
  first_pos : 1 ≤ c.first
  first_le_last : c.first ≤ c.last
  last_le : c.last ≤ ls.length
  text_eq : c.text = joinLines ((ls.drop (c.first - 1)).take (c.last + 1 - c.first))

theorem holds_of_mem_number (hne : ∀ g ∈ cs, g ≠ []) (hls : ls.drop before = cs.flatten)
    (hbefore : before ≤ ls.length) (h : c ∈ number before cs) : c.Holds ls := by
  induction cs generalizing before with
  | nil => cases h
  | cons g cs ih =>
    rw [List.flatten_cons] at hls
    have hpos : 0 < g.length := List.length_pos_iff.mpr (hne g List.mem_cons_self)
    have hlength : ls.length = before + g.length + cs.flatten.length := by
      have := congrArg List.length hls
      rw [List.length_drop, List.length_append] at this
      omega
    rcases List.mem_cons.mp h with rfl | h
    · refine ⟨Nat.le_add_left 1 before, by show before + 1 ≤ before + g.length; omega,
        by show before + g.length ≤ ls.length; omega, ?_⟩
      show joinLines g = _
      rw [Nat.add_sub_cancel, hls, show before + g.length + 1 - (before + 1) = g.length by omega,
        List.take_left']
      rfl
    · refine ih (fun g' hg' => hne g' (List.mem_cons_of_mem g hg')) ?_ (by omega) h
      rw [← List.drop_drop, hls, List.drop_left']
      rfl

/-- A chunk of the lines holds the lines that its numbers say. -/
theorem holds_of_mem_chunks (h : c ∈ chunks limit ls) : c.Holds ls := by
  have hls : ls.drop 0 = (divide limit ls).flatten := (flatten_divide limit ls).symm
  exact holds_of_mem_number (fun _ hg => ne_nil_of_mem_divideFrom hg) hls (Nat.zero_le _) h

end BlockIndex.Tokens
