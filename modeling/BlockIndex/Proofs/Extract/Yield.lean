import BlockIndex.Extract.Source
import BlockIndex.Proofs.Tree.Path

/-! What an extractor yields from a content.  Of the blocks of one identity only the first is
stored; `firsts` gives these.  An extractor keeps the path of a file if it notes it in every block.
-/

namespace BlockIndex

/-- The blocks with an identity that is neither among those given nor that of an earlier block. -/
def firsts (seen : List Identity) : List Block → List Block
  | [] => []
  | b :: bs => if b.identity ∈ seen then firsts seen bs else b :: firsts (b.identity :: seen) bs

section Firsts

variable {seen seen' : List Identity} {b c : Block} {bs cs : List Block}

theorem firsts_cons_of_mem (h : b.identity ∈ seen) : firsts seen (b :: bs) = firsts seen bs := by
  rw [firsts, if_pos h]

theorem firsts_cons_of_not_mem (h : b.identity ∉ seen) :
    firsts seen (b :: bs) = b :: firsts (b.identity :: seen) bs := by
  rw [firsts, if_neg h]

theorem mem_of_mem_firsts (h : b ∈ firsts seen bs) : b ∈ bs := by
  induction bs generalizing seen with
  | nil => exact h
  | cons c bs ih =>
    rw [firsts] at h
    split at h
    · exact List.mem_cons_of_mem c (ih h)
    · rcases List.mem_cons.mp h with rfl | h
      · exact List.mem_cons_self
      · exact List.mem_cons_of_mem c (ih h)

theorem not_mem_of_mem_firsts (h : b ∈ firsts seen bs) : b.identity ∉ seen := by
  induction bs generalizing seen with
  | nil => cases h
  | cons c bs ih =>
    rw [firsts] at h
    split at h
    · exact ih h
    · next hc =>
      rcases List.mem_cons.mp h with rfl | h
      · exact hc
      · exact fun hb => ih h (List.mem_cons_of_mem _ hb)

/-- Fewer blocks are first when more identities were seen. -/
theorem firsts_anti (hs : seen ⊆ seen') (h : b ∈ firsts seen' bs) : b ∈ firsts seen bs := by
  induction bs generalizing seen seen' with
  | nil => exact h
  | cons c bs ih =>
    by_cases hc' : c.identity ∈ seen'
    · rw [firsts_cons_of_mem hc'] at h
      by_cases hc : c.identity ∈ seen
      · rw [firsts_cons_of_mem hc]
        exact ih hs h
      · rw [firsts_cons_of_not_mem hc]
        have hs' : c.identity :: seen ⊆ seen' := fun i hi => by
          rcases List.mem_cons.mp hi with rfl | hi
          · exact hc'
          · exact hs hi
        exact List.mem_cons_of_mem c (ih hs' h)
    · rw [firsts_cons_of_not_mem hc'] at h
      rw [firsts_cons_of_not_mem fun hc => hc' (hs hc)]
      rcases List.mem_cons.mp h with rfl | h
      · exact List.mem_cons_self
      · exact List.mem_cons_of_mem c (ih (List.cons_subset_cons _ hs) h)

/-- A block that is first in two lists put together is first in the one that it comes from. -/
theorem mem_firsts_append (h : b ∈ firsts seen (bs ++ cs)) :
    b ∈ firsts seen bs ∨ b ∈ firsts seen cs := by
  induction bs generalizing seen with
  | nil => exact .inr h
  | cons c bs ih =>
    by_cases hc : c.identity ∈ seen
    · rw [List.cons_append, firsts_cons_of_mem hc] at h
      rw [firsts_cons_of_mem hc]
      exact ih h
    · rw [List.cons_append, firsts_cons_of_not_mem hc] at h
      rw [firsts_cons_of_not_mem hc]
      rcases List.mem_cons.mp h with rfl | h
      · exact .inl List.mem_cons_self
      · refine (ih h).imp (List.mem_cons_of_mem c) ?_
        exact firsts_anti (List.subset_cons_self _ _)

theorem mem_firsts_flatMap {α : Type} {xs : List α} {g : α → List Block}
    (h : b ∈ firsts seen (xs.flatMap g)) : ∃ x ∈ xs, b ∈ firsts seen (g x) := by
  induction xs with
  | nil => cases h
  | cons x xs ih =>
    rcases mem_firsts_append h with h | h
    · exact ⟨x, List.mem_cons_self, h⟩
    · obtain ⟨y, hy, h⟩ := ih h
      exact ⟨y, List.mem_cons_of_mem x hy, h⟩

/-- Each identity that was not seen has a first block. -/
theorem exists_mem_firsts (hb : b ∈ bs) (hseen : b.identity ∉ seen) :
    ∃ c ∈ firsts seen bs, c.identity = b.identity := by
  induction bs generalizing seen with
  | nil => cases hb
  | cons d bs ih =>
    by_cases hd : d.identity ∈ seen
    · rw [firsts_cons_of_mem hd]
      rcases List.mem_cons.mp hb with rfl | hb
      · exact absurd hd hseen
      · exact ih hb hseen
    · rw [firsts_cons_of_not_mem hd]
      by_cases hi : d.identity = b.identity
      · exact ⟨d, List.mem_cons_self, hi⟩
      · have hb := (List.mem_cons.mp hb).resolve_left fun e => hi (e ▸ rfl)
        have hnew : b.identity ∉ d.identity :: seen := by simp [Ne.symm hi, hseen]
        obtain ⟨c, hc, hci⟩ := ih hb hnew
        exact ⟨c, List.mem_cons_of_mem d hc, hci⟩

/-- There is one first block of an identity. -/
theorem eq_of_mem_firsts (hb : b ∈ firsts seen bs) (hc : c ∈ firsts seen bs)
    (hi : b.identity = c.identity) : b = c := by
  induction bs generalizing seen with
  | nil => cases hb
  | cons d bs ih =>
    by_cases hd : d.identity ∈ seen
    · rw [firsts_cons_of_mem hd] at hb hc
      exact ih hb hc
    · rw [firsts_cons_of_not_mem hd] at hb hc
      rcases List.mem_cons.mp hb with rfl | hb
      · rcases List.mem_cons.mp hc with rfl | hc
        · rfl
        · exact absurd (hi ▸ List.mem_cons_self) (not_mem_of_mem_firsts hc)
      · rcases List.mem_cons.mp hc with rfl | hc
        · exact absurd (hi ▸ List.mem_cons_self) (not_mem_of_mem_firsts hb)
        · exact ih hb hc

/-- The first blocks have identities of their own. -/
theorem nodup_firsts (seen : List Identity) (bs : List Block) :
    ((firsts seen bs).map (·.identity)).Nodup := by
  induction bs generalizing seen with
  | nil => exact List.nodup_nil
  | cons b bs ih =>
    by_cases hb : b.identity ∈ seen
    · rw [firsts_cons_of_mem hb]
      exact ih seen
    · rw [firsts_cons_of_not_mem hb]
      refine List.nodup_cons.mpr ⟨fun hmem => ?_, ih _⟩
      obtain ⟨c, hc, hi⟩ := List.mem_map.mp hmem
      exact not_mem_of_mem_firsts hc (hi ▸ List.mem_cons_self)

/-- Notes that leave the identities alone leave the first blocks where they are. -/
theorem firsts_map {g : Block → Block} (hg : ∀ b, (g b).identity = b.identity) :
    firsts seen (bs.map g) = (firsts seen bs).map g := by
  induction bs generalizing seen with
  | nil => rfl
  | cons b bs ih =>
    by_cases hb : b.identity ∈ seen
    · rw [List.map_cons, firsts_cons_of_mem (by rwa [hg]), firsts_cons_of_mem hb, ih]
    · rw [List.map_cons, firsts_cons_of_not_mem (by rwa [hg]), firsts_cons_of_not_mem hb, hg, ih,
        List.map_cons]

end Firsts

/-- The blocks that the extractor for a file below a root yields from a content; there are none if
there is no such extractor or it gives up. -/
def Registry.yield (registry : Registry) (root : Path) (file : String) (content : Bytes) :
    List Block :=
  match registry.find? (Path.ofString file).suffix with
  | none => []
  | some e =>
    match e.extract (root.below file).toString (sourceText content) with
    | .ok bs => bs
    | .error _ => []

/-- An extractor notes the path that it is given in every block. -/
def Extractor.KeepsPath (e : Extractor) : Prop :=
  ∀ path content bs, e.extract path content = .ok bs → ∀ b ∈ bs, b.path = path

/-- All extractors note the path that they are given. -/
def Registry.KeepsPaths (registry : Registry) : Prop := ∀ e ∈ registry.extractors, e.KeepsPath

theorem Registry.KeepsPaths.path_eq {registry : Registry} {root : Path} {file : String}
    {content : Bytes} (h : registry.KeepsPaths) {b : Block}
    (hb : b ∈ registry.yield root file content) : b.path = (root.below file).toString := by
  unfold Registry.yield at hb
  split at hb
  · cases hb
  · next e he =>
    split at hb
    · next bs hx => exact h e (List.mem_of_find?_eq_some he) _ _ _ hx b hb
    · cases hb

end BlockIndex
