import BlockIndex.Proofs.Run.Detection
import BlockIndex.Proofs.Tree.Listing
import Mathlib.Data.List.Nodup

/-! The fingerprints as a table.  They stand in the order of their paths, one for each path
(`Store.Ordered`); every step of detection, marking and pruning keeps them so.  Such a table is
determined by the fingerprint that each file has. -/

namespace BlockIndex

namespace Store

/-- The fingerprints stand in the order of their paths, one for each. -/
def Ordered (s : Store) : Prop := s.fingerprints.Pairwise fun a b => a.1 < b.1

variable {s s' : Store} {path text file digest : String} {es : List (String × String)}

theorem eq_or_mem_of_mem_putFingerprint {e : String × String}
    (h : e ∈ putFingerprint path text es) : e.1 = path ∨ e ∈ es := by
  induction es with
  | nil => exact .inl (congrArg Prod.fst (List.mem_singleton.mp h))
  | cons e' es ih =>
    rw [putFingerprint] at h
    split at h
    · rcases List.mem_cons.mp h with rfl | h
      · exact .inl rfl
      · exact .inr (List.mem_cons_of_mem _ h)
    · split at h
      · rcases List.mem_cons.mp h with rfl | h
        · exact .inl rfl
        · exact .inr h
      · rcases List.mem_cons.mp h with rfl | h
        · exact .inr List.mem_cons_self
        · exact (ih h).imp_right (List.mem_cons_of_mem _)

theorem pairwise_putFingerprint (h : es.Pairwise fun a b => a.1 < b.1) :
    (putFingerprint path text es).Pairwise fun a b => a.1 < b.1 := by
  induction es with
  | nil => exact List.pairwise_singleton ..
  | cons e es ih =>
    obtain ⟨he, hes⟩ := List.pairwise_cons.mp h
    rw [putFingerprint]
    split
    · next heq =>
      subst heq
      exact List.pairwise_cons.mpr ⟨he, hes⟩
    · next hne =>
      split
      · next hlt =>
        refine List.pairwise_cons.mpr ⟨List.forall_mem_cons.mpr ⟨hlt, fun e' he' => ?_⟩, h⟩
        exact String.lt_trans hlt (he e' he')
      · next hlt =>
        have hbefore : e.1 < path := Std.lt_of_le_of_ne (String.not_lt.mp hlt) hne
        refine List.pairwise_cons.mpr ⟨fun e' he' => ?_, ih hes⟩
        rcases eq_or_mem_of_mem_putFingerprint he' with heq | he'
        · exact heq ▸ hbefore
        · exact he e' he'

namespace Ordered

theorem setFingerprint (h : s.Ordered) : (s.setFingerprint path text).Ordered :=
  pairwise_putFingerprint h

theorem dropFingerprint (h : s.Ordered) : (s.dropFingerprint path).Ordered := h.filter _

theorem deleteBlocks (h : s.Ordered) : (s.deleteBlocks path).Ordered := h

theorem record {w : Verdict} (h : s.Ordered) : (s.record file digest w).Ordered := by
  unfold Store.record
  split
  · exact h.deleteBlocks.setFingerprint
  · exact h.setFingerprint

theorem marked (h : s.Ordered) : (s.marked file).Ordered := by
  unfold Store.marked
  split
  · exact h
  · split
    · exact h
    · exact h.setFingerprint

theorem nodup (h : s.Ordered) : (s.fingerprints.map (·.1)).Nodup := by
  refine List.pairwise_map.mpr (h.imp fun hlt heq => ?_)
  rw [heq] at hlt
  exact String.lt_irrefl _ hlt

/-- A table holds what its files have for fingerprints, and nothing else. -/
theorem fingerprints_ext (h : s.Ordered) (h' : s'.Ordered)
    (hsame : ∀ q, s.fingerprint? q = s'.fingerprint? q) : s.fingerprints = s'.fingerprints := by
  have hmem : ∀ e, e ∈ s.fingerprints ↔ e ∈ s'.fingerprints := fun e => by
    rw [← Tree.lookup_eq_some_iff_mem h.nodup, ← Tree.lookup_eq_some_iff_mem h'.nodup]
    exact iff_of_eq (congrArg (· = _) (hsame e.1))
  have hperm : s.fingerprints.Perm s'.fingerprints :=
    (List.perm_ext_iff_of_nodup h.nodup.of_map h'.nodup.of_map).mpr hmem
  exact hperm.eq_of_pairwise (fun _ _ _ _ hlt hgt => absurd hgt (String.lt_asymm hlt)) h h'

end Ordered

end Store

end BlockIndex
