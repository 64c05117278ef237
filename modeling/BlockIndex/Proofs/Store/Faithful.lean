import BlockIndex.Proofs.Store.Fingerprints
import BlockIndex.Proofs.Store.Journal

/-! What is seen of a store that has a journal.  Its rows are those that the journal leaves; a block
can be saved if no row has its identity, where a missing name counts as an empty one; numbers are
never given twice; and a change that fails changes nothing. -/

namespace BlockIndex

open Run

/-- No name is there and empty. -/
def Identity.Named (i : Identity) : Prop := i.className ≠ some "" ∧ i.name ≠ some ""

theorem Identity.folded_eq_iff {i j : Identity} (hi : i.Named) (hj : j.Named) :
    i.folded = j.folded ↔ i = j := by
  have hname : ∀ a b : Option String, a ≠ some "" → b ≠ some "" →
      (a.getD "" = b.getD "" ↔ a = b) := by
    intro a b ha hb
    cases a <;> cases b <;> simp_all [eq_comm]
  obtain ⟨path, kind, className, name, first, last⟩ := i
  obtain ⟨path', kind', className', name', first', last'⟩ := j
  simp only [folded, mk.injEq, Option.some.injEq, hname _ _ hi.1 hj.1, hname _ _ hi.2 hj.2]

theorem Store.isTaken_iff {s : Store} {b : Block} :
    s.isTaken b = true ↔ ∃ r ∈ s.rows, r.block.identity.folded = b.identity.folded := by
  simp [isTaken]

/-- What is seen of a store whose journal is given.  The reads and changes are those of a world
whose store refuses no call. -/
structure Store.Faithful (past : List Entry) (s : Store) : Prop where
  /-- What is read are the rows that the journal leaves, in the order of their numbers. -/
  rows : ∀ w : World, w.Serves s → (outcome Run.rows w).1 = .ok (kept past)
  ordered : (kept past).Pairwise fun r r' => r.id < r'.id
  /-- Numbers grow from each saved block to the next, whatever was removed in between. -/
  numbers : (past.filterMap Entry.number?).Pairwise (· < ·)
  distinct : (kept past).Pairwise fun r r' => r.block.identity.folded ≠ r'.block.identity.folded
  taken : ∀ (w : World) b vector text, w.Serves s → b.span.last < StoreCall.limit →
    ((∃ err, (outcome (Edit.save b vector text).run w).1 = .error (.store err)) ↔
      ∃ r ∈ kept past, r.block.identity.folded = b.identity.folded)
  saved : ∀ (w : World) b vector text, w.Serves s → b.span.last < StoreCall.limit →
    (∀ r ∈ kept past, r.block.identity.folded ≠ b.identity.folded) →
      ∃ id, (outcome (Edit.save b vector text).run w).1 = .ok (.row id)
  /-- Whether a block is held says whether its place is taken, unless there are empty names. -/
  held : ∀ (w : World) b vector text, w.Serves s → b.span.last < StoreCall.limit →
    b.identity.Named → (∀ e ∈ past, ∀ b vector text, e.edit = .save b vector text →
      b.identity.Named) →
    ((∃ err, (outcome (Edit.save b vector text).run w).1 = .error (.store err)) ↔
      (outcome (Run.holds b) w).1 = .ok true)
  vectorSet : ∀ (w : World) id v, w.Serves s →
    (outcome (Edit.setVector id v).run w).1 = .ok .done →
      (outcome (Edit.setVector id v).run w).2.store =
        { w.store with rows := (kept past).map fun r =>
            if (r.id : Int) = id then { r with vector := some v } else r }
  settable : ∀ (w : World) id v, w.Serves s → (StoreCall.setVector id).fits = true →
    ((outcome (Edit.setVector id v).run w).1 = .ok .done ↔ ∃ r ∈ kept past, (r.id : Int) = id)
  removed : ∀ (w : World) path, w.Serves s →
    (outcome (Edit.deleteBlocks path).run w).1 =
        .ok (.removed ((kept past).filter fun r => r.block.relativePath == some path).length) ∧
      (outcome (Edit.deleteBlocks path).run w).2.store =
        { w.store with rows := (kept past).filter fun r => r.block.relativePath != some path }
  /-- The fingerprint of a file is the one that was set last, unless it was removed since: no other
  change touches it. -/
  fingerprint : ∀ (w : World) path, w.Serves s →
    (outcome (Run.fingerprint path) w).1 = .ok (lastPrint past path)
  tracked : ∀ w : World, w.Serves s → ∃ paths, (outcome Run.tracked w).1 = .ok paths ∧
    paths.Pairwise (· < ·) ∧ ∀ path, path ∈ paths ↔ (lastPrint past path).isSome
  /-- Setting or removing the fingerprint of a file leaves the rows as they are. -/
  printSet : ∀ (w : World) path text, w.Serves s →
    (outcome (Edit.setFingerprint path text).run w).1 = .ok .done ∧
      (outcome (Edit.setFingerprint path text).run w).2.store =
        w.store.setFingerprint path text
  printDropped : ∀ (w : World) path, w.Serves s →
    (outcome (Edit.dropFingerprint path).run w).1 = .ok .done ∧
      (outcome (Edit.dropFingerprint path).run w).2.store = w.store.dropFingerprint path
  /-- A change that fails, for whatever reason, changes nothing. -/
  failed : ∀ (w : World) (e : Edit) err, (outcome e.run w).1 = .error err →
    (outcome e.run w).2.store = w.store

namespace Store.Journal

variable {past : List Entry} {s : Store} {w : World}

theorem ordered (h : s.Journal past) : s.Ordered := by
  apply h.keeps (I := fun _ s => s.Ordered)
  · exact List.Pairwise.nil
  · exact fun _ _ _ _ _ _ hs => hs
  · intro past s e a s' time _ hs heff
    cases e with
    | save b vector text =>
      obtain ⟨-, -, rfl⟩ := Edit.effect?_save.mp heff
      exact hs
    | setVector id v =>
      obtain ⟨-, -, rfl⟩ := Edit.effect?_setVector.mp heff
      exact hs
    | deleteBlocks path =>
      cases heff
      exact hs
    | setFingerprint path text =>
      cases heff
      exact Ordered.setFingerprint hs
    | dropFingerprint path =>
      cases heff
      exact Ordered.dropFingerprint hs

theorem outcome_save_of_free (h : s.Journal past) (hw : w.Serves s) {b : Block}
    (vector : Option Vector) (text : String) (hfits : b.span.last < StoreCall.limit)
    (hfree : ∀ r ∈ kept past, r.block.identity.folded ≠ b.identity.folded) :
    ∃ id, (outcome (Edit.save b vector text).run w).1 = .ok (.row id) := by
  rw [← h.rows_of_serves hw] at hfree
  have htaken : w.store.isTaken b = false := by
    rw [Bool.eq_false_iff]
    intro ht
    obtain ⟨r, hr, heq⟩ := isTaken_iff.mp ht
    exact hfree r hr heq
  have hcall : (Edit.save b vector text).call.fits = true := decide_eq_true hfits
  obtain ⟨hok, -⟩ := Edit.outcome_of_effect hw.faults (h.isOpen_of_serves hw) hcall
    (Edit.effect?_save.mpr ⟨htaken, rfl, rfl⟩)
  exact ⟨_, hok⟩

/-- A block cannot be saved if its place is taken, and only then. -/
theorem save_fails_iff (h : s.Journal past) (hw : w.Serves s) {b : Block}
    (vector : Option Vector) (text : String) (hfits : b.span.last < StoreCall.limit) :
    (∃ err, (outcome (Edit.save b vector text).run w).1 = .error (.store err)) ↔
      ∃ r ∈ kept past, r.block.identity.folded = b.identity.folded := by
  constructor
  · rintro ⟨err, herr⟩
    by_contra hnone
    push Not at hnone
    obtain ⟨id, hid⟩ := h.outcome_save_of_free hw vector text hfits hnone
    cases hid.symm.trans herr
  · intro hrow
    rw [← h.rows_of_serves hw] at hrow
    have hnone : (Edit.save b vector text).effect? w.store = none := by
      simp [Edit.effect?, Store.save?, isTaken_iff.mpr hrow]
    exact Edit.outcome_of_effect_eq_none (decide_eq_true hfits) hnone

theorem faithful (h : s.Journal past) : s.Faithful past where
  rows := by
    intro w hw
    rw [← h.rows_of_serves hw]
    exact outcome_ask hw.faults (h.isOpen_of_serves hw) rfl
  ordered := List.pairwise_map.mp (h.numbers.1.sublist (sublist_kept past))
  numbers := h.numbers.1
  distinct := by
    rw [← h.rows_eq]
    exact h.distinct
  taken := fun w b vector text hw hfits => h.save_fails_iff hw vector text hfits
  saved := fun w b vector text hw hfits => h.outcome_save_of_free hw vector text hfits
  held := by
    intro w b vector text hw hfits hnamed hsaved
    have hread : (outcome (Run.holds b) w).1 = .ok (w.store.holds b) :=
      outcome_ask hw.faults (h.isOpen_of_serves hw) (decide_eq_true hfits)
    rw [h.save_fails_iff hw vector text hfits, hread, Except.ok.injEq, holds_iff,
      h.rows_of_serves hw]
    refine exists_congr fun r => and_congr_right fun hr => ?_
    obtain ⟨e, he, b₀, vector₀, text₀, hedit, hblock⟩ := exists_save_of_mem_kept hr
    rw [hblock]
    exact Identity.folded_eq_iff (hsaved e he b₀ vector₀ text₀ hedit) hnamed
  vectorSet := by
    intro w id v hw hdone
    rw [← h.rows_of_serves hw]
    exact (Edit.of_setVector_done hdone).2
  settable := by
    intro w id v hw hfits
    rw [← h.rows_of_serves hw]
    constructor
    · exact fun hdone => (Edit.of_setVector_done hdone).1
    · intro hrow
      have hdone := Edit.outcome_of_effect (e := .setVector id v) hw.faults
        (h.isOpen_of_serves hw) hfits (Edit.effect?_setVector.mpr ⟨hrow, rfl, rfl⟩)
      exact hdone.1
  removed := by
    intro w path hw
    rw [← h.rows_of_serves hw]
    exact Edit.outcome_of_effect hw.faults (h.isOpen_of_serves hw) rfl rfl
  fingerprint := by
    intro w path hw
    rw [← h.fingerprint_of_serves hw path]
    exact outcome_ask hw.faults (h.isOpen_of_serves hw) rfl
  tracked := by
    intro w hw
    refine ⟨w.store.tracked, outcome_ask hw.faults (h.isOpen_of_serves hw) rfl, ?_, fun path => ?_⟩
    · obtain ⟨time, hstore⟩ := hw.store
      rw [hstore]
      exact List.pairwise_map.mpr h.ordered
    · rw [← h.fingerprint_of_serves hw path, mem_tracked, Option.isSome_iff_exists]
  printSet := fun w path text hw =>
    Edit.outcome_of_effect hw.faults (h.isOpen_of_serves hw) rfl rfl
  printDropped := fun w path hw =>
    Edit.outcome_of_effect hw.faults (h.isOpen_of_serves hw) rfl rfl
  failed := by
    intro w e err herr
    rcases e.outcome_run w with ⟨a, ha, -⟩ | ⟨err', -, hs⟩
    · cases ha.symm.trans herr
    · exact hs

end Store.Journal

namespace Sample

/-- The same block with an empty name is saved in vain; the block is removed and saved again.  Of two
files that get a fingerprint one loses it. -/
def edits : List Edit :=
  [.save bareBlock none "", .save { bareBlock with name := some "" } none "",
    .setFingerprint "a.py" "0", .setFingerprint "b.py" "1", .setVector 1 [.whole 7],
    .deleteBlocks "a.py", .save bareBlock none "", .dropFingerprint "a.py"]

end Sample

theorem Store.Journal.faithful_sample :
    (Edit.history Sample.edits).1.filterMap Entry.number? = [1, 2] ∧
      (kept (Edit.history Sample.edits).1).map Row.id = [2] ∧
      (["a.py", "b.py"].map (lastPrint (Edit.history Sample.edits).1)) = [none, some "1"] ∧
      (Edit.history Sample.edits).2.Faithful (Edit.history Sample.edits).1 := by
  refine ⟨?_, ?_, ?_, (Edit.journal_history Sample.edits).faithful⟩
  · decide +kernel
  · decide +kernel
  · decide +kernel

/-- A block without a path in the tree is read back with one. -/
theorem Store.path_added :
    let first := outcome (Edit.save Sample.bareBlock none "").run {}
    first.1 = .ok (.row 1) ∧ ∃ r, (outcome Run.rows first.2).1 = .ok [r] ∧
      Sample.bareBlock.relativePath = none ∧ r.block.relativePath = some "a.py" ∧
      r.block ≠ Sample.bareBlock :=
  ⟨rfl, _, rfl, rfl, rfl, by decide +kernel⟩

end BlockIndex
