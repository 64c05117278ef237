import BlockIndex.Proofs.Run.Unhindered

/-! Rows that are removed while the fingerprint stays.  Detection and pruning remove the rows of a
file before they change its fingerprint.  If that change is refused, the next detection comes back
to the file for all bytes but those of the fingerprint: a file that has its old bytes again is taken
as unchanged, and its rows are lost. -/

namespace BlockIndex

/-- Detection on a store, when no call is refused, processes a file exactly if its bytes are among
the given ones, whatever other files it comes to. -/
def Store.Processes (s : Store) (file : String) (bytes : Set Bytes) : Prop :=
  ∀ (disk : Disk Bytes) (root : Path) (files : List String) (content : Bytes) (w : World),
    w.store = s → w.faults = Faults.none →
    (∀ q ∈ files, disk.read (root.below q) ≠ .error .badName) → file ∈ files →
    disk.read (root.below file) = .ok content →
    ∃ report, (Run.outcome (Run.detect disk root files) w).1 = .ok report ∧
      (file ∈ report.processed ↔ content ∈ bytes)

/-- The bytes that are not those of the fingerprint of a file. -/
def Store.otherBytes (s : Store) (file : String) : Set Bytes :=
  {content | s.fingerprint? file ≠ some (Digest.md5 content)}

/-- A file has the rows that it had before, or none. -/
def Store.KeepsAllOrNone (s s' : Store) (file : String) : Prop :=
  s'.rowsOf file = s.rowsOf file ∨ s'.rowsOf file = []

variable {f : Faults} {disk : Disk Bytes} {root : Path} {s s' t : Store} {file q digest : String}
  {files : List String} {w : Verdict} {ws : List Verdict} {content : Bytes}

/-- A store that refuses to change fingerprints. -/
def Sample.fixed : Faults := fun _ call =>
  match call with
  | .setFingerprint _ _ => some "database is locked"
  | .dropFingerprint _ => some "database is locked"
  | _ => none

/-! ### One step -/

namespace Store

theorem rowsOf_deleteBlocks :
    (s.deleteBlocks q).rowsOf file = if file = q then [] else s.rowsOf file := by
  unfold rowsOf deleteBlocks
  rw [List.filter_filter]
  split
  · next h =>
    subst h
    simp
  · next h =>
    refine List.filter_congr fun r _ => ?_
    by_cases hr : r.block.relativePath = some file
    · simp [hr, h]
    · simp [hr]

theorem KeepsAllOrNone.refl : s.KeepsAllOrNone s file := .inl rfl

theorem KeepsAllOrNone.deleteBlocks (h : s.KeepsAllOrNone t file) :
    s.KeepsAllOrNone (t.deleteBlocks q) file := by
  unfold KeepsAllOrNone
  rw [rowsOf_deleteBlocks]
  split
  · exact .inr rfl
  · exact h

end Store

/-- What a file keeps when it is not processed: its fingerprint, and all of its rows or none. -/
structure Keeps (file : String) (s s' : Store) : Prop where
  rows : s.KeepsAllOrNone s' file
  fingerprint : s'.fingerprint? file = s.fingerprint? file

theorem Judged.keeps (h : Judged f q digest t w s') (hw : file = q → w.isProcessed = false)
    (ht : Keeps file s t) : Keeps file s s' := by
  have hdelete : ∀ w : Verdict,
      Keeps file s (if w = .changed then t.deleteBlocks q else t) := by
    intro w
    split
    · exact ⟨ht.rows.deleteBlocks, ht.fingerprint⟩
    · exact ht
  cases h with
  | unread _ => exact ht
  | unchanged _ => exact ht
  | undeleted _ _ => exact ht
  | unset _ _ _ => exact hdelete _
  | recorded h hne =>
    -- A fingerprint is set only when its file is processed, so this one is of another file.
    have hfile : file ≠ q := by
      intro e
      have hfalse := hw e
      have hskip : w ≠ .skipped := fun e => Run.verdictOf_ne_skipped (h.trans e)
      cases w <;> simp_all [Verdict.isProcessed]
    refine ⟨(hdelete w).rows, ?_⟩
    rw [Store.fingerprint?_record, if_neg hfile]
    exact ht.fingerprint

theorem JudgedFile.keeps (h : JudgedFile f disk root q t w s')
    (hw : file = q → w.isProcessed = false) (ht : Keeps file s t) : Keeps file s s' := by
  cases h with
  | unreadable _ => exact ht
  | readable _ hj => exact hj.keeps hw ht

/-! ### Detection -/

/-- Detection leaves a file that it does not process with its fingerprint. -/
theorem Each.keeps_of_not_processed (h : Each (JudgedFile f disk root) files s ws s')
    (hfile : file ∉ (⟨files.zip ws⟩ : ChangeReport).processed) : Keeps file s s' := by
  refine h.keeps_zip (I := Keeps file s) (fun q w hq t s' hj ht => hj.keeps ?_ ht)
    ⟨.refl, rfl⟩
  rintro rfl
  by_contra hw
  exact hfile (ChangeReport.mem_processed.mpr ⟨w, hq, by simpa using hw⟩)

namespace Store

theorem processes_otherBytes (hs : s.isClosed = false) : s.Processes file (s.otherBytes file) := by
  intro disk root files content w hw hfaults hnames hfile hread
  have hdetect : Run.wp w.faults (Run.detect disk root files)
      (fun r _ => ∃ report, r = .ok report ∧
        (file ∈ report.processed ↔ content ∈ s.otherBytes file))
      w.view := by
    refine Run.wp_detect (fun _ _ _ _ _ q hq hbad => absurd hbad (hnames q hq)) fun ws s' he => ?_
    refine ⟨_, rfl, ?_⟩
    rw [hfaults, show w.view.store = s from hw] at he
    rw [show ws = (s.judgedAll disk root files).1 from congrArg Prod.fst (he.eq_judgedAll hs),
      mem_processed_judgedAll hread]
    exact and_iff_right hfile
  exact hdetect.at_world

/-- A file without a fingerprint is processed whatever bytes it has. -/
theorem processes_univ (hs : s.isClosed = false) (hnone : s.fingerprint? file = none) :
    s.Processes file Set.univ := by
  have hall : s.otherBytes file = Set.univ := by
    ext content
    simp [otherBytes, hnone]
  exact hall ▸ processes_otherBytes hs

end Store

/-- The file keeps its fingerprint, so detection goes by the fingerprint that it had. -/
theorem Keeps.processes (h : Keeps file s s') (hs : s'.isClosed = false) :
    s'.Processes file (s.otherBytes file) := by
  have hsame : s'.otherBytes file = s.otherBytes file := by
    ext content
    show s'.fingerprint? file ≠ _ ↔ s.fingerprint? file ≠ _
    rw [h.fingerprint]
  exact hsame ▸ Store.processes_otherBytes hs

/-! ### Pruning -/

/-- Pruning leaves a file with its fingerprint or without one. -/
theorem Pruned.keeps_or_drops {current : List String} (h : Pruned f current s s')
    (file : String) :
    s.KeepsAllOrNone s' file ∧
      (s'.fingerprint? file = s.fingerprint? file ∨ s'.fingerprint? file = none) := by
  cases h with
  | unread _ => exact ⟨.refl, .inl rfl⟩
  | pruned he =>
    refine he.keeps (I := fun t => s.KeepsAllOrNone t file ∧
      (t.fingerprint? file = s.fingerprint? file ∨ t.fingerprint? file = none))
      (fun q _ t done s' hq ⟨hrows, hprint⟩ => ?_) ⟨.refl, .inl rfl⟩
    cases hq with
    | kept _ => exact ⟨hrows, hprint⟩
    | emptied _ => exact ⟨hrows.deleteBlocks, hprint⟩
    | forgotten =>
      refine ⟨hrows.deleteBlocks, ?_⟩
      rw [Store.fingerprint?_forgotten]
      split
      · exact .inr rfl
      · exact hprint

namespace Run

/-- Whatever calls are refused, detection processes a file or leaves it with its fingerprint and
with all of its rows or none; pruning may take the fingerprint too.  The next detection comes back
to the file, unless its bytes are those of the fingerprint that it has kept. -/
theorem rows_found_unless_reverted {w : World} (hopen : w.store.isClosed = false)
    (hnames : ∀ q ∈ files, disk.read (root.below q) ≠ .error .badName) (current : List String)
    (file : String) :
    (let after := (outcome (detect disk root files) w).2.store
      ∃ report, (outcome (detect disk root files) w).1 = .ok report ∧
        (file ∈ report.processed ∨ w.store.KeepsAllOrNone after file ∧
          after.Processes file (w.store.otherBytes file))) ∧
    (let after := (outcome (prune current) w).2.store
      ∃ gone, (outcome (prune current) w).1 = .ok gone ∧ w.store.KeepsAllOrNone after file ∧
        (after.Processes file (w.store.otherBytes file) ∨ after.Processes file Set.univ)) := by
  constructor
  · have hdetect : wp w.faults (detect disk root files) (fun r v => ∃ report, r = .ok report ∧
        (file ∈ report.processed ∨ w.store.KeepsAllOrNone v.store file ∧
          v.store.Processes file (w.store.otherBytes file))) w.view := by
      refine wp_detect (fun _ _ _ _ _ q hq hbad => absurd hbad (hnames q hq)) fun ws s' he => ?_
      refine ⟨_, rfl, ?_⟩
      by_cases hfile : file ∈ (⟨files.zip ws⟩ : ChangeReport).processed
      · exact .inl hfile
      · have hkeeps := he.keeps_of_not_processed hfile
        exact .inr ⟨hkeeps.rows, hkeeps.processes (he.isClosed_eq.trans hopen)⟩
    exact hdetect.at_world
  · have hprune : wp w.faults (prune current) (fun r v => ∃ gone, r = .ok gone ∧
        w.store.KeepsAllOrNone v.store file ∧
          (v.store.Processes file (w.store.otherBytes file) ∨ v.store.Processes file Set.univ))
        w.view := by
      refine wp_prune fun gone s' hp => ⟨gone, rfl, ?_⟩
      obtain ⟨hrows, hprint⟩ := hp.keeps_or_drops file
      have hopen' := hp.isClosed_eq.trans hopen
      refine ⟨hrows, ?_⟩
      rcases hprint with hsame | hnone
      · exact .inl (Keeps.processes ⟨hrows, hsame⟩ hopen')
      · exact .inr (Store.processes_univ hopen' hnone)
    exact hprune.at_world

/-- The rows of a changed file are removed, but its new fingerprint is refused. -/
theorem outcome_detect_fixed :
    let new := Sample.indexer [104, 111]
    let w : World := { store := Sample.store [104, 105] none 1, faults := Sample.fixed }
    (outcome (detect new.disk new.root ["a.txt"]) w).1 = .ok ⟨[("a.txt", .skipped)]⟩ ∧
      (outcome (detect new.disk new.root ["a.txt"]) w).2.store = w.store.deleteBlocks "a.txt" := by
  decide +kernel

/-- With any bytes but the old ones the file is processed the next time. -/
theorem rows_found_unless_reverted_sample :
    let w : World := { store := Sample.store [104, 105] none 1, faults := Sample.fixed }
    let new := Sample.indexer [104, 111]
    let after := (outcome (detect new.disk new.root ["a.txt"]) w).2.store
    w.store.isClosed = false ∧
      (∀ q ∈ ["a.txt"], new.disk.read (new.root.below q) ≠ .error .badName) ∧
      after.rowsOf "a.txt" = [] ∧ after.Processes "a.txt" (w.store.otherBytes "a.txt") := by
  intro w new after
  have hnames : ∀ q ∈ ["a.txt"], new.disk.read (new.root.below q) ≠ .error .badName := by
    rw [← Sample.files_indexer]
    exact Sample.read_ne_badName
  obtain ⟨hresult, hafter⟩ := outcome_detect_fixed
  obtain ⟨⟨report, hreport, hfound⟩, -⟩ :=
    rows_found_unless_reverted (w := w) rfl hnames [] "a.txt"
  rw [hresult] at hreport
  cases hreport
  refine ⟨rfl, hnames, ?_, ?_⟩
  · rw [show after = _ from hafter, Store.rowsOf_deleteBlocks, if_pos rfl]
  · rcases hfound with hmem | ⟨-, hprocesses⟩
    · exact absurd hmem (by decide)
    · exact hprocesses

/-- A file whose rows are removed while its fingerprint stays, by detection or by pruning, and whose
bytes are then again those of the fingerprint, is taken as unchanged. -/
theorem rows_lost_when_reverted :
    let old := Sample.indexer [104, 105]
    let new := Sample.indexer [104, 111]
    let w : World := { store := Sample.store [104, 105] none 1, faults := Sample.fixed }
    let detected := outcome (detect new.disk new.root ["a.txt"]) w
    let pruned := outcome (prune []) w
    w.store.fingerprint? "a.txt" = some (Digest.md5 [104, 105]) ∧
      w.store.rows.map (·.block) = old.blocksOf "a.txt" ∧
      (∃ report, detected.1 = .ok report ∧ ¬(detected.2.store.rowsOf "a.txt" =
        w.store.rowsOf "a.txt" ∨ "a.txt" ∈ report.processed ∨
          detected.2.store.Processes "a.txt" Set.univ)) ∧
      ¬(pruned.2.store.rowsOf "a.txt" = w.store.rowsOf "a.txt" ∨
        pruned.2.store.Processes "a.txt" Set.univ) := by
  intro old new w detected pruned
  obtain ⟨hresult, hdetected⟩ := outcome_detect_fixed
  have hpruned : pruned.2.store = w.store.deleteBlocks "a.txt" := by decide +kernel
  have hrows : (w.store.deleteBlocks "a.txt").rowsOf "a.txt" ≠ w.store.rowsOf "a.txt" := by
    decide
  -- the file has its old bytes again when detection comes back to it
  have hagain : ¬(w.store.deleteBlocks "a.txt").Processes "a.txt" Set.univ := by
    intro hprocesses
    obtain ⟨report, hreport, hmem⟩ := hprocesses old.disk old.root ["a.txt"] [104, 105]
      { store := w.store.deleteBlocks "a.txt" } rfl rfl
      (by rw [← Sample.files_indexer]; exact Sample.read_ne_badName)
      (List.mem_singleton_self _) Sample.read_indexer
    have hunchanged : (outcome (detect old.disk old.root ["a.txt"])
        { store := w.store.deleteBlocks "a.txt" }).1 = .ok ⟨[("a.txt", .unchanged)]⟩ := by
      decide +kernel
    rw [hunchanged] at hreport
    cases hreport
    exact absurd (hmem.mpr trivial) (by decide)
  refine ⟨rfl, Sample.blocksOf_indexer.symm, ⟨_, hresult, ?_⟩, ?_⟩
  · rw [show detected.2.store = _ from hdetected]
    rintro (h | h | h)
    · exact hrows h
    · exact absurd h (by decide)
    · exact hagain h
  · rw [hpruned]
    rintro (h | h)
    · exact hrows h
    · exact hagain h

end Run

end BlockIndex
