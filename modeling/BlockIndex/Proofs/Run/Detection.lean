import BlockIndex.Proofs.Run.Change
import BlockIndex.Proofs.Run.Mark

/-! What pruning, detection and marking leave alone and what they record.  A file that is not
skipped has the digest of its bytes as its fingerprint from then on; a marked file has no digest. -/

namespace BlockIndex

variable {f : Faults} {disk : Disk Bytes} {root : Path} {s s' : Store} {file q digest : String}
  {w : Verdict} {done : Bool}

namespace Store

theorem fingerprint?_record :
    (s.record file digest w).fingerprint? q =
      if q = file then some digest else s.fingerprint? q := by
  have hdel : (if w = .changed then s.deleteBlocks file else s).fingerprint? q =
      s.fingerprint? q := by
    split <;> rfl
  unfold record
  by_cases hq : q = file
  · rw [if_pos hq, hq, fingerprint?_setFingerprint]
  · rw [if_neg hq, fingerprint?_setFingerprint_of_ne hq, hdel]

/-- The rows of other files stay. -/
theorem mem_rows_record_of_ne {r : Row} (h : r ∈ s.rows) (hr : r.block.relativePath ≠ some file) :
    r ∈ (s.record file digest w).rows := by
  unfold record
  rw [rows_setFingerprint]
  split
  · exact mem_rows_deleteBlocks.mpr ⟨h, hr⟩
  · exact h

/-- A fingerprint with the mark. -/
def markText (text : String) : String := if Run.isMarked text then text else retryMark ++ text

theorem isMarked_markText (text : String) : Run.isMarked (markText text) = true := by
  unfold markText
  split
  · assumption
  · exact Run.isMarked_append text

theorem fingerprint?_marked :
    (s.marked file).fingerprint? q =
      if q = file then (s.fingerprint? q).map markText else s.fingerprint? q := by
  unfold marked
  split
  · next hn => split <;> simp_all
  · next text ht =>
    by_cases hq : q = file
    · subst hq
      rw [if_pos rfl, ht]
      split
      · next hm => simp [ht, markText, hm]
      · next hm => simp [fingerprint?_setFingerprint, markText, hm]
    · rw [if_neg hq]
      split
      · rfl
      · exact fingerprint?_setFingerprint_of_ne hq

@[simp] theorem rows_marked (s : Store) (file : String) : (s.marked file).rows = s.rows := by
  unfold marked
  split
  · rfl
  · split <;> rfl

@[simp] theorem lastId_marked (s : Store) (file : String) : (s.marked file).lastId = s.lastId := by
  unfold marked
  split
  · rfl
  · split <;> rfl

theorem rows_foldl_marked (files : List String) : (files.foldl marked s).rows = s.rows := by
  induction files generalizing s with
  | nil => rfl
  | cons file files ih => rw [List.foldl_cons, ih, rows_marked]

theorem isClosed_foldl_marked (files : List String) :
    (files.foldl marked s).isClosed = s.isClosed := by
  induction files generalizing s with
  | nil => rfl
  | cons file files ih => rw [List.foldl_cons, ih, isClosed_marked]

theorem markText_markText (text : String) : markText (markText text) = markText text :=
  if_pos (isMarked_markText text)

/-- Marking files puts the mark before their fingerprints, once, and changes no other. -/
theorem fingerprint?_foldl_marked (files : List String) :
    (files.foldl marked s).fingerprint? q =
      if q ∈ files then (s.fingerprint? q).map markText else s.fingerprint? q := by
  induction files generalizing s with
  | nil => rfl
  | cons file files ih =>
    have honce : (Option.map markText ∘ Option.map markText) (s.fingerprint? q) =
        (s.fingerprint? q).map markText := by
      cases s.fingerprint? q with
      | none => rfl
      | some text => exact congrArg some (markText_markText text)
    rw [List.foldl_cons, ih, fingerprint?_marked]
    by_cases hfile : q = file <;> by_cases hq : q ∈ files <;> simp_all

/-- Marking gives no file a fingerprint that had none. -/
theorem exists_of_foldl_marked {files : List String} {text : String}
    (h : (files.foldl marked s).fingerprint? q = some text) :
    ∃ old, s.fingerprint? q = some old := by
  rw [fingerprint?_foldl_marked] at h
  split at h
  · obtain ⟨old, hold, -⟩ := Option.map_eq_some_iff.mp h
    exact ⟨old, hold⟩
  · exact ⟨text, h⟩

/-- Marking leaves the fingerprints of other files alone. -/
theorem fingerprint?_foldl_marked_of_not_mem {files : List String} (h : q ∉ files) :
    (files.foldl marked s).fingerprint? q = s.fingerprint? q := by
  rw [fingerprint?_foldl_marked, if_neg h]

/-- A file that was marked has no digest for a fingerprint. -/
theorem isMarked_of_foldl_marked {files : List String} {text : String} (h : q ∈ files)
    (ht : (files.foldl marked s).fingerprint? q = some text) : Run.isMarked text = true := by
  rw [fingerprint?_foldl_marked, if_pos h] at ht
  obtain ⟨old, -, rfl⟩ := Option.map_eq_some_iff.mp ht
  exact isMarked_markText old

theorem fingerprint?_forgotten :
    (s.forgotten file).fingerprint? q = if q = file then none else s.fingerprint? q := by
  rw [forgotten, fingerprint?_dropFingerprint, fingerprint?_deleteBlocks]

theorem fingerprint?_foldl_forgotten {files : List String} :
    (files.foldl forgotten s).fingerprint? q = if q ∈ files then none else s.fingerprint? q := by
  induction files generalizing s with
  | nil => simp
  | cons file files ih =>
    rw [List.foldl_cons, ih, fingerprint?_forgotten]
    by_cases hq : q = file <;> simp [hq]

/-- After pruning only the given files have a fingerprint. -/
theorem fingerprint?_pruned_of_not_mem {current : List String} (h : q ∉ current) :
    (s.pruned current).fingerprint? q = none := by
  rw [pruned, fingerprint?_foldl_forgotten]
  split
  · rfl
  · next hq =>
    cases hs : s.fingerprint? q with
    | none => rfl
    | some text =>
      refine absurd (List.mem_filter.mpr ⟨mem_tracked.mpr ⟨text, hs⟩, ?_⟩) hq
      simpa using h

theorem mem_rows_forgotten {r : Row} :
    r ∈ (s.forgotten file).rows ↔ r ∈ s.rows ∧ r.block.relativePath ≠ some file :=
  mem_rows_deleteBlocks

end Store

namespace Run

theorem mem_sortedOnce {x : String} {xs : List String} : x ∈ sortedOnce xs ↔ x ∈ xs := by
  simp [sortedOnce]

end Run

/-! ### Verdicts -/

theorem Judged.fingerprint?_of_ne (h : Judged f file digest s w s') (hq : q ≠ file) :
    s'.fingerprint? q = s.fingerprint? q := by
  cases h with
  | unset _ _ _ => split <;> rfl
  | recorded _ _ => rw [Store.fingerprint?_record, if_neg hq]
  | _ => rfl

/-- A file that has the digest for a fingerprint keeps it. -/
theorem Judged.keeps_digest (h : Judged f file digest s w s')
    (hs : s.fingerprint? file = some digest) : s'.fingerprint? file = some digest := by
  cases h with
  | unset _ _ _ => split <;> exact hs
  | recorded _ _ => rw [Store.fingerprint?_record, if_pos rfl]
  | _ => exact hs

/-- A file that is not skipped has the digest for a fingerprint. -/
theorem Judged.records (h : Judged f file digest s w s') (hw : w ≠ .skipped) :
    s'.fingerprint? file = some digest := by
  cases h with
  | unchanged hs => exact hs
  | recorded _ _ => rw [Store.fingerprint?_record, if_pos rfl]
  | _ => exact absurd rfl hw

/-- A file has the digest of its bytes for a fingerprint. -/
def Recorded (disk : Disk Bytes) (root : Path) (file : String) (s : Store) : Prop :=
  ∃ bytes, disk.read (root.below file) = .ok bytes ∧
    s.fingerprint? file = some (Digest.md5 bytes)

theorem JudgedFile.records (h : JudgedFile f disk root file s w s') (hw : w ≠ .skipped) :
    Recorded disk root file s' := by
  cases h with
  | unreadable _ => exact absurd rfl hw
  | @readable bytes _ _ hb hj => exact ⟨bytes, hb, hj.records hw⟩

theorem JudgedFile.keeps_recorded (h : JudgedFile f disk root file s w s')
    (hq : Recorded disk root q s) : Recorded disk root q s' := by
  obtain ⟨bytes, hb, hs⟩ := hq
  refine ⟨bytes, hb, ?_⟩
  cases h with
  | unreadable _ => exact hs
  | @readable bytes' _ _ hb' hj =>
    by_cases hne : q = file
    · subst hne
      obtain rfl : bytes' = bytes := by
        rw [hb] at hb'
        cases hb'
        rfl
      exact hj.keeps_digest hs
    · rw [hj.fingerprint?_of_ne hne, hs]

/-- At the end of detection every file that was not skipped has the digest of its bytes. -/
theorem Each.recorded {files : List String} {ws : List Verdict}
    (h : Each (JudgedFile f disk root) files s ws s') (hq : (q, w) ∈ files.zip ws)
    (hw : w ≠ .skipped) : Recorded disk root q s' := by
  refine h.forall_mem (P := fun q w s => w ≠ .skipped → Recorded disk root q s)
    (fun _ _ _ _ hj => hj.records) (fun _ _ _ _ _ hj _ _ hr => ?_) (q, w) hq hw
  exact fun hw => hj.keeps_recorded (hr hw)

/-- Detection gives no file a fingerprint that it was not given. -/
theorem Each.fingerprint?_of_not_mem {files : List String} {ws : List Verdict}
    (h : Each (JudgedFile f disk root) files s ws s') (hq : q ∉ files) :
    s'.fingerprint? q = s.fingerprint? q := by
  refine h.keeps (I := fun t => t.fingerprint? q = s.fingerprint? q)
    (fun file hfile s₁ _ s₂ hj hs => ?_) rfl
  have hne : q ≠ file := fun e => hq (e ▸ hfile)
  cases hj with
  | unreadable _ => exact hs
  | readable _ hj => exact (hj.fingerprint?_of_ne hne).trans hs

theorem ChangeReport.mem_processed {α : Type} {r : ChangeReport α} {q : α} :
    q ∈ r.processed ↔ ∃ w, (q, w) ∈ r.verdicts ∧ w.isProcessed = true := by
  simp only [processed, List.mem_map, List.mem_filter]
  exact ⟨fun ⟨e, he, hq⟩ => ⟨e.2, hq ▸ he⟩, fun ⟨w, h⟩ => ⟨(q, w), h, rfl⟩⟩

theorem Verdict.ne_skipped_of_isProcessed (h : w.isProcessed = true) : w ≠ .skipped := by
  rintro rfl
  cases h

theorem Judged.isClosed_eq (h : Judged f file digest s w s') : s'.isClosed = s.isClosed := by
  cases h with
  | unset _ _ _ => split <;> rfl
  | recorded _ _ => exact s.isClosed_record file digest w
  | _ => rfl

theorem JudgedFile.isClosed_eq (h : JudgedFile f disk root file s w s') :
    s'.isClosed = s.isClosed := by
  cases h with
  | unreadable _ => rfl
  | readable _ hj => exact hj.isClosed_eq

theorem Each.isClosed_eq {files : List String} {ws : List Verdict}
    (h : Each (JudgedFile f disk root) files s ws s') : s'.isClosed = s.isClosed :=
  h.keeps (I := fun t => t.isClosed = s.isClosed)
    (fun _ _ _ _ _ hj ht => hj.isClosed_eq.trans ht) rfl

theorem Pruned.isClosed_eq {current : List String} (h : Pruned f current s s') :
    s'.isClosed = s.isClosed := by
  cases h with
  | unread _ => rfl
  | pruned he =>
    refine he.keeps (I := fun t => t.isClosed = s.isClosed) (fun _ _ _ _ _ hf ht => ?_) rfl
    cases hf <;> exact ht

/-! ### Which files are processed -/

theorem Run.isProcessed_verdictOf {stored : Option String} :
    (verdictOf digest stored).isProcessed = true ↔ stored ≠ some digest := by
  rw [ne_eq, ← verdictOf_eq_unchanged]
  have hskip : verdictOf digest stored ≠ .skipped := verdictOf_ne_skipped
  cases hv : verdictOf digest stored <;> simp_all [Verdict.isProcessed]

theorem ChangeReport.processed_cons {vs : List (String × Verdict)} :
    (⟨(file, w) :: vs⟩ : ChangeReport).processed =
      if w.isProcessed = true then file :: (⟨vs⟩ : ChangeReport).processed
      else (⟨vs⟩ : ChangeReport).processed := by
  unfold processed
  cases h : w.isProcessed <;> simp [h]

namespace Store

variable {content : Bytes}

theorem judged_of_read (h : disk.read (root.below file) = .ok content) :
    s.judged disk root file =
      (Run.verdictOf (Digest.md5 content) (s.fingerprint? file),
        if s.fingerprint? file = some (Digest.md5 content) then s
        else s.record file (Digest.md5 content)
          (Run.verdictOf (Digest.md5 content) (s.fingerprint? file))) := by
  unfold judged
  rw [h]
  simp only [Run.verdictOf_eq_unchanged]
  split <;> rfl

theorem fingerprint?_judged_of_ne (h : q ≠ file) :
    (s.judged disk root file).2.fingerprint? q = s.fingerprint? q := by
  unfold judged
  split
  · rfl
  · simp only
    split
    · rfl
    · rw [fingerprint?_record, if_neg h]

theorem fingerprint?_judged_of_read (h : disk.read (root.below file) = .ok content) :
    (s.judged disk root file).2.fingerprint? file = some (Digest.md5 content) := by
  rw [judged_of_read h]
  by_cases hs : s.fingerprint? file = some (Digest.md5 content)
  · simp [hs]
  · simp [hs, fingerprint?_record]

/-- Without refusals the fingerprint decides whether a file is processed.  A file that is given more
than once has the digest of its bytes from the first time on. -/
theorem mem_processed_judgedAll {files : List String}
    (h : disk.read (root.below q) = .ok content) :
    q ∈ (⟨files.zip (s.judgedAll disk root files).1⟩ : ChangeReport).processed ↔
      q ∈ files ∧ s.fingerprint? q ≠ some (Digest.md5 content) := by
  induction files generalizing s with
  | nil => simp [ChangeReport.processed]
  | cons file files ih =>
    show q ∈ (⟨(file, (s.judged disk root file).1) :: files.zip
      ((s.judged disk root file).2.judgedAll disk root files).1⟩ : ChangeReport).processed ↔ _
    have hhead : ∀ v : Verdict, ∀ xs : List String,
        q ∈ (if v.isProcessed = true then file :: xs else xs) ↔
          q = file ∧ v.isProcessed = true ∨ q ∈ xs := by
      intro v xs
      cases v.isProcessed <;> simp
    rw [ChangeReport.processed_cons, hhead, ih, List.mem_cons]
    by_cases hq : q = file
    · subst hq
      rw [fingerprint?_judged_of_read h, judged_of_read h, Run.isProcessed_verdictOf]
      simp
    · rw [fingerprint?_judged_of_ne hq]
      simp [hq]

/-- Without refusals every file that can be read has the digest of its bytes at the end. -/
theorem fingerprint?_judgedAll {files : List String}
    (h : disk.read (root.below q) = .ok content) :
    (s.judgedAll disk root files).2.fingerprint? q =
      if q ∈ files then some (Digest.md5 content) else s.fingerprint? q := by
  induction files generalizing s with
  | nil => rfl
  | cons file files ih =>
    show ((s.judged disk root file).2.judgedAll disk root files).2.fingerprint? q = _
    rw [ih]
    by_cases hq : q = file
    · subst hq
      rw [fingerprint?_judged_of_read h]
      simp
    · rw [fingerprint?_judged_of_ne hq]
      simp [hq]

/-- If only the given files have a fingerprint, pruning has nothing to forget. -/
theorem tracked_filter_eq_nil {current : List String}
    (h : ∀ q text, s.fingerprint? q = some text → q ∈ current) :
    (s.tracked.filter fun q => !current.contains q) = [] := by
  refine List.filter_eq_nil_iff.mpr fun q hq => ?_
  obtain ⟨text, htext⟩ := mem_tracked.mp hq
  simp [h q text htext]

end Store

end BlockIndex
