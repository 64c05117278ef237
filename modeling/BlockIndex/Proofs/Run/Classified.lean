import BlockIndex.Proofs.Index.FixedPoint
import BlockIndex.Proofs.Run.Given
import BlockIndex.Proofs.Run.Lost
import BlockIndex.Proofs.Store.Fingerprints

/-! What detection says of each path that it is given, and what it does to the store.  A verdict goes
to each place of the list; the fingerprints of the processed files and no others are set; the rows
that go are all rows of files whose fingerprint is out of date (`Classified`).  Detection returns
unless a path holds the character that ends a name, or is no text although its file can be read. -/

namespace BlockIndex

open GivenPath

variable {f : Faults} {disk : Disk Bytes} {raw : RawFiles} {root : Path} {s t t' : Store}
  {files files' : List String} {ws : List Verdict} {w : Verdict} {q file : String}

/-! ### The rows that go -/

/-- The fingerprint of a file is that of other bytes than it has. -/
def Store.IsStale (disk : Disk Bytes) (root : Path) (s : Store) (file : String) : Prop :=
  ∃ bytes old, disk.read (root.below file) = .ok bytes ∧ s.fingerprint? file = some old ∧
    old ≠ Digest.md5 bytes ∧ old ≠ retryMark ++ Digest.md5 bytes

/-- A store without the rows of files that are out of date, and maybe with other fingerprints. -/
structure Cleared (disk : Disk Bytes) (root : Path) (s : Store) (removed : List String)
    (t : Store) : Prop where
  stale : ∀ q ∈ removed, s.IsStale disk root q
  store : t = { s with
    rows := s.rows.filter fun r => r.block.relativePath ∉ removed.map some
    fingerprints := t.fingerprints }

theorem Cleared.refl : Cleared disk root s [] s := ⟨nofun, by simp⟩

theorem Cleared.setFingerprint {removed : List String} {text : String}
    (h : Cleared disk root s removed t) :
    Cleared disk root s removed (t.setFingerprint file text) := by
  refine ⟨h.stale, ?_⟩
  have hstore := h.store
  unfold Store.setFingerprint
  rw [hstore]

theorem Cleared.deleteBlocks {removed : List String} (h : Cleared disk root s removed t)
    (hstale : s.IsStale disk root file) :
    Cleared disk root s (file :: removed) (t.deleteBlocks file) := by
  refine ⟨List.forall_mem_cons.mpr ⟨hstale, h.stale⟩, ?_⟩
  have hstore := h.store
  unfold Store.deleteBlocks
  rw [hstore]
  simp only [List.filter_filter, Store.mk.injEq, and_true]
  refine List.filter_congr fun r _ => ?_
  by_cases hr : r.block.relativePath = some file <;> simp [hr]

theorem Run.verdictOf_eq_changed {digest : String} {stored : Option String}
    (h : verdictOf digest stored = .changed) :
    ∃ old, stored = some old ∧ old ≠ digest ∧ old ≠ retryMark ++ digest := by
  unfold verdictOf at h
  split at h
  · cases h
  · next old =>
    split at h
    · cases h
    · split at h
      · cases h
      · exact ⟨old, rfl, ‹_›, ‹_›⟩

/-- A file keeps its first fingerprint until it has the digest of its bytes. -/
def Keeping (disk : Disk Bytes) (root : Path) (s t : Store) : Prop :=
  ∀ q, t.fingerprint? q = s.fingerprint? q ∨ Recorded disk root q t

theorem Judged.fingerprint?_eq_or {digest : String} (h : Judged f file digest t w t') :
    t'.fingerprint? q = t.fingerprint? q ∨ q = file ∧ t'.fingerprint? q = some digest := by
  cases h with
  | unset _ _ _ => split <;> exact .inl rfl
  | recorded _ _ =>
    rw [Store.fingerprint?_record]
    by_cases hq : q = file
    · exact .inr ⟨hq, if_pos hq⟩
    · exact .inl (if_neg hq)
  | _ => exact .inl rfl

theorem Keeping.judged (h : Keeping disk root s t) (hj : JudgedFile f disk root file t w t') :
    Keeping disk root s t' := by
  intro q
  rcases h q with hsame | hrec
  · cases hj with
    | unreadable _ => exact .inl hsame
    | @readable bytes _ _ hread hj =>
      rcases hj.fingerprint?_eq_or (q := q) with hq | ⟨rfl, hq⟩
      · exact .inl (hq.trans hsame)
      · exact .inr ⟨bytes, hread, hq⟩
  · exact .inr (hj.keeps_recorded hrec)

/-- Rows go only when the first fingerprint of their file is out of date: once it has the digest of
its bytes the file is unchanged. -/
theorem Cleared.judged {removed : List String} (h : Cleared disk root s removed t)
    (hkeep : Keeping disk root s t) (hj : JudgedFile f disk root file t w t') :
    ∃ removed', removed' ⊆ file :: removed ∧ Cleared disk root s removed' t' := by
  have hsame : ∃ removed', removed' ⊆ file :: removed ∧ Cleared disk root s removed' t :=
    ⟨removed, List.subset_cons_self .., h⟩
  cases hj with
  | unreadable _ => exact hsame
  | @readable bytes _ _ hread hj =>
    have hdelete : Run.verdictOf (Digest.md5 bytes) (t.fingerprint? file) = .changed →
        Cleared disk root s (file :: removed) (t.deleteBlocks file) := by
      intro hchanged
      obtain ⟨old, hold, hdigest, hmark⟩ := Run.verdictOf_eq_changed hchanged
      refine h.deleteBlocks ⟨bytes, old, hread, ?_, hdigest, hmark⟩
      rcases hkeep file with heq | ⟨bytes', hread', hprint⟩
      · exact heq.symm.trans hold
      · rw [hread] at hread'
        cases hread'
        rw [hold] at hprint
        exact absurd (Option.some.inj hprint) hdigest
    have hmaybe : ∀ v, Run.verdictOf (Digest.md5 bytes) (t.fingerprint? file) = v →
        ∃ removed', removed' ⊆ file :: removed ∧
          Cleared disk root s removed' (if v = .changed then t.deleteBlocks file else t) := by
      intro v hv
      split
      · next hc => exact ⟨file :: removed, List.Subset.refl _, hdelete (hv.trans hc)⟩
      · exact hsame
    cases hj with
    | unset hv _ _ => exact hmaybe _ hv
    | recorded hv _ =>
      obtain ⟨removed', hsub, hcleared⟩ := hmaybe _ hv
      exact ⟨removed', hsub, hcleared.setFingerprint⟩
    | _ => exact hsame

theorem Each.cleared (h : Each (JudgedFile f disk root) files s ws s') :
    ∃ removed ⊆ files, Cleared disk root s removed s' := by
  have hall := h.keeps (I := fun t => Keeping disk root s t ∧
    ∃ removed, (∀ q ∈ removed, q ∈ files) ∧ Cleared disk root s removed t)
    (fun file hfile t w t' hj ht => ?_) ⟨fun q => .inl rfl, [], nofun, .refl⟩
  · obtain ⟨-, removed, hsub, hcleared⟩ := hall
    exact ⟨removed, hsub, hcleared⟩
  · obtain ⟨hkeep, removed, hsub, hcleared⟩ := ht
    obtain ⟨removed', hsub', hcleared'⟩ := hcleared.judged hkeep hj
    refine ⟨hkeep.judged hj, removed', fun q hq => ?_, hcleared'⟩
    rcases List.mem_cons.mp (hsub' hq) with rfl | hq
    · exact hfile
    · exact hsub q hq

theorem JudgedFile.rows_subset (h : JudgedFile f disk root file t w t') : t'.rows ⊆ t.rows := by
  have hmaybe : ∀ v : Verdict, (if v = .changed then t.deleteBlocks file else t).rows ⊆ t.rows := by
    intro v
    split
    · exact List.filter_subset_self ..
    · exact List.Subset.refl _
  cases h with
  | unreadable _ => exact List.Subset.refl _
  | readable _ hj =>
    cases hj with
    | unset _ _ _ => exact hmaybe _
    | recorded _ _ => exact hmaybe _
    | _ => exact List.Subset.refl _

/-- A changed file has none of the rows left that it had. -/
theorem Each.rows_ne_of_changed (h : Each (JudgedFile f disk root) files s ws s')
    (hq : (q, .changed) ∈ files.zip ws) : ∀ r ∈ s'.rows, r.block.relativePath ≠ some q := by
  refine h.forall_mem (P := fun q w (t : Store) => w = Verdict.changed → ∀ r ∈ t.rows,
    r.block.relativePath ≠ some q) (fun q t w t' hj hw r hr => ?_)
    (fun _ _ t _ t' hj q' w' ht hw r hr => ht hw r (hj.rows_subset hr)) _ hq rfl
  subst hw
  cases hj with
  | readable _ hj =>
    cases hj with
    | recorded _ _ => exact (Store.mem_rows_deleteBlocks.mp hr).2

/-! ### What detection says and does -/

/-- What comes of detection on paths: a report and a store. -/
structure Classified (disk : Disk Bytes) (root : Path) (given : List GivenPath) (s : Store)
    (r : ChangeReport GivenPath) (t : Store) : Prop where
  /-- Each place of the list has one verdict, and the lists keep the order of the places. -/
  once : ∃ verdict : Fin given.length → Verdict,
    (∀ v, r.filesWith v =
      ((List.finRange given.length).filter (verdict · = v)).map given.get) ∧
    r.processed = ((List.finRange given.length).filter fun i =>
      verdict i = .new ∨ verdict i = .changed ∨ verdict i = .retried).map given.get
  /-- A path that is no text is skipped. -/
  texts : ∀ p ∈ given, p ∉ r.filesWith .skipped → ∃ text, p = ofText text
  recorded : ∀ text, ofText text ∈ r.processed → Recorded disk root text t
  kept : ∀ text, ofText text ∉ r.processed → t.fingerprint? text = s.fingerprint? text
  cleared : ∃ removed ⊆ GivenPath.texts given, Cleared disk root s removed t
  changed : ∀ text, ofText text ∈ r.filesWith .changed →
    ∀ e ∈ t.rows, e.block.relativePath ≠ some text

theorem ChangeReport.mem_filesWith {α : Type} {r : ChangeReport α} {p : α} {v : Verdict} :
    p ∈ r.filesWith v ↔ (p, v) ∈ r.verdicts := by
  simp only [filesWith, List.mem_map, List.mem_filter, beq_iff_eq]
  constructor
  · rintro ⟨e, ⟨he, rfl⟩, rfl⟩
    exact he
  · exact fun h => ⟨(p, v), ⟨h, rfl⟩, rfl⟩

theorem map_filter_zip {α : Type} {xs : List α} (p : Verdict → Bool) (h : xs.length = ws.length) :
    ((xs.zip ws).filter fun e => p e.2).map (·.1) =
      ((List.finRange xs.length).filter fun i => p (ws.get (i.cast h))).map xs.get := by
  have hzip : xs.zip ws =
      (List.finRange xs.length).map fun i => (xs.get i, ws.get (i.cast h)) :=
    List.ext_getElem (by simp [h]) (by simp)
  rw [hzip, List.filter_map, List.map_map]
  rfl

theorem Verdict.isProcessed_iff :
    w.isProcessed = true ↔ w = .new ∨ w = .changed ∨ w = .retried := by
  cases w <;> simp [isProcessed]

theorem Each.classified {given : List GivenPath} {s' : Store}
    (h : Each (JudgedGiven f disk raw root) given s ws s') :
    Classified disk root given s ⟨given.zip ws⟩ s' := by
  obtain ⟨ws', heach, hmem, hskipped⟩ := h.texts
  have hprocessed (text : String) : ofText text ∈ (⟨given.zip ws⟩ : ChangeReport _).processed ↔
      text ∈ (⟨(GivenPath.texts given).zip ws'⟩ : ChangeReport).processed := by
    simp only [ChangeReport.mem_processed, hmem]
  refine ⟨?_, fun p hp hnot => ?_, fun text hq => ?_, fun text hq => ?_, heach.cleared,
    fun text hq => ?_⟩
  · have hlength := h.length_eq.symm
    refine ⟨fun i => ws.get (i.cast hlength), fun v => ?_, ?_⟩
    · simpa only [ChangeReport.filesWith, beq_eq_decide] using map_filter_zip (· == v) hlength
    · refine (map_filter_zip Verdict.isProcessed hlength).trans (congrArg _ ?_)
      exact List.filter_congr fun i _ => by
        rw [Bool.eq_iff_iff, decide_eq_true_iff, Verdict.isProcessed_iff]
  · obtain ⟨v, hv⟩ := h.exists_mem_zip hp
    cases htext : p.text? with
    | some text => exact ⟨text, text?_eq_some_iff.mp htext⟩
    | none =>
      obtain rfl := hskipped p v hv htext
      exact absurd (ChangeReport.mem_filesWith.mpr hv) hnot
  · obtain ⟨v, hv, hprocessed⟩ := ChangeReport.mem_processed.mp hq
    exact heach.recorded ((hmem _ _).mpr hv) (Verdict.ne_skipped_of_isProcessed hprocessed)
  · rw [hprocessed] at hq
    exact (heach.keeps_of_not_processed hq).fingerprint
  · exact heach.rows_ne_of_changed ((hmem _ _).mpr (ChangeReport.mem_filesWith.mp hq))

/-! ### Without refusals -/

attribute [ext] Store

namespace Store

theorem judged_congr (h : t.fingerprint? q = s.fingerprint? q) :
    (t.judged disk root q).1 = (s.judged disk root q).1 := by
  unfold judged
  rw [h]
  split
  · rfl
  · simp only
    split <;> rfl

theorem ordered_judged (h : s.Ordered) : (s.judged disk root file).2.Ordered := by
  unfold judged
  split
  · exact h
  · simp only
    split
    · exact h
    · exact h.record

theorem ordered_judgedAll (h : s.Ordered) : (s.judgedAll disk root files).2.Ordered := by
  induction files generalizing s with
  | nil => exact h
  | cons file files ih => exact ih (ordered_judged h)

/-- The verdict on a file does not depend on the other ones. -/
theorem judgedAll_verdicts (hn : files.Nodup) :
    (s.judgedAll disk root files).1 = files.map fun q => (s.judged disk root q).1 := by
  induction files generalizing s with
  | nil => rfl
  | cons file files ih =>
    obtain ⟨hfile, hn⟩ := List.nodup_cons.mp hn
    rw [judgedAll, List.map_cons, ih hn]
    refine congrArg _ (List.map_congr_left fun q hq => judged_congr ?_)
    exact fingerprint?_judged_of_ne fun e => hfile (e ▸ hq)

theorem fingerprint?_judgedAll_of_error {e : AccessError}
    (h : disk.read (root.below q) = .error e) :
    (s.judgedAll disk root files).2.fingerprint? q = s.fingerprint? q := by
  induction files generalizing s with
  | nil => rfl
  | cons file files ih =>
    rw [judgedAll, ih]
    by_cases hq : q = file
    · subst hq
      rw [judged, h]
    · exact fingerprint?_judged_of_ne hq

/-- A store that differs at most in its rows and fingerprints. -/
structure Beside (s t : Store) : Prop where
  lastId : t.lastId = s.lastId
  isClosed : t.isClosed = s.isClosed
  now : t.now = s.now

theorem Beside.trans (h : s.Beside t) (h' : t.Beside t') : s.Beside t' :=
  ⟨h'.lastId.trans h.lastId, h'.isClosed.trans h.isClosed, h'.now.trans h.now⟩

theorem beside_judged : s.Beside (s.judged disk root file).2 := by
  unfold judged
  split
  · exact ⟨rfl, rfl, rfl⟩
  · simp only
    split
    · exact ⟨rfl, rfl, rfl⟩
    · unfold record
      split <;> exact ⟨rfl, rfl, rfl⟩

theorem beside_judgedAll : s.Beside (s.judgedAll disk root files).2 := by
  induction files generalizing s with
  | nil => exact ⟨rfl, rfl, rfl⟩
  | cons file files ih =>
    have hfirst : s.Beside (s.judged disk root file).2 := beside_judged
    exact hfirst.trans ih

/-- The rows that stay when a file is judged. -/
theorem rows_judged : (s.judged disk root file).2.rows = s.rows.filter fun r =>
    (s.judged disk root file).1 = .changed → r.block.relativePath ≠ some file := by
  unfold judged
  split
  · simp
  · simp only
    split
    · next h => simp [h]
    · unfold record
      split
      · next h => simp [h, bne, beq_eq_decide, deleteBlocks]
      · next h => simp [h]

/-- The rows that stay when files are judged, each file once. -/
theorem rows_judgedAll (hn : files.Nodup) :
    (s.judgedAll disk root files).2.rows = s.rows.filter fun r => ∀ q ∈ files,
      (s.judged disk root q).1 = .changed → r.block.relativePath ≠ some q := by
  induction files generalizing s with
  | nil => simp [judgedAll]
  | cons file files ih =>
    obtain ⟨hfile, hn⟩ := List.nodup_cons.mp hn
    have hverdict : ∀ q ∈ files, ((s.judged disk root file).2.judged disk root q).1 =
        (s.judged disk root q).1 := fun q hq =>
      judged_congr (fingerprint?_judged_of_ne fun e => hfile (e ▸ hq))
    rw [judgedAll, ih hn, rows_judged, List.filter_filter]
    refine List.filter_congr fun r _ => ?_
    rw [← Bool.decide_and, decide_eq_decide, List.forall_mem_cons, and_comm]
    refine and_congr_right fun _ => forall₂_congr fun q hq => ?_
    rw [hverdict q hq]

/-- Of what files are given, each once, their order makes no difference. -/
theorem judgedAll_perm (hs : s.Ordered) (hn : files.Nodup) (hp : files.Perm files') :
    (s.judgedAll disk root files').2 = (s.judgedAll disk root files).2 := by
  have hrows : (s.judgedAll disk root files').2.rows = (s.judgedAll disk root files).2.rows := by
    rw [rows_judgedAll hn, rows_judgedAll (hp.nodup_iff.mp hn)]
    simp only [hp.mem_iff]
  have hprints : (s.judgedAll disk root files').2.fingerprints =
      (s.judgedAll disk root files).2.fingerprints := by
    refine (ordered_judgedAll hs).fingerprints_ext (ordered_judgedAll hs) fun q => ?_
    cases hread : disk.read (root.below q) with
    | error e => rw [fingerprint?_judgedAll_of_error hread, fingerprint?_judgedAll_of_error hread]
    | ok bytes =>
      rw [fingerprint?_judgedAll hread, fingerprint?_judgedAll hread]
      simp only [hp.mem_iff]
  have hfirst : s.Beside (s.judgedAll disk root files).2 := beside_judgedAll
  have hother : s.Beside (s.judgedAll disk root files').2 := beside_judgedAll
  exact Store.ext hrows hprints (hother.lastId.trans hfirst.lastId.symm)
    (hother.isClosed.trans hfirst.isClosed.symm) (hother.now.trans hfirst.now.symm)

/-- Judging files that have the digests of their bytes. -/
theorem judgedAll_idle (h : ∀ q ∈ files, ∀ bytes, disk.read (root.below q) = .ok bytes →
    s.fingerprint? q = some (Digest.md5 bytes)) :
    s.judgedAll disk root files = (files.map fun q =>
      if (disk.read (root.below q)).isOk then .unchanged else .skipped, s) := by
  induction files with
  | nil => rfl
  | cons file files ih =>
    obtain ⟨hfile, hfiles⟩ := List.forall_mem_cons.mp h
    have hjudged : s.judged disk root file =
        (if (disk.read (root.below file)).isOk then .unchanged else .skipped, s) := by
      cases hread : disk.read (root.below file) with
      | error e => simp [judged, hread, Except.isOk, Except.toBool]
      | ok bytes =>
        rw [judged_of_read hread, hfile bytes hread]
        simp [Run.verdictOf, Except.isOk, Except.toBool]
    rw [judgedAll, hjudged, ih hfiles, List.map_cons]

end Store

namespace ChangeReport

variable {α : Type} {xs : List α} (g : α → Verdict)

theorem filesWith_zip_map (v : Verdict) :
    (⟨xs.zip (xs.map g)⟩ : ChangeReport α).filesWith v = xs.filter fun q => g q == v := by
  unfold filesWith
  induction xs with
  | nil => rfl
  | cons x xs ih => by_cases hv : (g x == v) = true <;> simp_all

theorem processed_zip_map :
    (⟨xs.zip (xs.map g)⟩ : ChangeReport α).processed = xs.filter fun q => (g q).isProcessed := by
  unfold processed
  induction xs with
  | nil => rfl
  | cons x xs ih => by_cases hv : (g x).isProcessed = true <;> simp_all

end ChangeReport

namespace GivenPath

/-- The verdict on a path, where `g` says the verdicts on texts. -/
def verdict (g : String → Verdict) (p : GivenPath) : Verdict :=
  match p.text? with
  | some text => g text
  | none => .skipped

def isReadable (disk : Disk Bytes) (raw : RawFiles) (root : Path) (p : GivenPath) : Bool :=
  match p.text? with
  | some text => (disk.read (root.below text)).isOk
  | none => (raw p).isOk

theorem nodup_texts {given : List GivenPath} (h : given.Nodup) : (texts given).Nodup := by
  refine h.filterMap fun p p' text hp hp' => ?_
  rw [text?_eq_some_iff.mp hp, text?_eq_some_iff.mp hp']

end GivenPath

namespace Run

/-- What detection reports and leaves when no call is refused. -/
theorem detect_eq_judgedAll {w : World} {r : ChangeReport} (hw : w.faults = Faults.none)
    (hopen : w.store.isClosed = false)
    (h : (outcome (detect disk root files) w).1 = .ok r) :
    r = ⟨files.zip (w.store.judgedAll disk root files).1⟩ ∧
      (outcome (detect disk root files) w).2.store = (w.store.judgedAll disk root files).2 := by
  have hdetect : wp w.faults (detect disk root files)
      (fun r v => ∀ report, r = .ok report →
        report = ⟨files.zip (w.store.judgedAll disk root files).1⟩ ∧
          v.store = (w.store.judgedAll disk root files).2) w.view := by
    refine wp_detect (fun _ _ _ _ _ _ _ _ report hr => nomatch hr) fun ws s' he report hr => ?_
    cases hr
    rw [hw] at he
    rw [← he.eq_judgedAll hopen]
    exact ⟨rfl, rfl⟩
  exact hdetect.at_world r h

variable {given given' : List GivenPath}

/-- What detection on given paths leaves when no call is refused. -/
theorem store_detectGiven {w : World} {r : ChangeReport GivenPath} (hw : w.faults = Faults.none)
    (hopen : w.store.isClosed = false)
    (h : (outcome (detectGiven disk raw root given) w).1 = .ok r) :
    (outcome (detectGiven disk raw root given) w).2.store =
      (w.store.judgedAll disk root (texts given)).2 := by
  obtain ⟨ws, -, hall⟩ := detectGiven_each h
  obtain ⟨ws', heach, -⟩ := hall.texts
  rw [hw] at heach
  exact congrArg Prod.snd (heach.eq_judgedAll hopen)

/-- What detection on given paths reports when no call is refused and each text has a verdict of its
own. -/
theorem detectGiven_eq {w : World} {r : ChangeReport GivenPath} {g : String → Verdict}
    (hw : w.faults = Faults.none) (hopen : w.store.isClosed = false)
    (hg : (w.store.judgedAll disk root (texts given)).1 = (texts given).map g)
    (h : (outcome (detectGiven disk raw root given) w).1 = .ok r) :
    r = ⟨given.zip (given.map (verdict g))⟩ := by
  obtain ⟨ws, rfl, hall⟩ := detectGiven_each h
  obtain ⟨ws', heach, hmem, hskipped⟩ := hall.texts
  rw [hw] at heach
  obtain rfl : ws' = (texts given).map g :=
    (congrArg Prod.fst (heach.eq_judgedAll hopen)).trans hg
  have hws : ws = given.map (verdict g) := by
    refine List.ext_getElem (by rw [hall.length_eq, List.length_map]) fun i hi hi' => ?_
    have hlt : i < given.length := by rwa [List.length_map] at hi'
    have hzip : (given[i], ws[i]) ∈ given.zip ws :=
      List.mem_iff_getElem.mpr ⟨i, by rw [List.length_zip]; omega, by simp⟩
    rw [List.getElem_map, verdict]
    cases htext : (given[i]).text? with
    | none => exact hskipped _ _ hzip htext
    | some text =>
      rw [text?_eq_some_iff.mp htext, ← hmem, ← List.map_prod_left_eq_zip] at hzip
      obtain ⟨text', -, heq⟩ := List.mem_map.mp hzip
      obtain ⟨rfl, hv⟩ := Prod.mk.inj heq
      exact hv.symm
  rw [hws]

/-- Detection returns if it goes past each path, and when it has returned it went past each path, or
was refused the look-up of one that is no text.  It gives one verdict to each place of the list, sets
the fingerprints of the processed files, and removes rows only of files that are out of date.  Without
refusals the order of the paths makes no difference, and a second detection finds nothing. -/
theorem detect_exactly (disk : Disk Bytes) (raw : RawFiles) (root : Path) (given : List GivenPath)
    (w : World) :
    ((∀ p ∈ given, p.IsSafe root raw) →
      ∃ r, (outcome (detectGiven disk raw root given) w).1 = .ok r) ∧
    ((∃ r, (outcome (detectGiven disk raw root given) w).1 = .ok r) →
      ∀ p ∈ given, p.IsSafe root raw ∨ p.text? = none ∧ (∃ bytes, raw p = .ok bytes) ∧
        w.store.Refuses w.faults (.fingerprint p.shown)) ∧
    (∀ r, (outcome (detectGiven disk raw root given) w).1 = .ok r →
      Classified disk root given w.store r
        (outcome (detectGiven disk raw root given) w).2.store) ∧
    (w.faults = Faults.none → w.store.isClosed = false →
      (w.store.Ordered → given.Nodup → ∀ given' r r', given.Perm given' →
        (outcome (detectGiven disk raw root given) w).1 = .ok r →
        (outcome (detectGiven disk raw root given') w).1 = .ok r' →
        (∀ v, (r.filesWith v).Perm (r'.filesWith v)) ∧ r.processed.Perm r'.processed ∧
          (outcome (detectGiven disk raw root given') w).2.store =
            (outcome (detectGiven disk raw root given) w).2.store) ∧
      ∀ first w' r, (outcome (detectGiven disk raw root given) w).1 = .ok first →
        w'.faults = Faults.none →
        w'.store = (outcome (detectGiven disk raw root given) w).2.store →
        (outcome (detectGiven disk raw root given) w').1 = .ok r →
        (∀ v, r.filesWith v = given.filter fun p =>
          v = if p.isReadable disk raw root then .unchanged else .skipped) ∧
          r.processed = [] ∧
          (outcome (detectGiven disk raw root given) w').2.store = w'.store) := by
  have hsafe (w : World) (r : ChangeReport GivenPath)
      (hr : (outcome (detectGiven disk raw root given) w).1 = .ok r) (p : GivenPath)
      (hp : p ∈ given) := (detectGiven_each hr).elim fun _ h => h.2.isSafe_or_refused hp
  refine ⟨exists_detectGiven, fun ⟨r, hr⟩ => hsafe w r hr, fun r hr => ?_,
    fun hw hopen => ⟨?_, ?_⟩⟩
  · obtain ⟨ws, rfl, heach⟩ := detectGiven_each hr
    exact heach.classified
  · intro hs hn given' r r' hp hr hr'
    have hn' := nodup_texts hn
    have hp' : (texts given).Perm (texts given') := hp.filterMap _
    obtain rfl := detectGiven_eq hw hopen (Store.judgedAll_verdicts hn') hr
    obtain rfl := detectGiven_eq hw hopen (Store.judgedAll_verdicts (hp'.nodup_iff.mp hn')) hr'
    rw [store_detectGiven hw hopen hr, store_detectGiven hw hopen hr']
    simp only [ChangeReport.filesWith_zip_map, ChangeReport.processed_zip_map]
    exact ⟨fun v => hp.filter _, hp.filter _, Store.judgedAll_perm hs hn' hp'⟩
  · intro first w' r hfirst hw' hsame hr
    rw [store_detectGiven hw hopen hfirst] at hsame
    have hopen' : w'.store.isClosed = false := by
      rw [hsame, Store.beside_judgedAll.isClosed, hopen]
    have hdigest : ∀ text ∈ texts given, ∀ bytes, disk.read (root.below text) = .ok bytes →
        w'.store.fingerprint? text = some (Digest.md5 bytes) := fun text hq bytes hread => by
      rw [hsame, Store.fingerprint?_judgedAll hread, if_pos hq]
    have hidle := Store.judgedAll_idle hdigest
    have hreport := detectGiven_eq hw' hopen' (congrArg Prod.fst hidle) hr
    have hverdict : ∀ p ∈ given, verdict (fun text =>
        if (disk.read (root.below text)).isOk then .unchanged else .skipped) p =
          if p.isReadable disk raw root then .unchanged else .skipped := fun p hp => by
      unfold verdict isReadable
      cases htext : p.text? with
      | some text => rfl
      | none =>
        have hraw : ∃ reason, raw p = .error (.refused reason) := by
          rcases hsafe w' r hr p hp with h | ⟨-, -, h⟩
          · simpa [IsSafe, htext] using h
          · rw [hw'] at h
            exact absurd h (Store.not_refuses hopen')
        obtain ⟨reason, hraw⟩ := hraw
        simp [hraw, Except.isOk, Except.toBool]
    rw [store_detectGiven hw' hopen' hr, hreport, hidle, ChangeReport.processed_zip_map]
    refine ⟨fun v => ?_, List.filter_eq_nil_iff.mpr fun p hp => ?_, rfl⟩
    · rw [ChangeReport.filesWith_zip_map]
      refine List.filter_congr fun p hp => ?_
      rw [hverdict p hp, beq_eq_decide, decide_eq_decide, eq_comm]
    · rw [hverdict p hp]
      split <;> exact Bool.false_ne_true

end Run

namespace Sample

/-- A path with the byte that stands for an accented letter in Latin-1. -/
def latin : GivenPath := ofText "caf" ++ [.byte 0xE9] ++ ofText ".py"

end Sample

namespace Run

/-- A changed file, one whose path is no text and one that is missing, in two orders and once more.
The second cannot be read. -/
theorem detect_exactly_sample :
    let new := Sample.indexer [104, 111]
    let raw : RawFiles := fun _ => .error (.refused "gone")
    let given := [ofText "a.txt", Sample.latin, ofText "b.txt"]
    let given' := [Sample.latin, ofText "a.txt", ofText "b.txt"]
    let w : World := { store := Sample.store [104, 105] none 1 }
    let after := (outcome (detectGiven new.disk raw new.root given) w).2.store
    (∃ r r' : ChangeReport GivenPath, Classified new.disk new.root given w.store r after ∧
      r.processed = [ofText "a.txt"] ∧ r.processed.Perm r'.processed ∧
        (outcome (detectGiven new.disk raw new.root given') w).2.store = after) ∧
      ∃ r, (outcome (detectGiven new.disk raw new.root given) { store := after }).1 = .ok r ∧
        r.processed = [] := by
  intro new raw given given' w after
  have hopen : w.store.isClosed = false := rfl
  have hordered : w.store.Ordered := List.pairwise_singleton ..
  have hperm : given.Perm given' := .swap ..
  have hended : (outcome (detectGiven new.disk raw new.root given) w).1 =
      .ok ⟨[(ofText "a.txt", .changed), (Sample.latin, .skipped), (ofText "b.txt", .skipped)]⟩ := by
    decide +kernel
  obtain ⟨hreturns, hpast, hclassified, hclean⟩ := detect_exactly new.disk raw new.root given w
  have hsafe : ∀ p ∈ given, p.IsSafe new.root raw := fun p hp => by
    rcases hpast ⟨_, hended⟩ p hp with h | ⟨-, ⟨bytes, h⟩, -⟩
    · exact h
    · cases h
  obtain ⟨r', hr'⟩ := (detect_exactly new.disk raw new.root given' w).1
    fun p hp => hsafe p (hperm.mem_iff.mpr hp)
  obtain ⟨r'', hr''⟩ := (detect_exactly new.disk raw new.root given { store := after }).1 hsafe
  obtain ⟨hsame, hagain⟩ := hclean rfl hopen
  obtain ⟨-, hprocessed, hstore⟩ := hsame hordered (by decide) given' _ r' hperm hended hr'
  obtain ⟨-, hnone, -⟩ := hagain _ { store := after } r'' hended rfl rfl hr''
  exact ⟨⟨_, r', hclassified _ hended, rfl, hprocessed, hstore⟩, r'', hr'', hnone⟩

/-- A path that is no text is not skipped although its file can be read: detection ends with an
error.  So it does at a path with the character that ends a name. -/
theorem detect_not_text :
    let disk := (Sample.indexer []).disk
    let root := (Sample.indexer []).root
    (outcome (detectGiven disk (fun _ => .ok [104, 105]) root [Sample.latin]) {}).1 =
      .error (.notText Sample.latin) ∧
    (¬∃ r, (outcome (detectGiven disk (fun _ => .ok [104, 105]) root [Sample.latin]) {}).1 =
      .ok r) ∧
    (outcome (detect disk root ["a\x00b"]) {}).1 = .error (.access .badName "a\x00b") := by
  intro disk root
  have herror : (outcome (detectGiven disk (fun _ => .ok [104, 105]) root [Sample.latin]) {}).1 =
      .error (.notText Sample.latin) := by decide +kernel
  refine ⟨herror, ?_, by decide +kernel⟩
  rintro ⟨r, hr⟩
  cases herror.symm.trans hr

end Run

end BlockIndex
