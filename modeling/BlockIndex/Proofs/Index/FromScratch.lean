import BlockIndex.Proofs.Index.Consistency
import BlockIndex.Proofs.Run.Unhindered

/-! Indexing anew gives what indexing again gives.  A fingerprint without a mark promises that the
store holds all blocks of the content; a run breaks this promise only for the files that it works
on, and mends it by the marks that it sets at the end (`Sound`).  After a run that meets no failure
no file is marked, so the store holds exactly the blocks of the tree. -/

namespace BlockIndex

open Relation

/-- Refusals of any calls but those for the fingerprint of a file. -/
structure Faults.Mild (f : Faults) : Prop where
  fingerprint : ∀ i file, f i (.fingerprint file) = Option.none
  setFingerprint : ∀ i file text, f i (.setFingerprint file text) = Option.none
  dropFingerprint : ∀ i file, f i (.dropFingerprint file) = Option.none

theorem Faults.mild_none : Faults.none.Mild := ⟨fun _ _ => rfl, fun _ _ _ => rfl, fun _ _ => rfl⟩

/-- What the rows of a store show of the blocks. -/
def Store.triples (s : Store) : Set (Identity × Option String × String) :=
  {e | ∃ r ∈ s.rows, e = (r.block.identity, r.block.relativePath, r.block.text)}

namespace Setting

/-- A run of indexing that ends, in which the store refuses only other calls than those for
fingerprints and a provider gives one vector for each text. -/
inductive MildStep (S : Setting) : Store → Store → Prop
  | run {s : Store} {w : World} {ix : Indexer} {t : Tally} (time : Option String) (deferred : Bool)
      (h : S.Allows ix) (hw : w.store = { s with now := time }) (mild : w.faults.Mild)
      (count : ∀ p, ix.provider = some p → p.KeepsCount)
      (ended : (Run.outcome (Run.indexProject ix deferred) w).1 = .ok t) :
      MildStep S s (Run.outcome (Run.indexProject ix deferred) w).2.store

/-- If the fingerprint of a file is the digest of a content, all blocks of the content are held. -/
def Complete (S : Setting) (s : Store) (file : String) : Prop :=
  ∀ content ∈ S.contents, s.fingerprint? file = some (Digest.md5 content) →
    ∀ b ∈ S.registry.yield S.root file content, s.holds b = true

/-- The rows are current, and complete but for the files that a run works on. -/
structure Sound (S : Setting) (busy : List String) (s : Store) : Prop where
  consistent : S.Consistent s
  below : ∀ file text, s.fingerprint? file = some text → Path.IsBelow file
  isOpen : s.isClosed = false
  complete : ∀ file, file ∉ busy → S.Complete s file

variable {S : Setting} {s s' : Store} {f : Faults} {busy : List String} {file : String}

theorem Sound.at_time (h : S.Sound busy s) (time : Option String) :
    S.Sound busy { s with now := time } :=
  ⟨fun r hr => (h.consistent r hr).of_fingerprint fun _ _ => rfl, h.below, h.isOpen, h.complete⟩

theorem sound_empty : S.Sound [] {} := by
  refine ⟨fun r hr => ?_, fun q text hq => ?_, rfl, fun q _ content _ hq => ?_⟩
  · cases hr
  · cases hq
  · cases hq

section Paths

variable (hroot : S.root.Normal) (hpaths : S.registry.KeepsPaths)
include hroot hpaths

theorem eq_of_identity_eq {file' : String} {content content' : Bytes} {b b' : Block}
    (hf : Path.IsBelow file) (hf' : Path.IsBelow file')
    (hb : b ∈ S.registry.yield S.root file content)
    (hb' : b' ∈ S.registry.yield S.root file' content') (hi : b.identity = b'.identity) :
    file = file' := by
  refine hf.below_injective hroot hf' ?_
  rw [← hpaths.path_eq hb, ← hpaths.path_eq hb']
  exact congrArg Identity.path hi

/-- The row that holds a block of a file is a row of the file. -/
theorem Sound.relativePath_eq (h : S.Sound busy s) {r : Row} (hr : r ∈ s.rows)
    (hf : Path.IsBelow file) {content : Bytes} {b : Block}
    (hb : b ∈ S.registry.yield S.root file content) (hi : r.block.identity = b.identity) :
    r.block.relativePath = some file := by
  obtain ⟨q, text, content', hq, htext, -, -, b', hb', hi', -⟩ := h.consistent r hr
  rw [hq, eq_of_identity_eq hroot hpaths (h.below q text htext) hf (mem_of_mem_firsts hb') hb
    (hi'.trans hi)]

/-- A file whose fingerprint and rows stay remains complete. -/
theorem Sound.complete_of_rows (h : S.Sound busy s) (hf : file ∉ busy)
    (hprint : s'.fingerprint? file = s.fingerprint? file)
    (hrows : ∀ r ∈ s.rows, r.block.relativePath = some file → r ∈ s'.rows) :
    S.Complete s' file := by
  intro content hc htext b hb
  rw [hprint] at htext
  obtain ⟨r, hr, hi⟩ := Store.holds_iff.mp (h.complete file hf content hc htext b hb)
  have hrel := h.relativePath_eq hroot hpaths hr (h.below file _ htext) hb hi
  exact Store.holds_iff.mpr ⟨r, hrows r hr hrel, hi⟩

/-! ### Steps -/

theorem Sound.forgotten (h : S.Sound busy s) : S.Sound busy (s.forgotten file) where
  consistent := h.consistent.forgotten
  below q text hq := by
    rw [Store.fingerprint?_forgotten] at hq
    split at hq
    · cases hq
    · exact h.below q text hq
  isOpen := h.isOpen
  complete q hq content hc htext := by
    have hne : q ≠ file := by
      rintro rfl
      rw [Store.fingerprint?_forgotten, if_pos rfl] at htext
      cases htext
    refine h.complete_of_rows hroot hpaths hq ?_ (fun r hr hrel => ?_) content hc htext
    · rw [Store.fingerprint?_forgotten, if_neg hne]
    · refine Store.mem_rows_forgotten.mpr ⟨hr, fun e => hne ?_⟩
      rw [hrel] at e
      exact Option.some.inj e

theorem Sound.pruned (hf : f.Mild) {current : List String} (hp : Pruned f current s s')
    (h : S.Sound busy s) : S.Sound busy s' := by
  cases hp with
  | unread _ => exact h
  | pruned he =>
    refine he.keeps (fun file _ s _ s' hstep hs => ?_) h
    cases hstep with
    | kept _ => exact hs
    | forgotten => exact hs.forgotten hroot hpaths
    | emptied hr => exact absurd hr (Store.not_refuses_of hs.isOpen fun i => hf.dropFingerprint i _)

/-- Judging a file leaves the others complete. -/
theorem Sound.judged (hf : f.Mild) {disk : Disk Bytes} {root : Path} {w : Verdict}
    (hj : JudgedFile f disk root file s w s') (hbelow : Path.IsBelow file)
    (hbusy : w.isProcessed = true → file ∈ busy) (h : S.Sound busy s) : S.Sound busy s' := by
  have hconsistent := h.consistent.judged hj
  cases hj with
  | unreadable _ => exact h
  | @readable bytes _ _ _ hj =>
    cases hj with
    | unread hr => exact absurd hr (Store.not_refuses_of h.isOpen fun i => hf.fingerprint i _)
    | unchanged _ => exact h
    | undeleted _ _ => exact h
    | unset _ _ hr =>
      exact absurd hr (Store.not_refuses_of h.isOpen fun i => hf.setFingerprint i _ _)
    | recorded hv hw =>
      have hproc : w.isProcessed = true := by
        cases w with
        | unchanged => exact absurd rfl hw
        | skipped => exact absurd hv Run.verdictOf_ne_skipped
        | _ => rfl
      refine ⟨hconsistent, fun q text hq => ?_, by simpa using h.isOpen, fun q hq => ?_⟩
      · rw [Store.fingerprint?_record] at hq
        split at hq
        · next he => exact he ▸ hbelow
        · exact h.below q text hq
      · have hne : q ≠ file := fun e => hq (e ▸ hbusy hproc)
        refine h.complete_of_rows hroot hpaths hq ?_ fun r hr hrel => ?_
        · rw [Store.fingerprint?_record, if_neg hne]
        · refine Store.mem_rows_record_of_ne hr fun e => hne ?_
          rw [hrel] at e
          exact Option.some.inj e

variable {ix : Indexer} {report : ChangeReport}

/-- After detection only the files whose blocks are extracted are not complete. -/
theorem Sound.detected (hf : f.Mild) (hix : S.Allows ix) (hd : Detected f ix s report s')
    (h : S.Sound [] s) : S.Sound report.processed s' := by
  obtain ⟨s₁, ws, hp, hj, rfl⟩ := hd.pruned_judged
  have h₁ := h.pruned hroot hpaths hf hp
  refine hj.keeps_zip (I := S.Sound (ChangeReport.processed ⟨ix.files.zip ws⟩))
    (fun file w hw s s' hstep hs => ?_)
    ⟨h₁.consistent, h₁.below, h₁.isOpen, fun q _ => h₁.complete q (List.not_mem_nil)⟩
  have hbelow := Indexer.isBelow_of_mem_files hix.named (List.of_mem_zip hw).1
  exact hs.judged hroot hpaths hf hstep hbelow fun hproc =>
    ChangeReport.mem_processed.mpr ⟨w, hw, hproc⟩

/-- Storing removes nothing. -/
theorem Sound.stores (hix : S.Allows ix) (hd : Detected f ix s report s')
    {supply : Option Supply} {t : Tally} {v v' : View} {r : Except Failure Run.Progress}
    (hv : v.store = s')
    (hst : Stage.Stores f supply ⟨report.processed.flatMap ix.blocksOf, { tally := t }, v⟩ r v')
    (h : S.Sound busy s') : S.Sound busy v'.store := by
  have hprint : ∀ q, v'.store.fingerprint? q = s'.fingerprint? q := hv ▸
    Store.fingerprint?_congr hst.fingerprints_eq
  obtain ⟨hopen, hrows⟩ := hst.keeps_store
    (J := fun s => s.isClosed = false ∧ s'.rows ⊆ s.rows) (fun b _ vec s₁ id s₂ hs hsave => by
      obtain ⟨-, -, rfl⟩ := Store.save?_eq_some.mp hsave
      exact ⟨hs.1, List.Subset.trans hs.2 (List.subset_append_left _ _)⟩)
    (by rw [hv]; exact ⟨h.isOpen, List.Subset.refl _⟩)
  refine ⟨h.consistent.stores hroot hix hd hv hst, fun q text hq => h.below q text ?_, hopen, ?_⟩
  · rwa [← hprint]
  · exact fun q hq => h.complete_of_rows hroot hpaths hq (hprint q) fun r hr _ => hrows hr

/-- Of a block that was extracted, the file is the one that its identity tells. -/
theorem displayPath_eq (hix : S.Allows ix) (hd : Detected f ix s report s') {d b : Block}
    (hdm : d ∈ report.processed.flatMap ix.blocksOf) (hfile : Path.IsBelow file)
    {content : Bytes} (hb : b ∈ S.registry.yield S.root file content)
    (hi : d.identity = b.identity) : d.displayPath = file := by
  obtain ⟨q, hq, hdq⟩ := List.mem_flatMap.mp hdm
  obtain ⟨hmem, bytes, hbytes, -⟩ := hd.recorded hq
  have hbelow := Indexer.isBelow_of_mem_files hix.named hmem
  rw [Indexer.blocksOf_eq_map_yield (hix.root_eq ▸ hroot) hbelow hbytes, hix.root_eq,
    hix.registry_eq] at hdq
  obtain ⟨d₀, hd₀, rfl⟩ := List.mem_map.mp hdq
  rw [Indexer.displayPath_annotate hbelow]
  exact eq_of_identity_eq hroot hpaths hbelow hfile hd₀ hb hi

/-- At the end of a run every file is complete again: those with a block that could not be stored
are marked, and of the others all blocks are held. -/
theorem Sound.stored (hmd5 : S.contents.InjOn Digest.md5) (hf : f.Mild) (hix : S.Allows ix)
    (hd : Detected f ix s report s') {supply : Option Supply}
    (hcount : ∀ k, supply = some k → k.provider.KeepsCount) {t : Tally} {v v' : View}
    (hv : v.store = s') {p : Run.Progress} {marks : List Bool} {s'' : Store}
    (hst : Stage.Stores f supply ⟨report.processed.flatMap ix.blocksOf, { tally := t }, v⟩
      (.ok p) v')
    (hm : Each (Marked f) (Run.sortedOnce p.failed) v'.store marks s'')
    (h : S.Sound report.processed s') : S.Sound [] s'' := by
  have hsound := h.stores hroot hpaths hix hd hv hst
  have hprints : v'.store.fingerprints = s'.fingerprints := hv ▸ hst.fingerprints_eq
  have hconsistent := hsound.consistent.each_marked hm
  obtain rfl := hm.eq_marked_of_unrefused hf.fingerprint hf.setFingerprint hsound.isOpen
  refine ⟨hconsistent, fun q text hq => ?_, ?_, fun q _ content hc htext b hb => ?_⟩
  · obtain ⟨old, hold⟩ := Store.exists_of_foldl_marked hq
    exact hsound.below q old hold
  · rw [Store.isClosed_foldl_marked, hsound.isOpen]
  · have hmem : q ∉ Run.sortedOnce p.failed := fun hmem => by
      have hmark := Store.isMarked_of_foldl_marked hmem htext
      rw [Run.isMarked_md5] at hmark
      cases hmark
    rw [Store.fingerprint?_foldl_marked_of_not_mem hmem] at htext
    have hholds : v'.store.holds b = true := by
      by_cases hbusy : q ∈ report.processed
      · obtain ⟨hq, bytes, hbytes, hprint⟩ := hd.recorded hbusy
        have hbelow := Indexer.isBelow_of_mem_files hix.named hq
        rw [Store.fingerprint?_congr hprints, hprint] at htext
        obtain rfl := hmd5 (hix.occurs q hq bytes hbytes) hc (Option.some.inj htext)
        have hfound : Run.annotate q (ix.subjects q) b ∈ report.processed.flatMap ix.blocksOf := by
          refine List.mem_flatMap.mpr ⟨q, hbusy, ?_⟩
          rw [Indexer.blocksOf_eq_map_yield (hix.root_eq ▸ hroot) hbelow hbytes, hix.root_eq,
            hix.registry_eq]
          exact List.mem_map_of_mem hb
        rcases hst.held_or_failed hcount hfound with hheld | ⟨d, hdm, hi, hfail⟩
        · rwa [Store.holds_congr (Indexer.identity_annotate q _ b)] at hheld
        · rw [displayPath_eq hroot hpaths hix hd (mem_of_mem_firsts hdm) hbelow hb hi] at hfail
          exact absurd (Run.mem_sortedOnce.mpr hfail) hmem
      · exact hsound.complete q hbusy content hc htext b hb
    exact Store.holds_mono (by rw [Store.rows_foldl_marked]; exact List.Subset.refl _) hholds

/-- A run that ends leaves every row current and every file complete. -/
theorem Sound.indexed (hmd5 : S.contents.InjOn Digest.md5) (hf : f.Mild) (hix : S.Allows ix)
    (hcount : ∀ p, ix.provider = some p → p.KeepsCount) {deferred : Bool} {v v' : View} {t : Tally}
    (hx : Indexed f ix deferred v (.ok t) v') (h : S.Sound [] v.store) : S.Sound [] v'.store := by
  have hsupply : ∀ k, Run.supplyAt ix deferred v.clock = some k → k.provider.KeepsCount :=
    fun k hk => hcount k.provider (Run.provider_of_supplyAt hk)
  cases hx with
  | idle hd hp =>
    have hs := h.detected hroot hpaths hf hix hd
    rwa [hp] at hs
  | stored hd hst hm =>
    exact (h.detected hroot hpaths hf hix hd).stored hroot hpaths hmd5 hf hix hd hsupply rfl hst hm

theorem sound_of_steps (hmd5 : S.contents.InjOn Digest.md5)
    (h : ReflTransGen S.MildStep {} s) : S.Sound [] s := by
  induction h with
  | refl => exact sound_empty
  | tail _ hstep ih =>
    cases hstep with
    | @run w ix t time deferred hix hw mild count ended =>
      have hx := Run.indexed_outcome ix deferred w
      rw [ended] at hx
      refine Sound.indexed hroot hpaths hmd5 mild hix count hx ?_
      rw [show w.view.store = _ from hw]
      exact ih.at_time time

end Paths

end Setting

/-! ### Runs that meet no failure -/

/-- The extractors give up on so many of the files that a run works on. -/
def Indexer.giveUps (ix : Indexer) (s : Store) : Nat :=
  ((ix.report s).processed.filter ix.givesUp).length

/-- A run that meets no failure and does not reach its deadline: no call is refused, and what it
counts as errors are files on which their extractors give up. -/
structure Clean (ix : Indexer) (deferred : Bool) (w : World) (t : Tally) : Prop where
  faults : w.faults = Faults.none
  ended : (Run.outcome (Run.indexProject ix deferred) w).1 = .ok t
  errors : t.errors ≤ ix.giveUps w.store
  inTime : t.timedOut = false

/-- What a run in time counts as errors; if no block failed, detection left the last fingerprints.
-/
theorem Indexed.errors_eq {f : Faults} {ix : Indexer} {deferred : Bool} {v v' : View} {t : Tally}
    (h : Indexed f ix deferred v (.ok t) v') (ht : t.timedOut = false) :
    ∃ report s failed, Detected f ix v.store report s ∧
      t.errors = (report.filesWith .skipped).length + (report.processed.filter ix.givesUp).length +
        failed ∧ (failed = 0 → v'.store.fingerprints = s.fingerprints) := by
  cases h with
  | @idle s report hd hp =>
    exact ⟨report, s, 0, hd, by simp [hp, Indexer.started], fun _ => rfl⟩
  | @stored s s' report p v' marks hd hst hm =>
    refine ⟨report, s, p.failed.length, hd, (hst.balanced fun _ => ht).errors, fun hfailed => ?_⟩
    rw [List.eq_nil_of_length_eq_zero hfailed] at hm
    have hnil : Run.sortedOnce [] = [] := by simp [Run.sortedOnce]
    rw [hnil] at hm
    cases hm
    exact hst.fingerprints_eq

theorem Indexed.errors_le_of_deferred {ix : Indexer} {v v' : View} {t : Tally}
    (h : Indexed Faults.none ix true v (.ok t) v') (hopen : v.store.isClosed = false)
    (hskip : (ix.report v.store).filesWith .skipped = [])
    (hfree : ((ix.detected v.store).storing (fun _ => none) (ix.found v.store)).2 = []) :
    t.errors ≤ ix.giveUps v.store ∧ t.timedOut = false := by
  cases h with
  | @idle s report hd hp =>
    obtain ⟨rfl, -⟩ := hd.eq_of_none hopen
    refine ⟨?_, rfl⟩
    show ((ix.report v.store).filesWith .skipped).length ≤ _
    rw [hskip]
    exact Nat.zero_le _
  | @stored s s' report p v' marks hd hst hm =>
    obtain ⟨rfl, rfl⟩ := hd.eq_of_none hopen
    have hbal := hst.balanced fun h => absurd rfl h
    have hopen' : (ix.detected v.store).isClosed = false := by rw [ix.isClosed_detected, hopen]
    have hfailed : p.failed = [] := by
      rw [← hfree]
      have hg : Supply.Gives (Run.supplyAt ix true v.clock) fun _ => none := fun _ => rfl
      exact congrArg Prod.snd (hst.eq_storing hg hopen' fun h => absurd rfl h)
    refine ⟨?_, hbal.timedOut⟩
    show p.tally.errors ≤ _
    rw [hbal.errors, hfailed]
    show ((ix.report v.store).filesWith .skipped).length + ix.giveUps v.store + 0 ≤ _
    rw [hskip]
    exact Nat.le_of_eq (Nat.zero_add _)

/-- A run without vectors meets no failure if no call is refused, every file can be read and every
block has a free place. -/
theorem exists_clean_of_deferred {ix : Indexer} {w : World} (hw : w.faults = Faults.none)
    (hopen : w.store.isClosed = false)
    (hread : ∀ file ∈ ix.files, ix.disk.read (ix.root.below file) ≠ .error .badName)
    (hfit : ∀ file ∈ ix.files, ∀ b ∈ ix.blocksOf file, b.span.last < StoreCall.limit)
    (hskip : (ix.report w.store).filesWith .skipped = [])
    (hfree : ((ix.detected w.store).storing (fun _ => none) (ix.found w.store)).2 = []) :
    ∃ t, Clean ix true w t := by
  have hx := Run.indexed_outcome ix true w
  have hprovider : true = false → ∃ p, ix.provider = some p ∧ p.OnlyRefuses := fun h => nomatch h
  obtain ⟨t, ht⟩ := hx.exists_ok hprovider hread hfit
  rw [ht, hw] at hx
  obtain ⟨herrors, htime⟩ := hx.errors_le_of_deferred hopen hskip hfree
  exact ⟨t, hw, ht, herrors, htime⟩

/-- The blocks of the files that a scan finds, as rows show them. -/
def Indexer.wanted (ix : Indexer) : Set (Identity × Option String × String) :=
  {e | ∃ file ∈ ix.files, ∃ bytes, ix.disk.read (ix.root.below file) = .ok bytes ∧
    ∃ b ∈ firsts [] (ix.registry.yield ix.root file bytes), e = (b.identity, some file, b.text)}

/-- A store shows a tree: the files with the digests of their bytes, and their blocks. -/
structure Indexer.Shown (ix : Indexer) (s : Store) : Prop where
  tracked : ∀ file, file ∈ s.tracked ↔ file ∈ ix.files
  recorded : ∀ file ∈ ix.files, Recorded ix.disk ix.root file s
  triples : s.triples = ix.wanted

namespace Setting

variable {S : Setting} {s s' : Store} {ix : Indexer} {t : Tally} {w : World} {deferred : Bool}

section Paths

variable (hroot : S.root.Normal) (hpaths : S.registry.KeepsPaths)
  (hmd5 : S.contents.InjOn Digest.md5) (hix : S.Allows ix)
include hroot hpaths hmd5 hix

/-- Rows that are current and complete, of files with the digests of their bytes, are those of the
blocks of the files. -/
theorem Sound.triples_eq (h : S.Sound [] s)
    (htracked : ∀ file text, s.fingerprint? file = some text → file ∈ ix.files)
    (hrecorded : ∀ file ∈ ix.files, Recorded ix.disk ix.root file s) :
    s.triples = ix.wanted := by
  -- the content of which a row is current is that of the file on the disk
  have hcontent : ∀ {file text bytes content}, s.fingerprint? file = some text →
      content ∈ S.contents → IsPrintOf text content →
        ix.disk.read (ix.root.below file) = .ok bytes → content = bytes := by
    intro file text bytes content htext hc hprint hbytes
    have hf := htracked file text htext
    obtain ⟨bytes', hbytes', hmd⟩ := hrecorded file hf
    rw [hbytes] at hbytes'
    cases hbytes'
    rw [htext] at hmd
    exact hmd5 hc (hix.occurs file hf bytes hbytes)
      (eq_of_isPrintOf hprint (.inl (Option.some.inj hmd)))
  have hyield : ∀ file bytes, ix.registry.yield ix.root file bytes =
      S.registry.yield S.root file bytes := fun file bytes => by rw [hix.root_eq, hix.registry_eq]
  ext e
  constructor
  · rintro ⟨r, hr, rfl⟩
    obtain ⟨file, text, content, hrel, htext, hc, hprint, b, hb, hi, ht⟩ := h.consistent r hr
    have hf := htracked file text htext
    obtain ⟨bytes, hbytes, -⟩ := hrecorded file hf
    obtain rfl := hcontent htext hc hprint hbytes
    exact ⟨file, hf, content, hbytes, b, by rwa [hyield], by rw [hrel, hi, ht]⟩
  · rintro ⟨file, hf, bytes, hbytes, b, hb, rfl⟩
    rw [hyield] at hb
    obtain ⟨bytes', hbytes', hmd⟩ := hrecorded file hf
    obtain rfl : bytes = bytes' := by
      rw [hbytes] at hbytes'
      cases hbytes'
      rfl
    have hholds := h.complete file List.not_mem_nil bytes (hix.occurs file hf bytes hbytes) hmd b
      (mem_of_mem_firsts hb)
    obtain ⟨r, hr, hri⟩ := Store.holds_iff.mp hholds
    have hrel := h.relativePath_eq hroot hpaths hr (h.below file _ hmd) (mem_of_mem_firsts hb) hri
    obtain ⟨file', text, content, hrel', htext, hc, hprint, b', hb', hi, ht⟩ := h.consistent r hr
    obtain rfl : file = file' := Option.some.inj (hrel.symm.trans hrel')
    obtain rfl := hcontent htext hc hprint hbytes
    obtain rfl := eq_of_mem_firsts hb' hb (hi.trans hri)
    exact ⟨r, hr, by rw [hri, hrel, ht]⟩

/-- After a run that meets no failure the store shows the tree. -/
theorem Sound.shown_of_clean (hcount : ∀ p, ix.provider = some p → p.KeepsCount)
    (hclean : Clean ix deferred w t) (h : S.Sound [] w.store) :
    ix.Shown (Run.outcome (Run.indexProject ix deferred) w).2.store := by
  have hx := Run.indexed_outcome ix deferred w
  rw [hclean.ended, hclean.faults] at hx
  have hsound := h.indexed (v := w.view) hroot hpaths hmd5 Faults.mild_none hix hcount hx
  obtain ⟨report, s, failed, hd, herrors, hprints⟩ := hx.errors_eq hclean.inTime
  have hle := hclean.errors
  obtain ⟨hreport, -⟩ := hd.eq_of_none h.isOpen
  rw [Indexer.giveUps, ← show report = ix.report w.store from hreport] at hle
  have hprint := Store.fingerprint?_congr (hprints (by omega))
  obtain ⟨s₁, ws, hp, hj, hzip⟩ := hd.pruned_judged
  have htracked : ∀ file text,
      (Run.outcome (Run.indexProject ix deferred) w).2.view.store.fingerprint? file = some text →
        file ∈ ix.files := by
    intro file text htext
    by_contra hf
    rw [hprint, hj.fingerprint?_of_not_mem hf, hp.eq_of_none h.isOpen,
      Store.fingerprint?_pruned_of_not_mem hf] at htext
    cases htext
  have hrecorded : ∀ file ∈ ix.files, Recorded ix.disk ix.root file
      (Run.outcome (Run.indexProject ix deferred) w).2.view.store := by
    intro file hf
    obtain ⟨v, hv⟩ := hj.exists_mem_zip hf
    have hskip : v ≠ .skipped := by
      rintro rfl
      have hmem : file ∈ report.filesWith .skipped := by
        rw [hzip]
        exact List.mem_map.mpr ⟨_, List.mem_filter.mpr ⟨hv, by simp⟩, rfl⟩
      have := List.length_pos_of_mem hmem
      omega
    obtain ⟨bytes, hbytes, hmd⟩ := hj.recorded hv hskip
    exact ⟨bytes, hbytes, (hprint file).trans hmd⟩
  refine ⟨fun file => ⟨fun hf => ?_, fun hf => ?_⟩, hrecorded,
    hsound.triples_eq hroot hpaths hmd5 hix htracked hrecorded⟩
  · obtain ⟨text, htext⟩ := Store.mem_tracked.mp hf
    exact htracked file text htext
  · obtain ⟨bytes, -, hmd⟩ := hrecorded file hf
    exact Store.mem_tracked.mpr ⟨_, hmd⟩

end Paths

/-- Indexing anew gives what indexing again gives: a run without failure shows the tree, and its
rows are those of such a run on an empty store, whatever runs came before. -/
theorem triples_eq_from_scratch (hroot : S.root.Normal) (hpaths : S.registry.KeepsPaths)
    (hmd5 : S.contents.InjOn Digest.md5) (h : ReflTransGen S.MildStep {} s) (hix : S.Allows ix)
    (hcount : ∀ p, ix.provider = some p → p.KeepsCount) {time time₀ : Option String}
    (hw : w.store = { s with now := time }) (hclean : Clean ix deferred w t) {w₀ : World}
    {deferred₀ : Bool} {t₀ : Tally} (hw₀ : w₀.store = { now := time₀ })
    (hclean₀ : Clean ix deferred₀ w₀ t₀) :
    let last := (Run.outcome (Run.indexProject ix deferred) w).2.store
    let fresh := (Run.outcome (Run.indexProject ix deferred₀) w₀).2.store
    (∀ file, file ∈ last.tracked ↔ file ∈ ix.files) ∧
      (∀ file ∈ ix.files, ∃ bytes, ix.disk.read (ix.root.below file) = .ok bytes ∧
        last.fingerprint? file = some (Digest.md5 bytes)) ∧
      last.triples = fresh.triples := by
  have hs := (sound_of_steps hroot hpaths hmd5 h).at_time time
  have hs₀ := (sound_empty (S := S)).at_time time₀
  rw [← hw] at hs
  rw [← hw₀] at hs₀
  have hlast := hs.shown_of_clean hroot hpaths hmd5 hix hcount hclean
  have hfresh := hs₀.shown_of_clean hroot hpaths hmd5 hix hcount hclean₀
  exact ⟨hlast.tracked, hlast.recorded, hlast.triples.trans hfresh.triples.symm⟩

end Setting

theorem Sample.keepsPaths (contents : Set Bytes) : (setting contents).registry.KeepsPaths := by
  intro e he path content bs hbs b hb
  obtain rfl := List.mem_singleton.mp he
  cases hbs
  rw [List.mem_singleton.mp hb]

theorem Sample.keepsCount {content : Bytes} :
    ∀ p, (indexer content).provider = some p → p.KeepsCount := by
  intro p hp
  obtain ⟨q, hq, hg⟩ := exists_computes content
  obtain rfl := Option.some.inj (hq.symm.trans hp)
  exact hg.keepsCount

theorem Sample.md5_ne : Digest.md5 [104, 105] ≠ Digest.md5 [104, 111] := by decide +kernel

/-- A tree with one file is indexed, the file is changed, and the tree is indexed again. -/
theorem triples_eq_from_scratch_sample :
    let first := Sample.indexer [104, 105]
    let again := Sample.indexer [104, 111]
    let w : World := { store := (Run.outcome (Run.indexProject first true) {}).2.store }
    ∃ t t₀, Clean again true w t ∧ Clean again true {} t₀ ∧
      (Run.outcome (Run.indexProject again true) w).2.store.triples =
        (Run.outcome (Run.indexProject again true) {}).2.store.triples := by
  intro first again w
  have hmd5 : (Sample.setting {[104, 105], [104, 111]}).contents.InjOn Digest.md5 := by
    rintro a (rfl | rfl) b (rfl | rfl) hab
    · rfl
    · exact absurd hab Sample.md5_ne
    · exact absurd hab.symm Sample.md5_ne
    · rfl
  obtain ⟨t₁, ended, hstore⟩ := Sample.outcome_deferred [104, 105]
  have hstep : ReflTransGen (Sample.setting {[104, 105], [104, 111]}).MildStep {} w.store :=
    .single (.run none true (Sample.allows (by simp)) rfl Faults.mild_none Sample.keepsCount ended)
  have hw : w.store = Sample.store [104, 105] none 1 := hstore
  obtain ⟨hskip, hfree⟩ := Sample.storing_store Sample.md5_ne 1
  rw [← hw] at hskip hfree
  obtain ⟨t, ht⟩ := exists_clean_of_deferred (w := w) rfl (by rw [hw]; rfl)
    Sample.read_ne_badName Sample.last_lt hskip hfree
  have hskip₀ : (again.report {}).filesWith .skipped = [] := by
    rw [Sample.report_empty]
    rfl
  have hnone : (fun _ => none : Block → Option Vector) (Sample.block [104, 111]) ≠ some [] :=
    fun h => nomatch h
  have hfree₀ : ((again.detected {}).storing (fun _ => none) (again.found {})).2 = [] := by
    rw [Sample.storing_empty hnone]
  obtain ⟨t₀, ht₀⟩ := exists_clean_of_deferred (w := {}) rfl rfl Sample.read_ne_badName
    Sample.last_lt hskip₀ hfree₀
  refine ⟨t, t₀, ht, ht₀, ?_⟩
  have hnow : w.store = { w.store with now := none } := by rw [hw]; rfl
  exact (Setting.triples_eq_from_scratch (Sample.normal_root [104, 111]) (Sample.keepsPaths _) hmd5
    hstep (Sample.allows (by simp)) Sample.keepsCount hnow ht rfl ht₀).2.2

end BlockIndex
