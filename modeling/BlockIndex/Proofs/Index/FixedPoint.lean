import BlockIndex.Proofs.Index.FromScratch
import BlockIndex.Proofs.Index.TwoPhase
import BlockIndex.Proofs.Run.Gathering

/-! Runs that have nothing to do.  After detection without refusals the files that can be read, and
no others, have the digests of their bytes for fingerprints.  On such a store the next detection
finds nothing and changes nothing, whatever calls are refused to it.  A run keeps those fingerprints
if it marks no file, and then it counts no block as an error. -/

namespace BlockIndex

variable {f : Faults} {s s' : Store} {ix ix' : Indexer} {file : String} {report : ChangeReport}

/-- A store on which a tree was detected without refusals: the files that can be read, and no
others, have the digests of their bytes. -/
structure Indexer.Seen (ix : Indexer) (s : Store) : Prop where
  mem : ∀ file text, s.fingerprint? file = some text → file ∈ ix.files
  digest : ∀ file ∈ ix.files, ∀ bytes, ix.disk.read (ix.root.below file) = .ok bytes →
    s.fingerprint? file = some (Digest.md5 bytes)

namespace Indexer.Seen

theorem congr (h : ix.Seen s) (hs : ∀ file, s'.fingerprint? file = s.fingerprint? file) :
    ix.Seen s' :=
  ⟨fun file text htext => h.mem file text ((hs file).symm.trans htext),
    fun file hf bytes hb => (hs file).trans (h.digest file hf bytes hb)⟩

theorem alike (h : ix.Seen s) (halike : ix.Alike ix') : ix'.Seen s := by
  obtain ⟨hfiles, -, -⟩ := halike.same
  refine ⟨fun file text htext => hfiles ▸ h.mem file text htext, fun file hf bytes hb => ?_⟩
  rw [← halike.disk, ← halike.root] at hb
  exact h.digest file (hfiles ▸ hf) bytes hb

end Indexer.Seen

/-! ### Nothing to find -/

theorem Pruned.idle {current : List String} (h : Pruned f current s s')
    (hmem : ∀ q text, s.fingerprint? q = some text → q ∈ current) : s' = s := by
  cases h with
  | unread _ => rfl
  | pruned h =>
    rw [Store.tracked_filter_eq_nil hmem] at h
    cases h
    rfl

theorem JudgedFile.idle {disk : Disk Bytes} {root : Path} {w : Verdict}
    (h : JudgedFile f disk root file s w s')
    (hs : ∀ bytes, disk.read (root.below file) = .ok bytes →
      s.fingerprint? file = some (Digest.md5 bytes)) : w.isProcessed = false ∧ s' = s := by
  cases h with
  | unreadable _ => exact ⟨rfl, rfl⟩
  | @readable bytes _ _ hb hj =>
    have hv : Run.verdictOf (Digest.md5 bytes) (s.fingerprint? file) = .unchanged :=
      Run.verdictOf_eq_unchanged.mpr (hs bytes hb)
    cases hj with
    | unread _ => exact ⟨rfl, rfl⟩
    | unchanged _ => exact ⟨rfl, rfl⟩
    | undeleted hw _ =>
      rw [hv] at hw
      cases hw
    | unset hw hne _ => exact absurd (hw.symm.trans hv) hne
    | recorded hw hne => exact absurd (hw.symm.trans hv) hne

theorem Each.idle {disk : Disk Bytes} {root : Path} {files : List String} {ws : List Verdict}
    (h : Each (JudgedFile f disk root) files s ws s')
    (hs : ∀ file ∈ files, ∀ bytes, disk.read (root.below file) = .ok bytes →
      s.fingerprint? file = some (Digest.md5 bytes)) :
    (⟨files.zip ws⟩ : ChangeReport).processed = [] ∧ s' = s := by
  induction h with
  | nil => exact ⟨rfl, rfl⟩
  | cons head _ ih =>
    rw [List.forall_mem_cons] at hs
    obtain ⟨hw, rfl⟩ := head.idle hs.1
    obtain ⟨hnil, hs'⟩ := ih hs.2
    refine ⟨?_, hs'⟩
    rw [List.zip_cons_cons, ChangeReport.processed_cons, hw]
    exact hnil

/-- Detection on a store that has seen the tree finds nothing to do and changes nothing. -/
theorem Detected.idle (hd : Detected f ix s report s') (h : ix.Seen s) :
    report.processed = [] ∧ s' = s := by
  obtain ⟨s₁, ws, hp, hj, rfl⟩ := hd.pruned_judged
  obtain rfl := hp.idle h.mem
  exact hj.idle h.digest

/-- So does a run, unless there is a file with a name that none can have. -/
theorem Run.outcome_of_seen {w : World} (deferred : Bool) (h : ix.Seen w.store)
    (hread : ∀ file ∈ ix.files, ix.disk.read (ix.root.below file) ≠ .error .badName) :
    ∃ t, (outcome (indexProject ix deferred) w).1 = .ok t ∧ t.processed = 0 ∧
      (outcome (indexProject ix deferred) w).2.requests = w.requests ∧
      (outcome (indexProject ix deferred) w).2.store = w.store := by
  have hrun : wp w.faults (indexProject ix deferred)
      (fun r v => ∃ t, r = .ok t ∧ t.processed = 0 ∧ v.requests = w.requests ∧
        v.store = w.store) w.view := by
    rw [indexProject_eq]
    refine wp_bind (wp_gather (fun _ _ _ _ _ _ file hf hb => absurd hb (hread file hf)) ?_)
    intro report s errors hd
    obtain ⟨hnil, rfl⟩ := hd.idle h
    rw [andThen]
    exact wp_finish_of_idle hnil ⟨_, rfl, congrArg List.length hnil, rfl, rfl⟩
  exact hrun.at_world

/-! ### Runs that leave nothing to do -/

theorem Detected.seen (hd : Detected Faults.none ix s report s') (hopen : s.isClosed = false) :
    ix.Seen s' := by
  constructor
  · intro file text htext
    obtain ⟨s₁, ws, hp, hj, -⟩ := hd.pruned_judged
    by_contra hf
    rw [hj.fingerprint?_of_not_mem hf, hp.eq_of_none hopen,
      Store.fingerprint?_pruned_of_not_mem hf] at htext
    cases htext
  · intro file hf bytes hb
    rw [(hd.eq_of_none hopen).2, Indexer.detected, Store.fingerprint?_judgedAll hb, if_pos hf]

/-- If detection skips no file, every file can be read. -/
theorem Detected.exists_read (hd : Detected f ix s report s')
    (hskip : report.filesWith .skipped = []) (hf : file ∈ ix.files) :
    ∃ bytes, ix.disk.read (ix.root.below file) = .ok bytes := by
  obtain ⟨s₁, ws, -, hj, rfl⟩ := hd.pruned_judged
  obtain ⟨w, hw⟩ := hj.exists_mem_zip hf
  -- a file that cannot be read would be among those that are skipped
  have hne : w ≠ .skipped := by
    rintro rfl
    have hmem : file ∈ (⟨ix.files.zip ws⟩ : ChangeReport).filesWith .skipped :=
      List.mem_map.mpr ⟨(file, .skipped), List.mem_filter.mpr ⟨hw, rfl⟩, rfl⟩
    rw [hskip] at hmem
    cases hmem
  obtain ⟨bytes, hb, -⟩ := hj.recorded hw hne
  exact ⟨bytes, hb⟩

/-- A run that counts no errors leaves the tree as seen: it skips no file, and it marks none because
no block failed. -/
theorem Indexed.seen {deferred : Bool} {v v' : View} {t : Tally}
    (hx : Indexed Faults.none ix deferred v (.ok t) v') (hopen : v.store.isClosed = false)
    (herrors : t.errors = 0) (htime : t.timedOut = false) :
    ix.Seen v'.store ∧
      ∀ file ∈ ix.files, ∃ bytes, ix.disk.read (ix.root.below file) = .ok bytes := by
  obtain ⟨report, s, failed, hd, hsum, hkept⟩ := hx.errors_eq htime
  -- both parts of the sum are zero: no file was skipped and none was marked
  have hskip : report.filesWith .skipped = [] := by
    apply List.eq_nil_of_length_eq_zero
    omega
  have hprints : v'.store.fingerprints = s.fingerprints := by
    apply hkept
    omega
  constructor
  · exact (hd.seen hopen).congr (Store.fingerprint?_congr hprints)
  · exact fun file hf => hd.exists_read hskip hf

/-- The world with a store that refuses no call. -/
def World.calm (w : World) : World := { w with faults := Faults.none }

/-- No call of a run is refused: it goes as it does where the store refuses none. -/
def Run.Unrefused {α : Type} (x : Run α) (w : World) : Prop :=
  outcome x w.calm = ((outcome x w).1, (outcome x w).2.calm)

/-- After a run to which no call was refused, which counted no errors and did not reach its
deadline, another run on the tree processes no file, asks for nothing and leaves the store as it
is.  Either may defer the vectors, they may differ in how they ask for vectors, and the second may
meet refusals. -/
theorem Run.outcome_again {deferred : Bool} {w w' : World} {t : Tally} (deferred' : Bool)
    (hopen : w.store.isClosed = false) (hcalm : Unrefused (indexProject ix deferred) w)
    (hended : (outcome (indexProject ix deferred) w).1 = .ok t) (herrors : t.errors = 0)
    (htime : t.timedOut = false) (halike : ix.Alike ix')
    (hw' : ∃ time, w'.store = { (outcome (indexProject ix deferred) w).2.store with now := time }) :
    ∃ t', (outcome (indexProject ix' deferred') w').1 = .ok t' ∧ t'.processed = 0 ∧
      (outcome (indexProject ix' deferred') w').2.requests = w'.requests ∧
      (outcome (indexProject ix' deferred') w').2.store = w'.store := by
  have hx := indexed_outcome ix deferred w.calm
  rw [hcalm, hended] at hx
  obtain ⟨hseen, hread⟩ := hx.seen hopen herrors htime
  obtain ⟨time, hstore⟩ := hw'
  obtain ⟨hfiles, -, -⟩ := halike.same
  have hseen' : ix'.Seen w'.store := (hseen.alike halike).congr fun file => by
    rw [hstore]
    rfl
  refine outcome_of_seen deferred' hseen' fun file hf => ?_
  obtain ⟨bytes, hb⟩ := hread file (hfiles ▸ hf)
  rw [← halike.root, ← halike.disk, hb]
  exact fun h => nomatch h

namespace Sample

theorem exists_clean_empty : ∃ t, Clean (indexer [104, 105]) true {} t := by
  have hnone : (fun _ => none : Block → Option Vector) (block [104, 105]) ≠ some [] :=
    fun h => nomatch h
  refine exists_clean_of_deferred rfl rfl read_ne_badName last_lt ?_ ?_
  · rw [show World.store {} = {} from rfl, report_empty]
    rfl
  · rw [show World.store {} = {} from rfl, storing_empty hnone]

/-- No extractor gives up on the only file. -/
theorem giveUps_empty : (indexer [104, 105]).giveUps {} = 0 := by
  have hgives : (indexer [104, 105]).givesUp "a.txt" = false := by
    have hblocks : (indexer [104, 105]).blocksOf "a.txt" = [block [104, 105]] := blocksOf_indexer
    unfold Indexer.blocksOf at hblocks
    unfold Indexer.givesUp
    split at hblocks
    · rfl
    · cases hblocks
  rw [Indexer.giveUps, report_empty]
  show (["a.txt"].filter (indexer [104, 105]).givesUp).length = 0
  rw [List.filter_cons, hgives]
  rfl

end Sample

/-- A tree with one file is indexed without vectors, and then with a provider and a store that
refuses every call: the second run does nothing. -/
theorem Run.outcome_again_sample :
    let ix := Sample.indexer [104, 105]
    let first := outcome (indexProject ix true) {}
    let w : World := { store := first.2.store, faults := fun _ _ => some "locked" }
    let second := outcome (indexProject ix false) w
    first.2.store = Sample.store [104, 105] none 1 ∧
      ∃ t, second.1 = .ok t ∧ t.processed = 0 ∧ second.2.requests = #[] ∧
        second.2.store = first.2.store := by
  intro ix first w second
  obtain ⟨t, hclean⟩ := Sample.exists_clean_empty
  have herrors : t.errors = 0 := Nat.le_zero.mp (Sample.giveUps_empty ▸ hclean.errors)
  have hcalm : Unrefused (indexProject ix true) {} := by
    have hfaults : first.2.faults = Faults.none :=
      (wp_indexProject (Q := fun _ _ => True) (fun _ _ _ => trivial) {} rfl rfl).1
    have hlast : first.2.calm = first.2 := by
      rw [World.calm, ← hfaults]
    rw [Unrefused, hlast]
    rfl
  have hstore : ∃ time, w.store = { first.2.store with now := time } := ⟨first.2.store.now, rfl⟩
  obtain ⟨-, -, hs⟩ := Sample.outcome_deferred [104, 105]
  exact ⟨hs, outcome_again false rfl hcalm hclean.ended herrors hclean.inTime
    (⟨rfl, rfl, rfl, rfl, rfl, rfl⟩ : ix.Alike ix) hstore⟩

end BlockIndex
