import BlockIndex.Proofs.Index.FixedPoint

/-! Runs that fail.  Detection has set the fingerprints of all files before anything else can go
wrong, and a run that fails sets no marks.  The next run on the tree then finds nothing to do: it
leaves what the failed run left, so a block that the failed run took up and did not store is lost. -/

namespace BlockIndex

open Relation

variable {s s' : Store} {ix ix' : Indexer} {file : String} {report : ChangeReport}

/-- A file with blocks can be read. -/
theorem Indexer.exists_read_of_mem_blocksOf {b : Block} (hroot : ix.root.Normal)
    (hf : Path.IsBelow file) (hb : b ∈ ix.blocksOf file) :
    ∃ bytes, ix.disk.read (ix.root.below file) = .ok bytes := by
  cases hread : ix.disk.read (ix.root.below file) with
  | ok bytes => exact ⟨bytes, rfl⟩
  | error e =>
    unfold blocksOf extraction at hb
    cases hx : ix.registry.find? (Path.ofString file).suffix with
    | none => simp [hx] at hb
    | some x => simp [hx, Extractor.blocksOf, hf.ofString_below hroot, hread] at hb

/-! ### What a failed run leaves -/

/-- A run on a store that has seen the tree leaves the rows as they are. -/
theorem Indexed.rows_eq_of_seen {deferred : Bool} {v v' : View} {t : Tally}
    (hx : Indexed Faults.none ix deferred v (.ok t) v') (hopen : v.store.isClosed = false)
    (h : ix.Seen v.store) : v'.store.rows = v.store.rows := by
  cases hx with
  | idle hd _ =>
    obtain ⟨-, rfl⟩ := hd.idle h
    rfl
  | @stored s s' report p v' marks hd hst hm =>
    obtain ⟨hnil, rfl⟩ := hd.idle h
    rw [hnil] at hst
    obtain ⟨hrows, hopen'⟩ := hst.keeps_store
      (J := fun s => s.rows = v.store.rows ∧ s.isClosed = false)
      (fun b hb => absurd hb List.not_mem_nil)
      ⟨rfl, hopen⟩
    show s'.rows = _
    rw [hm.eq_marked hopen', Store.rows_foldl_marked, hrows]

theorem Indexer.Seen.rows_of_clean {deferred : Bool} {w : World} {t : Tally} (h : ix.Seen s)
    (hopen : s.isClosed = false) (hw : w.Serves s) (hclean : Clean ix deferred w t) :
    (Run.outcome (Run.indexProject ix deferred) w).2.store.rows = s.rows := by
  have hx := Run.indexed_outcome ix deferred w
  rw [hclean.ended, hclean.faults] at hx
  obtain ⟨time, hs⟩ := hw.store
  have hseen : ix.Seen w.view.store := h.congr fun file => by
    rw [show w.view.store = _ from hs]
    rfl
  refine (hx.rows_eq_of_seen (hw.isOpen hopen) hseen).trans ?_
  rw [show w.view.store = _ from hs]

theorem Store.holds_iff_triples {b : Block} :
    s.holds b = true ↔ ∃ e ∈ s.triples, e.1 = b.identity := by
  rw [Store.holds_iff]
  constructor
  · rintro ⟨r, hr, hi⟩
    exact ⟨_, ⟨r, hr, rfl⟩, hi⟩
  · rintro ⟨e, ⟨r, hr, rfl⟩, hi⟩
    exact ⟨r, hr, hi⟩

namespace Setting

variable {S : Setting}

theorem Allows.alike (h : S.Allows ix) (halike : ix.Alike ix') : S.Allows ix' where
  root_eq := halike.root ▸ h.root_eq
  registry_eq := halike.registry ▸ h.registry_eq
  named := halike.disk ▸ h.named
  occurs := by
    obtain ⟨hfiles, -, -⟩ := halike.same
    rw [← hfiles, ← halike.disk, ← halike.root]
    exact h.occurs

/-- A run that fails leaves the tree as seen, and complete but for the files that it took up. -/
theorem Sound.of_raised (hroot : S.root.Normal) (hpaths : S.registry.KeepsPaths)
    (hix : S.Allows ix) {deferred : Bool} {v v' : View} {e : Failure}
    (hx : Indexed Faults.none ix deferred v (.error e) v') (h : S.Sound [] v.store) :
    ix.Seen v'.store ∧ S.Sound (ix.report v.store).processed v'.store ∧
      ∀ file ∈ (ix.report v.store).processed, file ∈ ix.files ∧
        Recorded ix.disk ix.root file v'.store := by
  have hleft : ∀ report s', Detected Faults.none ix v.store report s' →
      (∀ file, v'.store.fingerprint? file = s'.fingerprint? file) →
      S.Sound report.processed v'.store →
      ix.Seen v'.store ∧ S.Sound (ix.report v.store).processed v'.store ∧
        ∀ file ∈ (ix.report v.store).processed, file ∈ ix.files ∧
          Recorded ix.disk ix.root file v'.store := by
    intro report s' hd hprint hsound
    obtain rfl := (hd.eq_of_none h.isOpen).1
    refine ⟨(hd.seen h.isOpen).congr hprint, hsound, fun file hf => ?_⟩
    obtain ⟨hmem, bytes, hbytes, hfp⟩ := hd.recorded hf
    exact ⟨hmem, bytes, hbytes, (hprint file).trans hfp⟩
  cases hx with
  | badName _ _ _ hf bad =>
    exact absurd bad (Indexer.read_ne_badName (hix.root_eq ▸ hroot) hix.named _ hf)
  | noProvider hd _ _ =>
    exact hleft _ _ hd (fun _ => rfl) (h.detected hroot hpaths Faults.mild_none hix hd)
  | failed hd hst =>
    have hsound := h.detected hroot hpaths Faults.mild_none hix hd
    exact hleft _ _ hd (Store.fingerprint?_congr hst.fingerprints_eq)
      (hsound.stores hroot hpaths hix hd rfl hst)

/-- The blocks of a file that is complete are held. -/
theorem Complete.holds (hroot : S.root.Normal) (hix : S.Allows ix) (hf : file ∈ ix.files)
    (hrecorded : Recorded ix.disk ix.root file s) (h : S.Complete s file) :
    ∀ b ∈ ix.blocksOf file, s.holds b = true := by
  intro b hb
  obtain ⟨bytes, hbytes, hprint⟩ := hrecorded
  rw [Indexer.blocksOf_eq_map_yield (hix.root_eq ▸ hroot)
    (Indexer.isBelow_of_mem_files hix.named hf) hbytes, hix.root_eq, hix.registry_eq] at hb
  obtain ⟨b₀, hb₀, rfl⟩ := List.mem_map.mp hb
  rw [Store.holds_congr (Indexer.identity_annotate file _ b₀)]
  exact h bytes (hix.occurs file hf bytes hbytes) hprint b₀ hb₀

/-- A file all of whose blocks are held is complete. -/
theorem Complete.of_holds (hroot : S.root.Normal) (hmd5 : S.contents.InjOn Digest.md5)
    (hix : S.Allows ix) (hf : file ∈ ix.files) (hrecorded : Recorded ix.disk ix.root file s)
    (h : ∀ b ∈ ix.blocksOf file, s.holds b = true) : S.Complete s file := by
  intro content hc htext b hb
  obtain ⟨bytes, hbytes, hprint⟩ := hrecorded
  rw [hprint] at htext
  obtain rfl := hmd5 (hix.occurs file hf bytes hbytes) hc (Option.some.inj htext)
  have hfound : Run.annotate file (ix.subjects file) b ∈ ix.blocksOf file := by
    rw [Indexer.blocksOf_eq_map_yield (hix.root_eq ▸ hroot)
      (Indexer.isBelow_of_mem_files hix.named hf) hbytes, hix.root_eq, hix.registry_eq]
    exact List.mem_map_of_mem hb
  rw [← Store.holds_congr (Indexer.identity_annotate file _ b)]
  exact h _ hfound

theorem Sound.of_serves {w : World} (hw : w.Serves s) {busy : List String} (h : S.Sound busy s) :
    S.Sound busy w.store := by
  obtain ⟨time, hs⟩ := hw.store
  exact hs ▸ h.at_time time

theorem Sound.of_complete {busy : List String} (h : S.Sound busy s)
    (hbusy : ∀ file ∈ busy, S.Complete s file) : S.Sound [] s := by
  refine ⟨h.consistent, h.below, h.isOpen, fun file _ => ?_⟩
  by_cases hfile : file ∈ busy
  · exact hbusy file hfile
  · exact h.complete file hfile

/-- After a run that meets no failure all blocks of the tree are held. -/
theorem Sound.holds_of_clean (hroot : S.root.Normal) (hpaths : S.registry.KeepsPaths)
    (hmd5 : S.contents.InjOn Digest.md5) (hix : S.Allows ix)
    (hcount : ∀ p, ix.provider = some p → p.KeepsCount) {deferred : Bool} {w : World} {t : Tally}
    (hclean : Clean ix deferred w t) (h : S.Sound [] w.store) (hf : file ∈ ix.files) :
    ∀ b ∈ ix.blocksOf file,
      (Run.outcome (Run.indexProject ix deferred) w).2.store.holds b = true := by
  have hshown := h.shown_of_clean hroot hpaths hmd5 hix hcount hclean
  have hx := Run.indexed_outcome ix deferred w
  rw [hclean.ended, hclean.faults] at hx
  have hsound : S.Sound [] (Run.outcome (Run.indexProject ix deferred) w).2.store :=
    Sound.indexed hroot hpaths hmd5 Faults.mild_none hix hcount hx h
  exact (hsound.complete file List.not_mem_nil).holds hroot hix hf (hshown.recorded file hf)

/-- A run that meets no failure, on a tree on which the run before failed, leaves the rows as that
run left them.  So a block of the tree is held at the end unless the failed run took up its file and
did not store it, and the failed run is made up for only if it stored all blocks that it took up:
then the rows are those of the same run without the failed one before it. -/
theorem made_up_iff_stored (hroot : S.root.Normal) (hpaths : S.registry.KeepsPaths)
    (hmd5 : S.contents.InjOn Digest.md5) (h : ReflTransGen S.MildStep {} s) (hix : S.Allows ix)
    (halike : ix.Alike ix') (hcount : ∀ p, ix'.provider = some p → p.KeepsCount) {w w' w₀ : World}
    (hw : w.Serves s) {deferred : Bool} {e : Failure}
    (raised : (Run.outcome (Run.indexProject ix deferred) w).1 = .error e)
    (hw' : w'.Serves (Run.outcome (Run.indexProject ix deferred) w).2.store)
    {deferred' deferred₀ : Bool} {t' t₀ : Tally} (hclean' : Clean ix' deferred' w' t')
    (hw₀ : w₀.Serves s) (hclean₀ : Clean ix' deferred₀ w₀ t₀) :
    let left := (Run.outcome (Run.indexProject ix deferred) w).2.store
    let last := (Run.outcome (Run.indexProject ix' deferred') w').2.store
    let direct := (Run.outcome (Run.indexProject ix' deferred₀) w₀).2.store
    last.rows = left.rows ∧
      (∀ file ∈ ix.files, ∀ b ∈ ix.blocksOf file, last.holds b = true ↔
        (file ∈ (ix.report w.store).processed → left.holds b = true)) ∧
      (last.triples = direct.triples ↔
        ∀ file ∈ (ix.report w.store).processed, ∀ b ∈ ix.blocksOf file, left.holds b = true) := by
  intro left last direct
  have hsound := sound_of_steps hroot hpaths hmd5 h
  have hix' := hix.alike halike
  obtain ⟨hfiles, hblocks, -⟩ := halike.same
  have hx := Run.indexed_outcome ix deferred w
  rw [raised, hw.faults] at hx
  obtain ⟨hseen, hleft, hrecorded⟩ :=
    Sound.of_raised hroot hpaths hix hx (hsound.of_serves hw)
  have hrows : last.rows = left.rows := (hseen.alike halike).rows_of_clean hleft.isOpen hw' hclean'
  have hholds : ∀ b, last.holds b = left.holds b := fun b => by
    rw [Store.holds, hrows, Store.holds]
  refine ⟨hrows, fun file hf b hb => ?_, fun htriples file hf b hb => ?_, fun hall => ?_⟩
  · rw [hholds]
    refine ⟨fun hheld _ => hheld, fun hheld => ?_⟩
    by_cases hproc : file ∈ (ix.report w.store).processed
    · exact hheld hproc
    · have hbelow := Indexer.isBelow_of_mem_files hix.named hf
      obtain ⟨bytes, hbytes⟩ :=
        Indexer.exists_read_of_mem_blocksOf (hix.root_eq ▸ hroot) hbelow hb
      exact (hleft.complete file hproc).holds hroot hix hf
        ⟨bytes, hbytes, hseen.digest file hf bytes hbytes⟩ b hb
  · -- without the failed run the block is held, so `last` has a row that shows it
    have hheld : direct.holds b = true :=
      (hsound.of_serves hw₀).holds_of_clean hroot hpaths hmd5 hix' hcount hclean₀
        (hfiles ▸ (hrecorded file hf).1) b (hblocks ▸ hb)
    rw [← hholds, Store.holds_iff_triples, htriples]
    exact Store.holds_iff_triples.mp hheld
  · have hempty : S.Sound [] left := hleft.of_complete fun file hf => by
      obtain ⟨hmem, hrec⟩ := hrecorded file hf
      exact Complete.of_holds hroot hmd5 hix hmem hrec (hall file hf)
    have hlast := (hempty.of_serves hw').shown_of_clean hroot hpaths hmd5 hix' hcount hclean'
    have hdirect := (hsound.of_serves hw₀).shown_of_clean hroot hpaths hmd5 hix' hcount hclean₀
    exact hlast.triples.trans hdirect.triples.symm

end Setting

/-- Without a provider a run that is to ask for vectors fails after detection, if there is a file to
process. -/
theorem Run.noProvider_of_processed {w : World} (hp : ix.provider = none)
    (hw : w.faults = Faults.none) (hopen : w.store.isClosed = false)
    (hread : ∀ file ∈ ix.files, ix.disk.read (ix.root.below file) ≠ .error .badName)
    (hproc : (ix.report w.store).processed ≠ []) :
    (outcome (indexProject ix false) w).1 = .error (.setup .noProvider) ∧
      (outcome (indexProject ix false) w).2.store = ix.detected w.store := by
  have hrun : wp w.faults (indexProject ix false)
      (fun r v => r = .error (.setup .noProvider) ∧ v.store = ix.detected w.store) w.view := by
    rw [hw]
    refine wp_indexProject_of_none hopen hread fun errors => ?_
    exact wp_finish_of_provider_eq_none hp hproc ⟨rfl, rfl⟩
  exact hrun.at_world

/-- A run that finds nothing to process ends at once, in either mode. -/
theorem exists_clean_of_idle {w : World} {deferred : Bool} (hw : w.faults = Faults.none)
    (hopen : w.store.isClosed = false)
    (hread : ∀ file ∈ ix.files, ix.disk.read (ix.root.below file) ≠ .error .badName)
    (hproc : (ix.report w.store).processed = [])
    (hskip : (ix.report w.store).filesWith .skipped = []) : ∃ t, Clean ix deferred w t := by
  have hrun : Run.wp w.faults (Run.indexProject ix deferred)
      (fun r _ => ∃ t, r = .ok t ∧ t.errors = 0 ∧ t.timedOut = false) w.view := by
    rw [hw]
    refine Run.wp_indexProject_of_none hopen hread fun errors => ?_
    exact Run.wp_finish_of_idle hproc ⟨_, rfl, congrArg List.length hskip, rfl⟩
  obtain ⟨t, hended, herrors, htime⟩ := hrun.at_world
  exact ⟨t, hw, hended, herrors ▸ Nat.zero_le _, htime⟩

theorem exists_clean_of_map {w : World} {deferred : Bool} (hw : w.faults = Faults.none)
    (h : ((Run.outcome (Run.indexProject ix deferred) w).1.map fun t => (t.errors, t.timedOut)) =
      .ok (0, false)) : ∃ t, Clean ix deferred w t := by
  cases hr : (Run.outcome (Run.indexProject ix deferred) w).1 with
  | error e =>
    rw [hr] at h
    cases h
  | ok t =>
    rw [hr] at h
    obtain ⟨herrors, htime⟩ := Prod.mk.inj (Except.ok.inj h)
    exact ⟨t, hw, hr, herrors ▸ Nat.zero_le _, htime⟩

/-! ### A tree with one file and no provider -/

namespace Sample

/-- An indexer of the tree with one file that has no provider. -/
def bare : Indexer := { indexer [104, 105] with provider := none }

/-- The store that the failed run leaves. -/
def abandoned : Store := { fingerprints := [("a.txt", Digest.md5 [104, 105])] }

theorem allows_bare : (setting {[104, 105]}).Allows bare :=
  (allows (Set.mem_singleton _)).alike ⟨rfl, rfl, rfl, rfl, rfl, rfl⟩

theorem processed_bare : (bare.report {}).processed = ["a.txt"] := by
  rw [show bare.report {} = (indexer [104, 105]).report {} from rfl, report_empty]
  rfl

theorem outcome_bare :
    (Run.outcome (Run.indexProject bare false) {}).1 = .error (.setup .noProvider) ∧
      (Run.outcome (Run.indexProject bare false) {}).2.store = abandoned := by
  have hread : ∀ file ∈ bare.files, bare.disk.read (bare.root.below file) ≠ .error .badName :=
    read_ne_badName
  obtain ⟨hraised, hleft⟩ := Run.noProvider_of_processed (w := {}) rfl rfl rfl hread
    (by rw [show World.store {} = {} from rfl, processed_bare]; exact List.cons_ne_nil _ _)
  refine ⟨hraised, hleft.trans ?_⟩
  exact (show bare.detected {} = (indexer [104, 105]).detected {} from rfl).trans detected_empty

theorem exists_clean_abandoned (deferred : Bool) :
    ∃ t, Clean (indexer [104, 105]) deferred { store := abandoned } t := by
  refine exists_clean_of_idle rfl rfl read_ne_badName ?_ ?_
  · rw [report_unchanged rfl]
    rfl
  · rw [report_unchanged rfl]
    rfl

/-- An indexer of the newer tree that has no provider. -/
def unprovided : Indexer := { newer with provider := none }

theorem files_unprovided :
    unprovided.scanner.files unprovided.disk = ["a.txt", "b.txt", "c.txt"] := files_newer

/-- What the files of the older and the newer tree have in them. -/
def contents : List Bytes := [xyxz, [117, 10, 118], [117, 10, 119], [116, 10, 115]]

/-- The setting of the older and the newer tree. -/
def changing : Setting := ⟨⟨"/", []⟩, ⟨[byLine]⟩, {c | c ∈ contents}⟩

theorem md5_changing : changing.contents.InjOn Digest.md5 := by
  have h : ∀ a ∈ contents, ∀ b ∈ contents, Digest.md5 a = Digest.md5 b → a = b := by
    decide +kernel
  exact fun a ha b hb => h a ha b hb

theorem allows_of_files {ix : Indexer} {files : List String} (hroot : ix.root = changing.root)
    (hregistry : ix.registry = changing.registry) (hnamed : ix.disk.tree.Named)
    (hfiles : ix.files = files)
    (hread : ∀ q ∈ files, ∃ c ∈ contents, ix.disk.read (ix.root.below q) = .ok c) :
    changing.Allows ix := by
  refine ⟨hroot, hregistry, hnamed, fun file hf bytes hb => ?_⟩
  rw [hfiles] at hf
  obtain ⟨c, hc, he⟩ := hread file hf
  rw [he] at hb
  cases hb
  exact hc

theorem allows_older : changing.Allows older :=
  allows_of_files rfl rfl named_older files_older (by decide +kernel)

theorem allows_newer : changing.Allows newer :=
  allows_of_files rfl rfl named_newer files_newer (by decide +kernel)

end Sample

/-- The failed run took up the changed file and the new one and stored none of their blocks, and the
next run does not make up for it: only the blocks of the file that did not change are held. -/
theorem made_up_iff_stored_sample :
    let s := (Run.outcome (Run.indexProject Sample.older true) {}).2.store
    let failed := Run.outcome (Run.indexProject Sample.unprovided false) { store := s }
    let w : World := { store := failed.2.store }
    let last := (Run.outcome (Run.indexProject Sample.newer false) w).2.store
    let direct := (Run.outcome (Run.indexProject Sample.newer false) { store := s }).2.store
    failed.1 = .error (.setup .noProvider) ∧ (∃ t, Clean Sample.newer false w t) ∧
      (last.rows.map fun r => r.block.name) = [some "x", some "y", some "z"] ∧
      last.triples ≠ direct.triples := by
  intro s failed w last direct
  obtain ⟨hfirst, hraised, hlast, hdirect, hrows, hfree⟩ :
      ((Run.outcome (Run.indexProject Sample.older true) {}).1.map fun t =>
        (t.errors, t.timedOut)) = .ok (0, false) ∧
      failed.1 = .error (.setup .noProvider) ∧
      ((Run.outcome (Run.indexProject Sample.newer false) w).1.map fun t =>
        (t.errors, t.timedOut)) = .ok (0, false) ∧
      ((Run.outcome (Run.indexProject Sample.newer false) { store := s }).1.map fun t =>
        (t.errors, t.timedOut)) = .ok (0, false) ∧
      (failed.2.store.rows.map fun r => r.block.name) = [some "x", some "y", some "z"] ∧
      ∃ file ∈ (Sample.unprovided.report s).processed, ∃ b ∈ Sample.unprovided.blocksOf file,
        failed.2.store.holds b = false := by
    simp only [w, failed, s, Indexer.report, Indexer.files, Run.indexProject, Run.scan,
      Sample.files_older, Sample.files_newer, Sample.files_unprovided]
    decide +kernel
  obtain ⟨t, ht⟩ := exists_clean_of_map (w := {}) rfl hfirst
  obtain ⟨t', ht'⟩ := exists_clean_of_map (w := w) rfl hlast
  obtain ⟨t₀, ht₀⟩ := exists_clean_of_map (w := { store := s }) rfl hdirect
  have hstep : ReflTransGen Sample.changing.MildStep {} s :=
    .single (.run none true Sample.allows_older rfl Faults.mild_none Sample.keepsCount_project
      ht.ended)
  have halike : Sample.unprovided.Alike Sample.newer := ⟨rfl, rfl, rfl, rfl, rfl, rfl⟩
  have hallows : Sample.changing.Allows Sample.unprovided :=
    Sample.allows_newer.alike ⟨rfl, rfl, rfl, rfl, rfl, rfl⟩
  have hserves : World.Serves { store := s } s := ⟨rfl, s.now, rfl⟩
  have hw : w.Serves failed.2.store := ⟨rfl, w.store.now, rfl⟩
  obtain ⟨hsame, -, htriples⟩ := Setting.made_up_iff_stored (Sample.normal_project [])
    (Sample.keepsPaths_project []) Sample.md5_changing hstep hallows halike Sample.keepsCount_project
    hserves hraised hw ht' hserves ht₀
  refine ⟨hraised, ⟨t', ht'⟩, by rw [show last.rows = _ from hsame]; exact hrows, fun heq => ?_⟩
  obtain ⟨file, hfile, b, hb, hnot⟩ := hfree
  have hheld := htriples.mp heq file hfile b hb
  rw [hnot] at hheld
  cases hheld

/-- A run that asks for vectors without a provider fails, and the next run, which has a provider and
meets no failure, leaves the block of the only file out of the store. -/
theorem lost_after_failure :
    let ix := Sample.indexer [104, 105]
    let first := Run.outcome (Run.indexProject Sample.bare false) {}
    let last := Run.outcome (Run.indexProject ix false) { store := first.2.store }
    first.1 = .error (.setup .noProvider) ∧ (∃ t, Clean ix false { store := first.2.store } t) ∧
      "a.txt" ∈ ix.files ∧ Sample.block [104, 105] ∈ ix.blocksOf "a.txt" ∧
      last.2.store.holds (Sample.block [104, 105]) = false ∧
      (Run.outcome (Run.indexProject ix false) {}).2.store.holds (Sample.block [104, 105]) =
        true := by
  intro ix first last
  obtain ⟨hraised, hleft⟩ := Sample.outcome_bare
  obtain ⟨t, hclean⟩ := Sample.exists_clean_abandoned false
  have hclean' : Clean ix false { store := first.2.store } t := by
    rw [show first.2.store = _ from hleft]
    exact hclean
  have hseen : ix.Seen first.2.store := by
    have hx := Run.indexed_outcome Sample.bare false {}
    rw [hraised] at hx
    have hbare := Setting.Sound.of_raised (Sample.normal_root [104, 105])
      (Sample.keepsPaths {[104, 105]}) Sample.allows_bare hx Setting.sound_empty
    exact hbare.1.alike ⟨rfl, rfl, rfl, rfl, rfl, rfl⟩
  have hrows : last.2.store.rows = first.2.store.rows := by
    have hx := Run.indexed_outcome ix false { store := first.2.store }
    rw [hclean'.ended] at hx
    refine hx.rows_eq_of_seen ?_ hseen
    rw [show first.2.store = _ from hleft]
    rfl
  refine ⟨hraised, ⟨t, hclean'⟩, ?_, ?_, ?_, ?_⟩
  · rw [Sample.files_indexer]
    exact List.mem_singleton_self _
  · rw [Sample.blocksOf_indexer]
    exact List.mem_singleton_self _
  · rw [Store.holds, hrows, show first.2.store = _ from hleft]
    rfl
  · obtain ⟨t, -, hs⟩ := Sample.outcome_combined [104, 105]
    rw [hs]
    rfl

end BlockIndex
