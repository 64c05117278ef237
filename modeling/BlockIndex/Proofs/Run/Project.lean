import BlockIndex.Proofs.Run.Detection
import BlockIndex.Proofs.Run.Stored
import BlockIndex.Proofs.Tree.Names
import BlockIndex.Run.Project

/-! What indexing a tree can do to a world: the phases that it goes through and where it may stop.
`wp_indexProject` says that every outcome is one of `Indexed`. -/

namespace BlockIndex

namespace Indexer

variable (ix : Indexer)

/-- The files that the scanner finds. -/
def files : List String := ix.scanner.files ix.disk

/-- The subjects of the last commits of a file. -/
def subjects (file : String) : List String :=
  match ix.history with
  | none => []
  | some history =>
    if ix.commits ≤ 0 then []
    else
      match history file ix.commits with
      | .ok subjects => subjects
      | .error _ => []

/-- The blocks that the extractor for a file finds in it. -/
def extraction (file : String) : Except ExtractError (List Block) :=
  match ix.registry.find? (Path.ofString file).suffix with
  | none => .ok []
  | some e => e.blocksOf ix.disk (ix.root.below file).toString

/-- The blocks of a file as they are noted; there are none if the extractor gives up. -/
def blocksOf (file : String) : List Block :=
  match ix.extraction file with
  | .ok bs => bs.map (Run.annotate file (ix.subjects file))
  | .error _ => []

/-- Whether the extractor for a file gives up on it. -/
def givesUp (file : String) : Bool :=
  match ix.extraction file with
  | .ok _ => false
  | .error _ => true

/-- The numbers of a run after detection. -/
def started (report : ChangeReport) : Tally :=
  { scanned := ix.files.length
    processed := report.processed.length
    errors := (report.filesWith .skipped).length }

/-- The numbers of a run after extraction. -/
def extracted (report : ChangeReport) : Tally :=
  { (ix.started report).fail (report.processed.filter ix.givesUp).length with
    extracted := (report.processed.flatMap ix.blocksOf).length }

theorem isBelow_of_mem_files {ix : Indexer} {file : String} (h : ix.disk.tree.Named)
    (hf : file ∈ ix.files) : Path.IsBelow file :=
  Scanner.isBelow_of_mem_files h hf

/-- No file that a scan finds has a name that none can have. -/
theorem read_ne_badName {ix : Indexer} (hroot : ix.root.Normal) (h : ix.disk.tree.Named) :
    ∀ file ∈ ix.files, ix.disk.read (ix.root.below file) ≠ .error .badName := by
  intro file hf
  obtain ⟨way, -, -, -, hnormal⟩ := (isBelow_of_mem_files h hf).below_eq hroot
  exact Disk.read_ne_badName hnormal.not_mem_toString

/-- The blocks of a file that can be read are those that its content yields. -/
theorem blocksOf_eq_map_yield {ix : Indexer} {file : String} {bytes : Bytes}
    (hroot : ix.root.Normal) (hf : Path.IsBelow file)
    (hb : ix.disk.read (ix.root.below file) = .ok bytes) :
    ix.blocksOf file = (ix.registry.yield ix.root file bytes).map
      (Run.annotate file (ix.subjects file)) := by
  unfold blocksOf extraction Registry.yield
  cases ix.registry.find? (Path.ofString file).suffix with
  | none => rfl
  | some e =>
    simp only [Extractor.blocksOf, hf.ofString_below hroot, hb]
    cases e.extract (ix.root.below file).toString (sourceText bytes) <;> rfl

theorem identity_annotate (file : String) (commits : List String) (b : Block) :
    (Run.annotate file commits b).identity = b.identity := rfl

theorem displayPath_annotate {file : String} (hf : Path.IsBelow file) (commits : List String)
    (b : Block) : (Run.annotate file commits b).displayPath = file := by
  simp [Run.annotate, Block.displayPath, hf.isEmpty_eq]

/-- A first block of a file that can be read is a first block of its content, with notes. -/
theorem exists_of_mem_firsts_blocksOf {ix : Indexer} {file : String} {bytes : Bytes} {b : Block}
    (hroot : ix.root.Normal) (hf : Path.IsBelow file)
    (hbytes : ix.disk.read (ix.root.below file) = .ok bytes)
    (hb : b ∈ firsts [] (ix.blocksOf file)) :
    b.displayPath = file ∧ ∃ b₀ ∈ firsts [] (ix.registry.yield ix.root file bytes),
      b₀.identity = b.identity ∧ b₀.text = b.text := by
  rw [blocksOf_eq_map_yield hroot hf hbytes, firsts_map (identity_annotate file _)] at hb
  obtain ⟨b₀, hb₀, rfl⟩ := List.mem_map.mp hb
  exact ⟨displayPath_annotate hf _ _, b₀, hb₀, rfl, rfl⟩

end Indexer

variable {f : Faults} {v : View}

/-- What pruning and detection can do when all files are judged. -/
structure Detected (f : Faults) (ix : Indexer) (s : Store) (report : ChangeReport) (s' : Store) :
    Prop where
  pruned_judged : ∃ s₁ ws, Pruned f ix.files s s₁ ∧
    Each (JudgedFile f ix.disk ix.root) ix.files s₁ ws s' ∧ report = ⟨ix.files.zip ws⟩

/-- A file whose blocks are extracted has the digest of its bytes. -/
theorem Detected.recorded {ix : Indexer} {s s' : Store} {report : ChangeReport} {file : String}
    (h : Detected f ix s report s') (hf : file ∈ report.processed) :
    file ∈ ix.files ∧ Recorded ix.disk ix.root file s' := by
  obtain ⟨s₁, ws, -, hj, rfl⟩ := h.pruned_judged
  obtain ⟨w, hw, hp⟩ := ChangeReport.mem_processed.mp hf
  exact ⟨(List.of_mem_zip hw).1, hj.recorded hw (Verdict.ne_skipped_of_isProcessed hp)⟩

/-- What may come of indexing a tree. -/
inductive Indexed (f : Faults) (ix : Indexer) (deferred : Bool) (v : View) :
    Except Failure Tally → View → Prop
  /-- Detection stops at a name that no file has. -/
  | badName {s₁ s₂ : Store} {done : List String} {ws : List Verdict} {file : String}
      (pruned : Pruned f ix.files v.store s₁) (hd : done <+: ix.files)
      (judged : Each (JudgedFile f ix.disk ix.root) done s₁ ws s₂) (hf : file ∈ ix.files)
      (bad : ix.disk.read (ix.root.below file) = .error .badName) :
      Indexed f ix deferred v (.error (.access .badName file)) { v with store := s₂ }
  | idle {s : Store} {report : ChangeReport} (detected : Detected f ix v.store report s)
      (hp : report.processed = []) :
      Indexed f ix deferred v
        (.ok { ix.started report with elapsed := some (Ticks.round (v.clock - v.clock)) })
        { v with store := s }
  | noProvider {s : Store} {report : ChangeReport} (detected : Detected f ix v.store report s)
      (hd : deferred = false) (hp : ix.provider = none) :
      Indexed f ix deferred v (.error (.setup .noProvider)) { v with store := s }
  | failed {s : Store} {report : ChangeReport} {e : Failure} {v' : View}
      (detected : Detected f ix v.store report s)
      (stores : Stage.Stores f (Run.supplyAt ix deferred v.clock)
        ⟨report.processed.flatMap ix.blocksOf, { tally := ix.extracted report },
          { v with store := s }⟩ (.error e) v') :
      Indexed f ix deferred v (.error e) v'
  | stored {s s' : Store} {report : ChangeReport} {p : Run.Progress} {v' : View}
      {marks : List Bool} (detected : Detected f ix v.store report s)
      (stores : Stage.Stores f (Run.supplyAt ix deferred v.clock)
        ⟨report.processed.flatMap ix.blocksOf, { tally := ix.extracted report },
          { v with store := s }⟩ (.ok p) v')
      (marked : Each (Marked f) (Run.sortedOnce p.failed) v'.store marks s') :
      Indexed f ix deferred v (.ok { p.tally with elapsed := some (Ticks.round (v'.clock - v.clock)) })
        { v' with store := s' }

/-- A run ends if there is a provider that only refuses where one is needed, no file has a name that
none can have, and the line numbers fit the store. -/
theorem Indexed.exists_ok {ix : Indexer} {deferred : Bool} {r : Except Failure Tally} {v' : View}
    (hprovider : deferred = false → ∃ p, ix.provider = some p ∧ p.OnlyRefuses)
    (hread : ∀ file ∈ ix.files, ix.disk.read (ix.root.below file) ≠ .error .badName)
    (hfit : ∀ file ∈ ix.files, ∀ b ∈ ix.blocksOf file, b.span.last < StoreCall.limit)
    (h : Indexed f ix deferred v r v') : ∃ t, r = .ok t := by
  cases h with
  | badName _ _ _ hf hbad => exact absurd hbad (hread _ hf)
  | idle _ _ => exact ⟨_, rfl⟩
  | noProvider _ hd hp =>
    obtain ⟨p, hp', -⟩ := hprovider hd
    rw [hp] at hp'
    cases hp'
  | @failed s report e v' hd hst =>
    have hfit' : ∀ b ∈ report.processed.flatMap ix.blocksOf, b.span.last < StoreCall.limit := by
      intro b hb
      obtain ⟨file, hfile, hb⟩ := List.mem_flatMap.mp hb
      exact hfit file (hd.recorded hfile).1 b hb
    have hrefuse : ∀ c, Run.supplyAt ix deferred v.clock = some c → c.provider.OnlyRefuses := by
      intro c hc
      cases deferred with
      | true => cases hc
      | false =>
        obtain ⟨p, hp, hrefuse⟩ := hprovider rfl
        rw [Run.provider_of_supplyAt hc] at hp
        cases hp
        exact hrefuse
    obtain ⟨p, hp⟩ := hst.exists_ok hrefuse hfit'
    cases hp
  | stored _ _ _ => exact ⟨_, rfl⟩

namespace Run

theorem wp_commitsOf {ix : Indexer} {file : String} {Q : Except Failure (List String) → View → Prop}
    (h : Q (.ok (ix.subjects file)) v) : wp f (commitsOf ix file) Q v := by
  unfold commitsOf
  unfold Indexer.subjects at h
  cases hh : ix.history with
  | none => exact wp_pure (by simpa [hh] using h)
  | some history =>
    simp only [hh] at h ⊢
    split
    · next hc => exact wp_pure (by simpa [hc] using h)
    · next hc =>
      simp only [hc, if_false] at h
      cases hr : history file ix.commits with
      | ok subjects => exact wp_pure (by simpa [hr] using h)
      | error e => exact wp_bind (wp_debug (wp_pure (by simpa [hr] using h)))

theorem wp_extractFile {ix : Indexer} {file : String}
    {Q : Except Failure (Except ExtractError (List Block)) → View → Prop}
    (h : Q (.ok ((ix.extraction file).map fun bs => bs.map (annotate file (ix.subjects file)))) v) :
    wp f (extractFile ix file) Q v := by
  unfold extractFile
  unfold Indexer.extraction at h
  cases hf : ix.registry.find? (Path.ofString file).suffix with
  | none => exact wp_bind (wp_warn (wp_pure (by simpa [hf, Except.map] using h)))
  | some e =>
    simp only [hf] at h
    dsimp only
    rw [show ix.root.join (Path.ofString file) = ix.root.below file from rfl]
    cases hb : e.blocksOf ix.disk (ix.root.below file).toString with
    | error err => exact wp_bind (wp_warn (wp_pure (by simpa [hb, Except.map] using h)))
    | ok bs =>
      simp only [hb, Except.map] at h ⊢
      split
      · next he =>
        obtain rfl : bs = [] := by simpa using he
        exact wp_bind (wp_pure (wp_bind (wp_debug (wp_pure h))))
      · exact wp_bind (wp_commitsOf (wp_bind (wp_debug (wp_pure h))))

theorem wp_extractEach {ix : Indexer} {files : List String}
    {Q : Except Failure (List Block × Nat) → View → Prop}
    (h : Q (.ok (files.flatMap ix.blocksOf, (files.filter ix.givesUp).length)) v) :
    wp f (extractEach ix files) Q v := by
  induction files generalizing Q with
  | nil => exact wp_pure h
  | cons file files ih =>
    refine wp_bind (wp_extractFile (wp_bind (ih ?_)))
    simp only [List.flatMap_cons, List.filter_cons, Indexer.blocksOf, Indexer.givesUp] at h
    cases hx : ix.extraction file with
    | ok bs => exact wp_pure (by simpa [hx] using h)
    | error e => exact wp_pure (by simpa [hx] using h)

theorem wp_extractBlocks {ix : Indexer} {files : List String}
    {Q : Except Failure (List Block × Nat) → View → Prop}
    (h : Q (.ok (files.flatMap ix.blocksOf, (files.filter ix.givesUp).length)) v) :
    wp f (extractBlocks ix files) Q v :=
  wp_bind (wp_extractEach (wp_bind (wp_info (wp_pure h))))

theorem wp_indexProject {ix : Indexer} {deferred : Bool} {Q : Except Failure Tally → View → Prop}
    (h : ∀ r v', Indexed f ix deferred v r v' → Q r v') : wp f (indexProject ix deferred) Q v := by
  refine wp_bind (wp_info (wp_bind (wp_clock (wp_bind (wp_bind (wp_logAll (wp_pure ?_)))))))
  refine wp_bind (wp_prune fun gone s₁ hp => wp_bind (wp_detect ?_ fun ws s₂ hj => ?_))
  · exact fun done ws s₂ hd hj file hf hb => h _ _ (.badName hp hd hj hf hb)
  · have hdet : Detected f ix v.store ⟨ix.files.zip ws⟩ s₂ := ⟨s₁, ws, hp, hj, rfl⟩
    show wp f (if (ChangeReport.processed ⟨ix.files.zip ws⟩).isEmpty = true then _ else _) Q _
    split
    · next he =>
      have hx : Indexed f ix deferred v _ _ := .idle hdet (List.isEmpty_iff.mp he)
      exact wp_bind (wp_info (wp_bind (wp_clock (wp_pure (h _ _ hx)))))
    · refine wp_bind (wp_extractBlocks (wp_bind (wp_storeBlocks (fun hd hpr => ?_)
        (fun e v' hs => ?_) fun p v' marks s' hs hm => ?_)))
      · exact h _ _ (.noProvider hdet hd hpr)
      · exact h _ _ (.failed hdet hs)
      · have hx := Indexed.stored hdet hs hm
        exact wp_bind (wp_clock (wp_bind (wp_logAll (wp_pure (h _ _ hx)))))

/-- Whatever comes of indexing a tree is one of the known outcomes. -/
theorem indexed_outcome (ix : Indexer) (deferred : Bool) (w : World) :
    Indexed w.faults ix deferred w.view (outcome (indexProject ix deferred) w).1
      (outcome (indexProject ix deferred) w).2.view :=
  wp.at_world (wp_indexProject fun _ _ h => h)

end Run

end BlockIndex
