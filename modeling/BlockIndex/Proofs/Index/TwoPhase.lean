import BlockIndex.Proofs.Index.Answers
import BlockIndex.Proofs.Run.Delivered

/-! Indexing without vectors and filling them in comes to what indexing with vectors comes to.  What
a run makes of the rows does not look at their vectors, so it commutes with every change of rows
that leaves their blocks alone (`image_stored`).  Filling in vectors is such a change, and it turns
the rows that a run makes without vectors into those that a run makes with them. -/

namespace BlockIndex

/-- The store with every row changed, where no time is noted for new rows. -/
def Store.image (φ : Row → Row) (s : Store) : Store :=
  { s with rows := s.rows.map φ, now := none }

/-- A row for which no time is noted. -/
def Row.undated (r : Row) : Row := { r with createdAt := none }

/-- A change of rows that leaves the blocks alone and takes new rows of blocks with what there is
for a vector to new rows with something else. -/
structure Row.Carries (φ : Row → Row) (vec vec' : Block → Option Vector) : Prop where
  block : ∀ r, (φ r).block = r.block
  newRow : ∀ s b, φ (Store.newRow s b (vec b) b.embeddingText) =
    (s.image φ).newRow b (vec' b) b.embeddingText

namespace Store

variable {φ : Row → Row} {vec vec' : Block → Option Vector} {s : Store} {file : String} {b : Block}

/-! ### Fingerprints and rows of files -/

section Blocks

variable (hblock : ∀ r, (φ r).block = r.block)
include hblock

theorem image_deleteBlocks : (s.deleteBlocks file).image φ = (s.image φ).deleteBlocks file := by
  simp only [deleteBlocks, image, List.filter_map]
  congr 3
  funext r
  simp [hblock]

theorem image_record (digest : String) (w : Verdict) :
    (s.record file digest w).image φ = (s.image φ).record file digest w := by
  unfold record
  split
  · rw [← image_deleteBlocks hblock]
    rfl
  · rfl

theorem image_pruned (current : List String) :
    (s.pruned current).image φ = (s.image φ).pruned current := by
  have hforgotten : ∀ (files : List String) (s : Store),
      (files.foldl forgotten s).image φ = files.foldl forgotten (s.image φ) := by
    intro files
    induction files with
    | nil => exact fun _ => rfl
    | cons file files ih =>
      intro s
      have hfile : (s.forgotten file).image φ = (s.image φ).forgotten file := by
        unfold forgotten
        rw [← image_deleteBlocks hblock]
        rfl
      rw [List.foldl_cons, List.foldl_cons, ih, hfile]
  exact hforgotten _ s

theorem image_judged (disk : Disk Bytes) (root : Path) :
    (s.image φ).judged disk root file =
      ((s.judged disk root file).1, (s.judged disk root file).2.image φ) := by
  unfold judged
  cases disk.read (root.below file) with
  | error _ => rfl
  | ok bytes =>
    have hprint : (s.image φ).fingerprint? file = s.fingerprint? file := rfl
    simp only [hprint]
    split
    · rfl
    · rw [image_record hblock]

theorem image_judgedAll (disk : Disk Bytes) (root : Path) (files : List String) :
    (s.image φ).judgedAll disk root files =
      ((s.judgedAll disk root files).1, (s.judgedAll disk root files).2.image φ) := by
  induction files generalizing s with
  | nil => rfl
  | cons file files ih =>
    simp only [judgedAll]
    rw [image_judged hblock]
    simp only [ih]

theorem holds_image : (s.image φ).holds b = s.holds b := by
  simp [holds, image, List.any_map, Function.comp_def, hblock]

theorem isTaken_image : (s.image φ).isTaken b = s.isTaken b := by
  simp [isTaken, image, List.any_map, Function.comp_def, hblock]

theorem missing_image (seen : List Identity) (bs : List Block) :
    (s.image φ).missing seen bs = s.missing seen bs := by
  simp [missing, holds_image hblock]

end Blocks

theorem image_marked : (s.marked file).image φ = (s.image φ).marked file := by
  have hprint : (s.image φ).fingerprint? file = s.fingerprint? file := rfl
  unfold marked
  rw [hprint]
  cases s.fingerprint? file with
  | none => rfl
  | some text =>
    simp only
    split <;> rfl

theorem image_foldl_marked (files : List String) :
    (files.foldl marked s).image φ = files.foldl marked (s.image φ) := by
  induction files generalizing s with
  | nil => rfl
  | cons file files ih => rw [List.foldl_cons, List.foldl_cons, ih, image_marked]

/-! ### Saving -/

section Carries

variable (hφ : Row.Carries φ vec vec')
include hφ

theorem image_saveStep (failed : List String) :
    saveStep vec' (s.image φ, failed) b =
      ((saveStep vec (s, failed) b).1.image φ, (saveStep vec (s, failed) b).2) := by
  unfold saveStep save?
  simp only [isTaken_image hφ.block]
  cases s.isTaken b with
  | true => rfl
  | false =>
    simp only [Bool.false_eq_true, if_false, image, List.map_append, List.map_cons, List.map_nil,
      hφ.newRow]

theorem image_foldl_saveStep (bs : List Block) (failed : List String) :
    bs.foldl (saveStep vec') (s.image φ, failed) =
      ((bs.foldl (saveStep vec) (s, failed)).1.image φ,
        (bs.foldl (saveStep vec) (s, failed)).2) := by
  induction bs generalizing s failed with
  | nil => rfl
  | cons b bs ih => rw [List.foldl_cons, List.foldl_cons, image_saveStep hφ, ih]

/-- What a run makes of the changed rows is what it makes of the rows, changed. -/
theorem image_stored (ix : Indexer) : (ix.stored vec s).image φ = ix.stored vec' (s.image φ) := by
  have hjudged := image_judgedAll hφ.block (s := s.pruned ix.files) ix.disk ix.root ix.files
  rw [image_pruned hφ.block] at hjudged
  have hdetected : ix.detected (s.image φ) = (ix.detected s).image φ := congrArg Prod.snd hjudged
  have hfound : ix.found (s.image φ) = ix.found s := by
    simp only [Indexer.found, Indexer.report, hjudged]
  unfold Indexer.stored
  simp only [hdetected, hfound, storing, missing_image hφ.block, image_foldl_saveStep hφ,
    image_foldl_marked]

end Carries

end Store

/-! ### The two changes -/

theorem Row.carries_undated (vec : Block → Option Vector) : Carries undated vec vec :=
  ⟨fun _ => rfl, fun _ _ => rfl⟩

/-- Filling in vectors takes new rows without vectors to new rows with vectors. -/
theorem Row.carries_filled {g : String → Vector} (hne : ∀ text, g text ≠ []) :
    Carries (fun r => (r.filled g).undated) (fun _ => none) fun b => some (g b.embeddingText) := by
  constructor
  · intro r
    unfold filled
    split <;> rfl
  · intro s b
    have hsome : (some (g b.embeddingText)).filter (fun v => !v.isEmpty) =
        some (g b.embeddingText) := by
      simp [Option.filter, hne]
    simp only [Store.newRow, filled, isPending, undated, Store.image, hsome]
    rfl

theorem Store.image_filled (g : String → Vector) (s : Store) :
    (s.filled g).image Row.undated = s.image fun r => (r.filled g).undated := by
  simp only [filled, image, List.map_map]
  rfl

/-- Where no row waits there is nothing to fill in. -/
theorem Store.filled_of_pending_eq_nil {g : String → Vector} {s : Store} (h : s.pending = []) :
    s.filled g = s := by
  have hrow : s.rows.map (Row.filled g) = s.rows.map id := by
    refine List.map_congr_left fun r hr => ?_
    have hwait := List.filter_eq_nil_iff.mp h r hr
    exact if_neg hwait
  rw [filled, hrow, List.map_id]

/-- On a store in which no row waits a run without vectors and filling them in give the rows that a
run with vectors gives. -/
theorem Indexer.stored_filled (ix : Indexer) {g : String → Vector} {s : Store}
    (hne : ∀ text, g text ≠ []) (h : s.pending = []) (time time' : Option String) :
    ((ix.stored (fun _ => none) { s with now := time }).filled g).image Row.undated =
      (ix.stored (fun b => some (g b.embeddingText)) { s with now := time' }).image
        Row.undated := by
  have hstart : Store.image (fun r => (r.filled g).undated) { s with now := time } =
      Store.image Row.undated { s with now := time' } := by
    rw [← Store.image_filled]
    show (s.filled g).image Row.undated = s.image Row.undated
    rw [Store.filled_of_pending_eq_nil h]
  calc ((ix.stored (fun _ => none) { s with now := time }).filled g).image Row.undated
      = (ix.stored (fun _ => none) { s with now := time }).image
          fun r => (r.filled g).undated := Store.image_filled g _
    _ = ix.stored (fun b => some (g b.embeddingText))
          (Store.image (fun r => (r.filled g).undated) { s with now := time }) :=
        Store.image_stored (Row.carries_filled hne) ix
    _ = ix.stored (fun b => some (g b.embeddingText))
          (Store.image Row.undated { s with now := time' }) := by rw [hstart]
    _ = (ix.stored (fun b => some (g b.embeddingText)) { s with now := time' }).image
          Row.undated := (Store.image_stored (Row.carries_undated _) ix).symm

/-! ### Runs -/

/-- Two indexers work on one tree in one way; they may differ in how they ask for vectors. -/
structure Indexer.Alike (ix ix' : Indexer) : Prop where
  root : ix.root = ix'.root
  disk : ix.disk = ix'.disk
  registry : ix.registry = ix'.registry
  scanner : ix.scanner = ix'.scanner
  history : ix.history = ix'.history
  commits : ix.commits = ix'.commits

/-- Alike indexers find the same blocks, and runs without hindrance make the same of a store. -/
theorem Indexer.Alike.same {ix ix' : Indexer} (h : ix.Alike ix') :
    ix.files = ix'.files ∧ ix.blocksOf = ix'.blocksOf ∧ ix.stored = ix'.stored := by
  obtain ⟨root, disk, registry, scanner, provider, history, commits, timeout, batchSize⟩ := ix
  obtain ⟨root', disk', registry', scanner', provider', history', commits', timeout', batchSize'⟩ :=
    ix'
  obtain ⟨rfl, rfl, rfl, rfl, rfl, rfl⟩ := h
  exact ⟨rfl, rfl, rfl⟩

/-- Indexing without vectors and then filling them in ends in the store in which indexing with
vectors ends: the rows have the same numbers, blocks, texts and vectors, and the fingerprints are
the same. -/
theorem two_phase_eq_one_phase {s : Store} {D : Set (String × Vector)} (hs : s.Made D)
    (hpending : s.pending = []) {ix ix' filler : Indexer} (halike : ix.Alike ix')
    (hroot : ix.root.Normal) (hnamed : ix.disk.tree.Named)
    (hfit : ∀ file ∈ ix.files, ∀ b ∈ ix.blocksOf file, b.span.last < StoreCall.limit)
    {p p' : Provider} (hp : filler.provider = some p) (hp' : ix'.provider = some p')
    {g : String → Vector} (hg : p.Computes g) (hg' : p'.Computes g) (hne : ∀ text, g text ≠ [])
    {w w₂ w' : World} (hw : w.Serves s) (hw' : w'.Serves s)
    (hw₂ : w₂.Serves (Run.outcome (Run.indexProject ix true) w).2.store)
    (hlast : (Run.outcome (Run.indexProject ix true) w).2.store.lastId < StoreCall.limit)
    (htime₂ : ∀ t, (Run.outcome (Run.backfill filler) w₂).1 = .ok t → t.timedOut = false)
    (htime' : ∀ t, (Run.outcome (Run.indexProject ix' false) w').1 = .ok t → t.timedOut = false) :
    let first := Run.outcome (Run.indexProject ix true) w
    let second := Run.outcome (Run.backfill filler) w₂
    let both := Run.outcome (Run.indexProject ix' false) w'
    (∃ t t₂ t', first.1 = .ok t ∧ second.1 = .ok t₂ ∧ both.1 = .ok t') ∧
      (second.2.store.restamp none).rows = (both.2.store.restamp none).rows ∧
      second.2.store.fingerprints = both.2.store.fingerprints ∧
      second.2.store.lastId = both.2.store.lastId := by
  intro first second both
  obtain ⟨time, hstore⟩ := hw.store
  obtain ⟨time₂, hstore₂⟩ := hw₂.store
  obtain ⟨time', hstore'⟩ := hw'.store
  have hopen := hs.answered.isOpen
  have hread := Indexer.read_ne_badName hroot hnamed
  have hmade := (hs.indexed ix true time hstore).answered
  obtain ⟨t, ht, hfirst⟩ := Run.outcome_deferred hw.faults (hw.isOpen hopen) hread hfit
  obtain ⟨t₂, ht₂, hsecond⟩ : ∃ t, second.1 = .ok t ∧
      (t.timedOut = false → second.2.store = w₂.store.filled g) := by
    refine Run.outcome_backfill hp hg hw₂.faults (hw₂.isOpen hmade.isOpen) ?_ ?_
    · rw [hstore₂]
      exact fun a ha r hr hid => hmade.eq_of_id_eq hr ha hid
    · rw [hstore₂]
      exact fun r hr => Nat.lt_of_le_of_lt (hmade.le_lastId r hr) hlast
  obtain ⟨hfiles, hblocks, hsame⟩ := halike.same
  obtain ⟨t', ht', hboth⟩ : ∃ t, both.1 = .ok t ∧ (t.timedOut = false →
      both.2.store = ix'.stored (fun b => some (g b.embeddingText)) w'.store) := by
    rw [hfiles, hblocks] at hfit
    rw [halike.root] at hroot
    rw [halike.disk] at hnamed
    exact Run.outcome_combined hp' hg' hw'.faults (hw'.isOpen hopen)
      (Indexer.read_ne_badName hroot hnamed) hfit
  have hsecond := hsecond (htime₂ t₂ ht₂)
  have hboth := hboth (htime' t' ht')
  rw [hstore₂, hfirst, hstore] at hsecond
  rw [← hsame, hstore'] at hboth
  have heq := ix.stored_filled hne hpending time time'
  have hrows := congrArg Store.rows heq
  have hprints := congrArg Store.fingerprints heq
  have hlasts := congrArg Store.lastId heq
  refine ⟨⟨t, t₂, t', ht, ht₂, ht'⟩, ?_⟩
  rw [hsecond, hboth]
  exact ⟨hrows, hprints, hlasts⟩

/-- After a run that the store hindered and a change of the tree, indexing in two runs and in one
leave the same: two blocks were stored before, one is met again, and the last group has one block. -/
theorem two_phase_eq_one_phase_sample :
    let s := (Run.outcome (Run.indexProject Sample.older false)
      { faults := Sample.refusingName "y" }).2.store
    let w : World := { store := (Run.outcome (Run.indexProject Sample.newer true)
      { store := s }).2.store }
    let second := Run.outcome (Run.backfill Sample.newer) w
    let both := Run.outcome (Run.indexProject Sample.newer false) { store := s }
    (both.2.store.rows.map fun r => (r.id, r.block.name)) =
        [(1, some "x"), (2, some "z"), (5, some "y"), (6, some "u"), (7, some "w"), (8, some "t"),
          (9, some "s")] ∧
      (second.2.store.restamp none).rows = (both.2.store.restamp none).rows ∧
      second.2.store.fingerprints = both.2.store.fingerprints ∧
      second.2.store.lastId = both.2.store.lastId := by
  intro s w second both
  have hmade := Store.Made.empty.indexed (w := { faults := Sample.refusingName "y" })
    Sample.older false none rfl
  obtain ⟨hpending, hlast, hsecond, hboth, hrows⟩ : s.pending = [] ∧
      w.store.lastId < StoreCall.limit ∧ second.1.map (·.timedOut) = .ok false ∧
      both.1.map (·.timedOut) = .ok false ∧
      (both.2.store.rows.map fun r => (r.id, r.block.name)) =
        [(1, some "x"), (2, some "z"), (5, some "y"), (6, some "u"), (7, some "w"), (8, some "t"),
          (9, some "s")] := by
    simp only [second, both, w, s, Run.indexProject, Run.scan, Sample.files_older,
      Sample.files_newer]
    decide +kernel
  have hfit : ∀ file ∈ Sample.newer.files, ∀ b ∈ Sample.newer.blocksOf file,
      b.span.last < StoreCall.limit := by
    rw [Indexer.files, Sample.files_newer]
    decide +kernel
  have hserves : World.Serves { store := s } s := ⟨rfl, s.now, rfl⟩
  have hw : w.Serves w.store := ⟨rfl, w.store.now, rfl⟩
  have inTime {r : Except Failure Tally} (h : r.map (·.timedOut) = .ok false) :
      ∀ t, r = .ok t → t.timedOut = false := by
    rintro t rfl
    exact Except.ok.inj h
  obtain ⟨p, hp, hg⟩ : ∃ p, Sample.newer.provider = some p ∧ p.Computes Sample.vector :=
    Sample.exists_computes_project _
  obtain ⟨-, hsame⟩ := two_phase_eq_one_phase hmade hpending ⟨rfl, rfl, rfl, rfl, rfl, rfl⟩
    (Sample.normal_project _) Sample.named_newer hfit hp hp hg hg (fun text => List.cons_ne_nil _ _)
    hserves hserves hw hlast (inTime hsecond) (inTime hboth)
  exact ⟨hrows, hsame⟩

end BlockIndex
