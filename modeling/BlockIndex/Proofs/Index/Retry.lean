import BlockIndex.Proofs.Index.FromScratch
import BlockIndex.Proofs.Run.Counts
import BlockIndex.Proofs.Run.Waiting

/-! Marks are exact.  When storing the blocks of files ends, the files with a mark are those with a
block that is not held: a file whose blocks are all held is not tried again, and no file with a
missing block is taken for done. -/

namespace BlockIndex

/-- Of the calls that storing makes only those that save blocks may be refused. -/
structure Faults.OnlySaving (f : Faults) : Prop where
  holds : ∀ i b, f i (.holds b) = Option.none
  fingerprint : ∀ i file, f i (.fingerprint file) = Option.none
  setFingerprint : ∀ i file text, f i (.setFingerprint file text) = Option.none

/-- A file is to be looked at again: its fingerprint has the mark. -/
def Store.IsRetried (s : Store) (file : String) : Prop :=
  ∃ text, s.fingerprint? file = some text ∧ Run.isMarked text = true

/-- One of some blocks is shown with the path of a file and is not held. -/
def Store.Lacks (s : Store) (bs : List Block) (file : String) : Prop :=
  ∃ b ∈ bs, b.displayPath = file ∧ s.holds b = false

/-- Of some files those have the mark of which the store lacks a block, and the fingerprints of all
others are those of the store before. -/
structure Store.MarksExactly (s before : Store) (files : List String) (bs : List Block) :
    Prop where
  retried : ∀ file ∈ files, s.IsRetried file ↔ s.Lacks bs file
  others : ∀ file, ¬s.Lacks bs file → s.fingerprint? file = before.fingerprint? file

variable {s : Store} {file : String} {files : List String} {ix : Indexer} {bs : List Block}

/-- Of files without the mark exactly those that are marked get it. -/
theorem Store.isRetried_foldl_marked {text : String} (hplain : s.fingerprint? file = some text)
    (hmark : Run.isMarked text = false) :
    (files.foldl marked s).IsRetried file ↔ file ∈ files := by
  unfold IsRetried
  rw [fingerprint?_foldl_marked]
  constructor
  · rintro ⟨text', htext, hmarked⟩
    by_contra hfile
    rw [if_neg hfile, hplain] at htext
    cases htext
    rw [hmark] at hmarked
    cases hmarked
  · intro hfile
    exact ⟨markText text, by rw [if_pos hfile, hplain]; rfl, isMarked_markText text⟩

theorem Store.MarksExactly.congr {before : Store} {bs' : List Block}
    (h : s.MarksExactly before files bs) (heq : ∀ file, s.Lacks bs file ↔ s.Lacks bs' file) :
    s.MarksExactly before files bs' :=
  ⟨fun file hmem => (h.retried file hmem).trans (heq file),
    fun file hall => h.others file fun hlacks => hall ((heq file).mp hlacks)⟩

/-- A store that has no room for another block. -/
def Sample.full : Faults := fun _ call =>
  match call with
  | .save _ => some "disk full"
  | _ => none

/-- A row of the block of a line in the first file. -/
def Sample.rowOf (id : Nat) (line : String) : Row where
  id := id
  block := { lineBlock "/a.txt" line with relativePath := some "a.txt" }
  vector := none
  text := line
  createdAt := none

/-- A store with two blocks of the first of three files, and no marks. -/
def Sample.untried : Store where
  rows := [rowOf 1 "x", rowOf 2 "z"]
  fingerprints := [("a.txt", "0"), ("b.txt", "1"), ("c.txt", "2")]
  lastId := 2

/-- If blocks of one identity are of one file, nothing is lost by looking at first blocks only. -/
theorem Store.lacks_firsts
    (hpath : ∀ b ∈ bs, ∀ d ∈ bs, b.identity = d.identity → b.displayPath = d.displayPath) :
    s.Lacks (firsts [] bs) file ↔ s.Lacks bs file := by
  constructor
  · rintro ⟨b, hb, hfile, hfree⟩
    exact ⟨b, mem_of_mem_firsts hb, hfile, hfree⟩
  · rintro ⟨b, hb, hfile, hfree⟩
    obtain ⟨d, hd, hi⟩ := exists_mem_firsts hb List.not_mem_nil
    refine ⟨d, hd, (hpath d (mem_of_mem_firsts hd) b hb hi).trans hfile, ?_⟩
    rw [holds_congr hi, hfree]

namespace Indexer

theorem relativePath_of_mem_blocksOf {b : Block} (hb : b ∈ ix.blocksOf file) :
    b.relativePath = some file := by
  unfold blocksOf at hb
  split at hb
  · obtain ⟨b₀, -, rfl⟩ := List.mem_map.mp hb
    rfl
  · cases hb

/-- The path that is shown for a block is that of the file in which it was found. -/
theorem displayPath_of_mem_blocksOf {b : Block} (hname : file ≠ "") (hb : b ∈ ix.blocksOf file) :
    b.displayPath = file := by
  simp [Block.displayPath, relativePath_of_mem_blocksOf hb, hname]

theorem path_of_mem_blocksOf {b : Block} (hpaths : ix.registry.KeepsPaths)
    (hb : b ∈ ix.blocksOf file) : b.path = (ix.root.below file).toString := by
  unfold blocksOf at hb
  split at hb
  · next bs hx =>
    obtain ⟨b₀, hb₀, rfl⟩ := List.mem_map.mp hb
    show b₀.path = _
    unfold extraction Extractor.blocksOf at hx
    split at hx
    · cases hx
      cases hb₀
    · next e he =>
      have hkeeps := hpaths e (List.mem_of_find?_eq_some he)
      split at hx
      · cases hx
      · split at hx
        · cases hx
        · next hextract =>
          cases hx
          exact hkeeps _ _ _ hextract b₀ hb₀
  · cases hb

/-- A block of a file shows the path of the file, or its own path if that of the file is empty. -/
theorem displayPath_eq_of_mem_blocksOf {b : Block} (hb : b ∈ ix.blocksOf file) :
    b.displayPath = if file = "" then b.path else file := by
  by_cases hname : file = ""
  · rw [if_pos hname]
    simp [Block.displayPath, relativePath_of_mem_blocksOf hb, hname]
  · rw [if_neg hname, displayPath_of_mem_blocksOf hname hb]

/-- Blocks of one identity are of one file, if each file is given by one path. -/
theorem displayPath_eq_of_identity_eq (hpaths : ix.registry.KeepsPaths)
    (hfiles : {file | file ∈ files}.InjOn fun file => (ix.root.below file).toString)
    {b d : Block} (hb : b ∈ files.flatMap ix.blocksOf) (hd : d ∈ files.flatMap ix.blocksOf)
    (hi : b.identity = d.identity) : b.displayPath = d.displayPath := by
  obtain ⟨file, hmem, hb⟩ := List.mem_flatMap.mp hb
  obtain ⟨file', hmem', hd⟩ := List.mem_flatMap.mp hd
  have hpath : b.path = d.path := congrArg Identity.path hi
  obtain rfl : file = file' := by
    refine hfiles hmem hmem' ?_
    show (ix.root.below file).toString = (ix.root.below file').toString
    rw [← path_of_mem_blocksOf hpaths hb, ← path_of_mem_blocksOf hpaths hd, hpath]
  rw [displayPath_eq_of_mem_blocksOf hb, displayPath_eq_of_mem_blocksOf hd, hpath]

end Indexer

namespace Run

theorem eq_of_extractBlocks {w : World} {errors : Nat}
    (h : (outcome (extractBlocks ix files) w).1 = .ok (bs, errors)) :
    bs = files.flatMap ix.blocksOf := by
  have hx : wp w.faults (extractBlocks ix files)
      (fun r _ => ∀ bs errors, r = .ok (bs, errors) → bs = files.flatMap ix.blocksOf) w.view := by
    refine wp_extractBlocks fun _ _ h => ?_
    cases h
    rfl
  exact hx.at_world bs errors h

/-- If only saving may be refused, storing that ends has marked all failed files. -/
theorem exists_stores_of_storeBlocks {w : World} {deferred : Bool} {t t' : Tally}
    (hopen : w.store.isClosed = false) (hf : w.faults.OnlySaving)
    (h : (outcome (storeBlocks ix deferred bs t) w).1 = .ok t') :
    ∃ p v, Stage.Stores w.faults (supplyAt ix deferred w.clock)
        ⟨bs, { tally := t }, w.view⟩ (.ok p) v ∧
      (outcome (storeBlocks ix deferred bs t) w).2.store =
        (sortedOnce p.failed).foldl Store.marked v.store := by
  obtain ⟨p, v, marks, s, hst, hm, -, hview⟩ := exists_stores_marked h
  have hopen' : v.store.isClosed = false := by
    refine hst.keeps_store (J := fun s => s.isClosed = false)
      (fun b _ vec s id s' hs hsave => ?_) hopen
    obtain ⟨-, -, rfl⟩ := Store.save?_eq_some.mp hsave
    exact hs
  refine ⟨p, v, hst, (congrArg View.store hview).trans ?_⟩
  exact hm.eq_marked_of_unrefused hf.fingerprint hf.setFingerprint hopen'

/-- When storing the blocks of files without marks ends, a file has the mark exactly if a block that
is the first of its identity and is shown with the path of the file is not held, whatever the
provider and the deadline did and whichever blocks the store refused to save; all other
fingerprints are as before.  If the files have different paths, a file has the mark exactly if any
block that is shown with its path is not held. -/
theorem retried_iff_unstored {w w₁ : World} {errors : Nat} {deferred : Bool} {t t' : Tally}
    (extracted : (outcome (extractBlocks ix files) w).1 = .ok (bs, errors))
    (hcount : ∀ p, ix.provider = some p → p.KeepsCount) (hopen : w₁.store.isClosed = false)
    (hf : w₁.faults.OnlySaving)
    (hplain : ∀ file ∈ files, ∃ text, w₁.store.fingerprint? file = some text ∧
      isMarked text = false)
    (ended : (outcome (storeBlocks ix deferred bs t) w₁).1 = .ok t') :
    let s := (outcome (storeBlocks ix deferred bs t) w₁).2.store
    s.MarksExactly w₁.store files (firsts [] bs) ∧
      (ix.registry.KeepsPaths →
        {file | file ∈ files}.InjOn (fun file => (ix.root.below file).toString) →
          s.MarksExactly w₁.store files bs) := by
  intro s
  obtain ⟨p, v, hst, hs⟩ := exists_stores_of_storeBlocks hopen hf ended
  have hheld : ∀ b, s.holds b = v.store.holds b := by
    intro b
    show (outcome _ _).2.store.holds b = _
    rw [hs, Store.holds, Store.rows_foldl_marked]
    rfl
  have hprint : ∀ file, v.store.fingerprint? file = w₁.store.fingerprint? file :=
    Store.fingerprint?_congr hst.fingerprints_eq
  have hfailed : ∀ file, file ∈ sortedOnce p.failed ↔ s.Lacks (firsts [] bs) file := by
    intro file
    simp only [Store.Lacks, hheld]
    rw [mem_sortedOnce]
    exact hst.mem_failed_iff (fun k hk => hcount _ (provider_of_supplyAt hk)) hopen hf.holds
  have hexact : s.MarksExactly w₁.store files (firsts [] bs) := by
    constructor
    · intro file hmem
      obtain ⟨text, htext, hmark⟩ := hplain file hmem
      rw [← hfailed, show s = _ from hs]
      exact Store.isRetried_foldl_marked ((hprint file).trans htext) hmark
    · intro file hall
      rw [← hfailed] at hall
      rw [show s = _ from hs, Store.fingerprint?_foldl_marked_of_not_mem hall, hprint]
  refine ⟨hexact, fun hpaths hfiles => hexact.congr fun file => Store.lacks_firsts ?_⟩
  rw [eq_of_extractBlocks extracted]
  exact fun b hb d hd => Indexer.displayPath_eq_of_identity_eq hpaths hfiles hb hd

/-- Of three files the first has a line twice, two lines that were stored before and one that the
store refuses to save.  Only this file gets the mark. -/
theorem retried_iff_unstored_sample :
    let files := ["a.txt", "b.txt", "c.txt"]
    let bs := files.flatMap Sample.newer.blocksOf
    let w : World := { store := Sample.untried, faults := Sample.refusingName "y" }
    let s := (outcome (storeBlocks Sample.newer false bs {}) w).2.store
    s.MarksExactly w.store files bs ∧ s.IsRetried "a.txt" ∧ ¬s.IsRetried "b.txt" ∧
      ¬s.IsRetried "c.txt" := by
  intro files bs w s
  have extracted : (outcome (extractBlocks Sample.newer files) {}).1 = .ok (bs, 0) := by
    decide +kernel
  have ended : (outcome (storeBlocks Sample.newer false bs {}) w).1 =
      .ok { existing := 3, saved := 4, generated := 5, errors := 1 } := by decide +kernel
  have hplain : ∀ file ∈ files, ∃ text, w.store.fingerprint? file = some text ∧
      isMarked text = false := by
    simp only [files, List.forall_mem_cons, List.not_mem_nil, false_imp_iff, implies_true, and_true]
    exact ⟨⟨_, rfl, by decide⟩, ⟨_, rfl, by decide⟩, ⟨_, rfl, by decide⟩⟩
  have hf : w.faults.OnlySaving := ⟨fun _ _ => rfl, fun _ _ => rfl, fun _ _ _ => rfl⟩
  have hpaths : ∀ q ∈ files, ∀ q' ∈ files, (Sample.newer.root.below q).toString =
      (Sample.newer.root.below q').toString → q = q' := by decide +kernel
  have hexact := (retried_iff_unstored extracted Sample.keepsCount_project rfl hf hplain ended).2
    (Sample.keepsPaths_project _) fun q hq q' hq' => hpaths q hq q' hq'
  have hlacks : (∃ b ∈ bs, b.displayPath = "a.txt" ∧ s.holds b = false) ∧
      (¬∃ b ∈ bs, b.displayPath = "b.txt" ∧ s.holds b = false) ∧
        ¬∃ b ∈ bs, b.displayPath = "c.txt" ∧ s.holds b = false := by decide +kernel
  exact ⟨hexact, (hexact.retried _ (by decide)).mpr hlacks.1,
    fun h => hlacks.2.1 ((hexact.retried _ (by decide)).mp h),
    fun h => hlacks.2.2 ((hexact.retried _ (by decide)).mp h)⟩

/-- A file that is given by two paths has its blocks twice.  When they cannot be stored only the path
that comes first gets the mark: the other is taken for done, though none of its blocks is held. -/
theorem not_retried_of_second_path :
    let files := ["a.txt", "./a.txt"]
    let bs := files.flatMap Sample.newer.blocksOf
    let w : World :=
      { store := { fingerprints := [("a.txt", "0"), ("./a.txt", "0")] }, faults := Sample.full }
    let s := (outcome (storeBlocks Sample.newer false bs {}) w).2.store
    (outcome (extractBlocks Sample.newer files) {}).1 = .ok (bs, 0) ∧ w.faults.OnlySaving ∧
      (∃ t, (outcome (storeBlocks Sample.newer false bs {}) w).1 = .ok t) ∧
      (∃ b ∈ bs, b.relativePath = some "./a.txt" ∧ s.holds b = false) ∧
      ¬s.IsRetried "./a.txt" ∧ ¬s.MarksExactly w.store files bs := by
  intro files bs w s
  have extracted : (outcome (extractBlocks Sample.newer files) {}).1 = .ok (bs, 0) := by
    decide +kernel
  have hf : w.faults.OnlySaving := ⟨fun _ _ => rfl, fun _ _ => rfl, fun _ _ _ => rfl⟩
  have ended : (outcome (storeBlocks Sample.newer false bs {}) w).1 =
      .ok { existing := 5, generated := 3, errors := 3 } := by decide +kernel
  have hlacks : ∃ b ∈ bs, b.relativePath = some "./a.txt" ∧ b.displayPath = "./a.txt" ∧
      s.holds b = false := by decide +kernel
  have hprint : s.fingerprint? "./a.txt" = some "0" := by decide +kernel
  have hnot : ¬s.IsRetried "./a.txt" := by
    rintro ⟨text, htext, hmark⟩
    rw [hprint] at htext
    cases htext
    exact absurd hmark (by decide)
  obtain ⟨b, hb, hrel, hfile, hfree⟩ := hlacks
  refine ⟨extracted, hf, ⟨_, ended⟩, ⟨b, hb, hrel, hfree⟩, hnot, fun hexact => hnot ?_⟩
  exact (hexact.retried "./a.txt" (by decide)).mpr ⟨b, hb, hfile, hfree⟩

end Run

end BlockIndex
