import BlockIndex.Proofs.Index.Calls
import BlockIndex.Proofs.Index.Retry

/-! No block is paid for twice.  A block that got its vector has a row from then on, and no later run
deletes the rows of a file whose bytes stay the same (`Store.Owns`), so no later run asks for the
block again. -/

namespace BlockIndex

variable {f : Faults} {ix : Indexer} {s s' : Store} {bs : List Block} {calls : List ProviderCall}

/-! ### Files whose bytes stay the same -/

/-- The fingerprint of a file is that of a content, with the mark or without, and blocks of some
identities have rows under the file. -/
structure Store.Owns (s : Store) (file : String) (content : Bytes) (ids : List Identity) :
    Prop where
  print : ∃ text, s.fingerprint? file = some text ∧ IsPrintOf text content
  rows : ∀ i ∈ ids, ∃ r ∈ s.rows, r.block.identity = i ∧ r.block.relativePath = some file

variable {file q digest text : String} {content : Bytes} {ids : List Identity}

theorem Run.verdictOf_ne_changed (h : IsPrintOf text content) :
    verdictOf (Digest.md5 content) (some text) ≠ .changed := by
  rcases h with rfl | rfl
  · simp [verdictOf]
  · simp [verdictOf, retryMark]

theorem IsPrintOf.markText (h : IsPrintOf text content) :
    IsPrintOf (Store.markText text) content := by
  unfold Store.markText
  split
  · exact h
  · next hmark =>
    rcases h with rfl | rfl
    · exact .inr rfl
    · exact absurd (Run.isMarked_append _) hmark

namespace Store.Owns

theorem of_rows (h : s.Owns file content ids) (hprint : s'.fingerprint? file = s.fingerprint? file)
    (hrows : ∀ r ∈ s.rows, r.block.relativePath = some file → r ∈ s'.rows) :
    s'.Owns file content ids := by
  refine ⟨by rw [hprint]; exact h.print, fun i hi => ?_⟩
  obtain ⟨r, hr, hid, hpath⟩ := h.rows i hi
  exact ⟨r, hrows r hr hpath, hid, hpath⟩

theorem deleteBlocks (h : s.Owns file content ids) (hne : q ≠ file) :
    (s.deleteBlocks q).Owns file content ids := by
  refine h.of_rows rfl fun r hr hpath => mem_rows_deleteBlocks.mpr ⟨hr, fun e => hne ?_⟩
  rw [hpath] at e
  exact (Option.some.inj e).symm

/-- Pruning forgets other files only. -/
theorem pruned {current : List String} (hfile : file ∈ current) (hp : Pruned f current s s')
    (h : s.Owns file content ids) : s'.Owns file content ids := by
  cases hp with
  | unread _ => exact h
  | pruned he =>
    refine he.keeps (I := fun s => s.Owns file content ids) (fun q hq s _ s' hstep hs => ?_) h
    have hne : q ≠ file := by
      rintro rfl
      have hnot := (List.mem_filter.mp hq).2
      simp [hfile] at hnot
    cases hstep with
    | kept _ => exact hs
    | emptied _ => exact hs.deleteBlocks hne
    | forgotten =>
      refine (hs.deleteBlocks hne).of_rows ?_ fun r hr _ => hr
      rw [fingerprint?_forgotten, if_neg hne.symm]
      rfl

/-- A file that has its bytes is not taken for changed, so its rows stay. -/
theorem judged {disk : Disk Bytes} {root : Path} {v : Verdict}
    (hread : disk.read (root.below file) = .ok content) (hj : JudgedFile f disk root q s v s')
    (h : s.Owns file content ids) : s'.Owns file content ids := by
  cases hj with
  | unreadable _ => exact h
  | @readable bytes _ _ hb hj =>
    have hdelete : ∀ v, Run.verdictOf (Digest.md5 bytes) (s.fingerprint? q) = v →
        (if v = .changed then s.deleteBlocks q else s).Owns file content ids := by
      rintro v rfl
      split
      · next hchanged =>
        refine h.deleteBlocks fun e => ?_
        subst e
        rw [hread] at hb
        cases hb
        obtain ⟨text, htext, hprint⟩ := h.print
        rw [htext] at hchanged
        exact Run.verdictOf_ne_changed hprint hchanged
      · exact h
    cases hj with
    | unread _ => exact h
    | unchanged _ => exact h
    | undeleted _ _ => exact h
    | unset hv _ _ => exact hdelete _ hv
    | recorded hv _ =>
      have hd := hdelete v hv
      refine ⟨?_, hd.rows⟩
      rw [fingerprint?_record]
      split
      · next e =>
        subst e
        rw [hread] at hb
        cases hb
        exact ⟨_, rfl, .inl rfl⟩
      · exact h.print

theorem grows (hg : s.Grows s') (h : s.Owns file content ids) : s'.Owns file content ids := by
  constructor
  · obtain ⟨text, htext, hprint⟩ := h.print
    rcases hg.fingerprint file with hsame | hmarked
    · exact ⟨text, hsame.trans htext, hprint⟩
    · refine ⟨markText text, ?_, hprint.markText⟩
      rw [hmarked, htext]
      rfl
  · intro i hi
    obtain ⟨r, hr, h⟩ := h.rows i hi
    exact ⟨r, hg.rows hr, h⟩

end Store.Owns

/-! ### Histories -/

/-- Neither looking for blocks nor saving them is refused. -/
structure Faults.SparesBlocks (f : Faults) : Prop where
  holds : ∀ i b, f i (.holds b) = Option.none
  save : ∀ i b, f i (.save b) = Option.none

/-- Runs that ask for vectors, in each of which a file is found with the same bytes, and the
identities of its blocks that got a vector, once for each time.  The runs may fail, the provider may
refuse and the time may pass; but no block is refused by the store, neither of its own accord nor for
a block in its place.  Anything else may differ from run to run. -/
inductive Billed (file : String) (content : Bytes) : Store → List Identity → Prop
  | start {s : Store} (isOpen : s.isClosed = false) : Billed file content s []
  | run {s : Store} {ids : List Identity} {ix : Indexer} {w : World}
      (earlier : Billed file content s ids) (time : Option String)
      (hw : w.store = { s with now := time }) (found : file ∈ ix.files)
      (same : ix.disk.read (ix.root.below file) = .ok content) (spared : w.faults.SparesBlocks)
      (clear : ∀ b ∈ ix.paid w,
        ¬(Run.outcome (Run.indexProject ix false) w).2.store.Clashes b) :
      Billed file content (Run.outcome (Run.indexProject ix false) w).2.store
        (ids ++ ((ix.paid w).filter fun b => b.relativePath == some file).map (·.identity))

/-- A file whose blocks are gathered with the bytes that it always has is the one that they show,
and its fingerprint is that of the bytes. -/
theorem Run.print_of_mem_blocks {w w₁ : World} {g : Gathered}
    (hg : outcome (gather ix) w = (.ok g, w₁))
    (hread : ix.disk.read (ix.root.below file) = .ok content) {b : Block} (hb : b ∈ g.blocks)
    (hpath : b.relativePath = some file) :
    b ∈ ix.blocksOf file ∧ w₁.store.fingerprint? file = some (Digest.md5 content) := by
  obtain ⟨hd, hblocks⟩ := gathered_outcome hg
  rw [hblocks] at hb
  obtain ⟨q, hq, hb⟩ := List.mem_flatMap.mp hb
  obtain rfl : q = file := by
    rw [Indexer.relativePath_of_mem_blocksOf hb] at hpath
    exact Option.some.inj hpath
  obtain ⟨-, bytes, hbytes, hprint⟩ := hd.recorded hq
  rw [hread] at hbytes
  cases hbytes
  exact ⟨hb, hprint⟩

/-- The blocks that get a vector in one run have identities of their own. -/
theorem Indexer.nodup_paid (ix : Indexer) (w : World) : ((ix.paid w).map (·.identity)).Nodup := by
  have htoAsk : ((ix.toAsk w).map (·.identity)).Nodup := by
    unfold toAsk
    split
    · exact (nodup_firsts [] _).sublist (List.filter_sublist.map _)
    · exact List.nodup_nil
  exact htoAsk.sublist ((ix.paid_sublist w).map _)

namespace Store.Owns

variable {w w₁ : World} {g : Gathered}

/-- Gathering blocks leaves the rows of the file. -/
theorem gather (hfile : file ∈ ix.files)
    (hread : ix.disk.read (ix.root.below file) = .ok content)
    (h : ids = [] ∨ w.store.Owns file content ids) :
    ids = [] ∨ (Run.outcome (Run.gather ix) w).2.store.Owns file content ids :=
  Run.gather_keeps (I := fun s => ids = [] ∨ s.Owns file content ids)
    (fun _ _ hp hs => hs.imp_right fun hs => hs.pruned hfile hp)
    (fun _ _ _ _ hj hs => hs.imp_right fun hs => hs.judged hread hj) h

/-- The blocks of the file that get vectors in a run have rows at the end, beside those that were
there before. -/
theorem finish (hname : file ≠ "") (hopen : w.store.isClosed = false)
    (hread : ix.disk.read (ix.root.below file) = .ok content) (spared : w.faults.SparesBlocks)
    (clear : ∀ b ∈ ix.paid w, ¬(Run.outcome (Run.indexProject ix false) w).2.store.Clashes b)
    (hg : Run.outcome (Run.gather ix) w = (.ok g, w₁))
    (hids : ids = [] ∨ w₁.store.Owns file content ids) {b : Block} (hb : b ∈ ix.paid w)
    (hpath : b.relativePath = some file) :
    (Run.outcome (Run.indexProject ix false) w).2.store.Owns file content
      (ids ++ ((ix.paid w).filter fun b => b.relativePath == some file).map (·.identity)) := by
  have hblocks : ∀ b ∈ ix.paid w, b ∈ g.blocks := by
    intro b hb
    have hmem := (ix.paid_sublist w).subset hb
    rw [Indexer.toAsk_of_gather hg] at hmem
    exact mem_of_mem_firsts (List.mem_filter.mp hmem).1
  -- a file with a block to store was processed, so its fingerprint is that of its bytes
  have hprint := (Run.print_of_mem_blocks hg hread (hblocks b hb) hpath).2
  have howns : w₁.store.Owns file content ids := by
    refine hids.elim (fun hnil => ⟨⟨_, hprint, .inl rfl⟩, fun i hi => ?_⟩) id
    rw [hnil] at hi
    cases hi
  have hafter := howns.grows (Indexer.finishes_calls spared.holds hopen hg).grows
  refine ⟨hafter.print, fun i hi => ?_⟩
  rcases List.mem_append.mp hi with hi | hi
  · exact hafter.rows i hi
  · obtain ⟨d, hd, rfl⟩ := List.mem_map.mp hi
    obtain ⟨hd, hdpath⟩ := List.mem_filter.mp hd
    have hfound := (Run.print_of_mem_blocks hg hread (hblocks d hd) (by simpa using hdpath)).1
    rcases Indexer.settled_of_mem_paid spared.holds spared.save hopen hd with hrow | hclash
    · rwa [Indexer.displayPath_of_mem_blocksOf hname hfound] at hrow
    · exact absurd hclash (clear d hd)

/-- A run leaves the rows of the file, and the blocks of the file that get vectors in it are others
and have rows at the end. -/
theorem run (hname : file ≠ "") (hopen : w.store.isClosed = false) (hfile : file ∈ ix.files)
    (hread : ix.disk.read (ix.root.below file) = .ok content) (spared : w.faults.SparesBlocks)
    (clear : ∀ b ∈ ix.paid w, ¬(Run.outcome (Run.indexProject ix false) w).2.store.Clashes b)
    (hids : ids = [] ∨ w.store.Owns file content ids) :
    let after := (Run.outcome (Run.indexProject ix false) w).2.store
    let new := ((ix.paid w).filter fun b => b.relativePath == some file).map (·.identity)
    after.isClosed = false ∧ (∀ i ∈ ids, i ∉ new) ∧
      (ids ++ new = [] ∨ after.Owns file content (ids ++ new)) := by
  intro after new
  have hgather := gather hfile hread hids
  have hopen₁ := (Run.gather_isClosed ix w).trans hopen
  cases hg : Run.outcome (Run.gather ix) w with
  | mk r w₁ =>
    rw [hg] at hgather hopen₁
    cases r with
    | error e =>
      have hpaid : ix.paid w = [] := by
        have hsub := ix.paid_sublist w
        rw [show ix.toAsk w = [] by rw [Indexer.toAsk, hg]] at hsub
        exact List.sublist_nil.mp hsub
      have hnew : new = [] := by simp [new, hpaid]
      have hafter : after = w₁.store := by
        show (Run.outcome _ w).2.store = _
        rw [Run.indexProject_of_gather_error hg]
      rw [hnew, hafter, List.append_nil]
      exact ⟨hopen₁, fun _ _ => List.not_mem_nil, hgather⟩
    | ok g =>
      have hgrows := (Indexer.finishes_calls spared.holds hopen hg).grows
      refine ⟨hgrows.isClosed.trans hopen₁, fun i hi hmem => ?_, ?_⟩
      · -- a block with a row is held, and a run asks only for blocks that are not
        obtain ⟨b, hb, rfl⟩ := List.mem_map.mp hmem
        have hask := (ix.paid_sublist w).subset (List.mem_filter.mp hb).1
        rw [Indexer.toAsk_of_gather hg] at hask
        have howns := hgather.resolve_left fun hnil => by
          rw [hnil] at hi
          cases hi
        obtain ⟨r, hr, hid, -⟩ := howns.rows _ hi
        have hheld := Store.holds_iff.mpr ⟨r, hr, hid⟩
        have hfree := (List.mem_filter.mp hask).2
        rw [hheld] at hfree
        cases hfree
      · cases hnew : (ix.paid w).filter fun b => b.relativePath == some file with
        | nil =>
          have hnil : new = [] := by simp [new, hnew]
          rw [hnil, List.append_nil]
          exact hgather.imp_right fun h => h.grows hgrows
        | cons b bs =>
          have hb := List.mem_filter.mp (hnew ▸ List.mem_cons_self :
            b ∈ (ix.paid w).filter fun b => b.relativePath == some file)
          exact .inr (finish hname hopen hread spared clear hg hgather hb.1 (by simpa using hb.2))

end Store.Owns

/-- What the blocks of the file that got vectors have to show: no identity twice, and a row for each.
-/
theorem Billed.owns (hname : file ≠ "") (h : Billed file content s ids) :
    s.isClosed = false ∧ ids.Nodup ∧ (ids = [] ∨ s.Owns file content ids) := by
  induction h with
  | start hopen => exact ⟨hopen, List.nodup_nil, .inl rfl⟩
  | @run s ids ix w _ time hw hfound hsame hspared hclear ih =>
    obtain ⟨hopen, hnodup, hids⟩ := ih
    have hopen' : w.store.isClosed = false := by rw [hw]; exact hopen
    have hids' : ids = [] ∨ w.store.Owns file content ids := by
      refine hids.imp_right fun h => h.of_rows ?_ fun r hr _ => ?_
      · rw [hw]
        rfl
      · rw [hw]
        exact hr
    obtain ⟨hclosed, hother, howns⟩ :=
      Store.Owns.run hname hopen' hfound hsame hspared hclear hids'
    refine ⟨hclosed, List.nodup_append.mpr ⟨hnodup, ?_, fun i hi j hj e => ?_⟩, howns⟩
    · exact (ix.nodup_paid w).sublist (List.filter_sublist.map _)
    · exact hother i hi (e ▸ hj)

/-- A run asks a provider for the blocks that the store does not hold, in their order and in full
groups, and for all of them if it ends in time.  Over any such runs no block of a file whose bytes
stay the same gets more than one vector. -/
theorem Indexer.paid_once {w : World} (hopen : w.store.isClosed = false)
    (hholds : ∀ i b, w.faults i (.holds b) = none) (hname : file ≠ "")
    (history : Billed file content s ids) :
    (ix.calls w).flatMap (·.texts) <+: (ix.toAsk w).map (·.embeddingText) ∧
      (∀ t, (Run.outcome (Run.indexProject ix false) w).1 = .ok t → t.timedOut = false →
        (ix.calls w).flatMap (·.texts) = (ix.toAsk w).map (·.embeddingText)) ∧
      (∀ call ∈ ix.calls w, call.texts.length ≤ ix.groupSize) ∧
      (∀ call ∈ (ix.calls w).dropLast, call.texts.length = ix.groupSize) ∧ ids.Nodup := by
  obtain ⟨htexts, hall, hshort, hfull⟩ := ix.asks hholds hopen
  exact ⟨htexts, hall, hshort, hfull, (history.owns hname).2.1⟩

/-! ### Two runs over a tree that changes -/

/-- An indexer of the older tree whose provider refuses its first request. -/
def Sample.hesitating : Indexer := { older with provider := some hesitant }

theorem Sample.files_hesitating : hesitating.scanner.files hesitating.disk = ["a.txt", "b.txt"] :=
  files_older

/-- The identity of the block of a line in the first file. -/
def Sample.identityOf (line : String) : Identity := (lineBlock "/a.txt" line).identity

/-- In the first run the first group is refused and the last group has one block; the second run
finds the file of the first group marked, asks for the blocks of it that have no row, and for those
of the files that have changed. -/
theorem Indexer.paid_once_sample :
    let w : World :=
      { store := (Run.outcome (Run.indexProject Sample.hesitating false) {}).2.store }
    let last := (Run.outcome (Run.indexProject Sample.newer false) w).2.store
    let ids := ["z", "x", "y"].map Sample.identityOf
    Billed "a.txt" Sample.xyxz last ids ∧ ids.Nodup ∧
      (Sample.hesitating.calls {}).map (fun call => call.texts.length) = [2, 2, 1] ∧
      (Sample.newer.calls w).map (fun call => call.texts.length) = [2, 2, 2] ∧
      (Sample.newer.calls w).flatMap (·.texts) <+:
        (Sample.newer.toAsk w).map (·.embeddingText) := by
  intro w last ids
  have spared : Faults.none.SparesBlocks := ⟨fun _ _ => rfl, fun _ _ => rfl⟩
  obtain ⟨hopen, hclear, hpaid, hcalls⟩ : w.store.isClosed = false ∧
      (∀ b ∈ Sample.hesitating.paid {}, ¬w.store.Clashes b) ∧
      ((Sample.hesitating.paid {}).filter fun b =>
        b.relativePath == some "a.txt").map (·.identity) = ["z"].map Sample.identityOf ∧
      (Sample.hesitating.calls {}).map (fun call => call.texts.length) = [2, 2, 1] := by
    simp only [w, Indexer.paid, Indexer.calls, Indexer.toAsk, Run.gather, Run.indexProject,
      Run.scan, Sample.files_hesitating]
    decide +kernel
  obtain ⟨hclear', hpaid', hcalls'⟩ :
      (∀ b ∈ Sample.newer.paid w, ¬last.Clashes b) ∧
      ((Sample.newer.paid w).filter fun b => b.relativePath == some "a.txt").map (·.identity) =
        ["x", "y"].map Sample.identityOf ∧
      (Sample.newer.calls w).map (fun call => call.texts.length) = [2, 2, 2] := by
    simp only [last, w, Indexer.paid, Indexer.calls, Indexer.toAsk, Run.gather, Run.indexProject,
      Run.scan, Sample.files_hesitating, Sample.files_newer]
    decide +kernel
  have hfile : "a.txt" ∈ Sample.hesitating.files := by
    rw [Indexer.files, Sample.files_hesitating]
    decide
  have hfile' : "a.txt" ∈ Sample.newer.files := by
    rw [Indexer.files, Sample.files_newer]
    decide
  have hread : Sample.hesitating.disk.read (Sample.hesitating.root.below "a.txt") =
      .ok Sample.xyxz := by decide +kernel
  have hread' : Sample.newer.disk.read (Sample.newer.root.below "a.txt") = .ok Sample.xyxz := by
    decide +kernel
  have hstart : Billed "a.txt" Sample.xyxz {} [] := .start rfl
  have hfirst := hstart.run (w := {}) none rfl hfile hread spared hclear
  rw [hpaid] at hfirst
  have hlast : Billed "a.txt" Sample.xyxz last ids := by
    have hrun := hfirst.run (w := w) w.store.now rfl hfile' hread' spared hclear'
    rw [hpaid'] at hrun
    exact hrun
  obtain ⟨htexts, -, -, -, hnodup⟩ :=
    Sample.newer.paid_once (w := w) hopen (fun _ _ => rfl) (by decide) hlast
  exact ⟨hlast, hnodup, hcalls, hcalls', htexts⟩

end BlockIndex
