import Mathlib
import BlockIndex.Proofs.Run.Deadline

/-! Runs without hindrance.  When the store refuses no call and the provider answers every request
in time, indexing a tree is a function of the store: `Indexer.stored`.  The groups in which blocks
wait for their vectors leave no trace in it, because a group holds only first blocks: what a stage
still saves (`Stage.forecast`) does not depend on how far the group is filled. -/

namespace BlockIndex

open Relation

/-- Saves a block with what there is for a vector, or notes its file as failed. -/
def Store.saveStep (vec : Block → Option Vector) (r : Store × List String) (b : Block) :
    Store × List String :=
  match r.1.save? b (vec b) b.embeddingText with
  | some (_, s) => (s, r.2)
  | none => (r.1, r.2 ++ [b.displayPath])

/-- The blocks with an identity not seen before that are not held. -/
def Store.missing (s : Store) (seen : List Identity) (bs : List Block) : List Block :=
  (firsts seen bs).filter fun b => !s.holds b

/-- The store after blocks were stored, and the files of those that could not be. -/
def Store.storing (vec : Block → Option Vector) (bs : List Block) (s : Store) :
    Store × List String :=
  (s.missing [] bs).foldl (saveStep vec) (s, [])

namespace Indexer

variable (ix : Indexer)

/-- The verdicts on the files when no call is refused. -/
def report (s : Store) : ChangeReport :=
  ⟨ix.files.zip (Store.judgedAll ix.disk ix.root ix.files (s.pruned ix.files)).1⟩

/-- The store after detection when no call is refused. -/
def detected (s : Store) : Store :=
  (Store.judgedAll ix.disk ix.root ix.files (s.pruned ix.files)).2

/-- The blocks that are extracted when no call is refused. -/
def found (s : Store) : List Block := (ix.report s).processed.flatMap ix.blocksOf

/-- The store after a run, and the files of blocks that could not be stored. -/
def stored (vec : Block → Option Vector) (s : Store) : Store :=
  let r := (ix.detected s).storing vec (ix.found s)
  (Run.sortedOnce r.2).foldl Store.marked r.1

end Indexer

/-- Whatever is asked, each block gets the same for a vector. -/
def Supply.Gives : Option Supply → (Block → Option Vector) → Prop
  | none, vec => ∀ b, vec b = none
  | some c, vec => ∃ g, c.provider.Computes g ∧ ∀ b, vec b = some (g b.embeddingText)

variable {supply : Option Supply} {vec : Block → Option Vector} {p p₁ p₂ : Run.Progress}
  {v v₁ v' : View} {group : List (Block × Option Vector)} {s s' : Store} {b : Block}
  {bs : List Block} {seen : List Identity}

/-! ### Saving -/

@[simp] theorem Store.isClosed_saveStep (r : Store × List String) :
    (Store.saveStep vec r b).1.isClosed = r.1.isClosed := by
  unfold saveStep
  split
  · next h =>
    obtain ⟨-, -, rfl⟩ := save?_eq_some.mp h
    rfl
  · rfl

@[simp] theorem Store.isClosed_foldl_saveStep (r : Store × List String) :
    (bs.foldl (Store.saveStep vec) r).1.isClosed = r.1.isClosed := by
  induction bs generalizing r with
  | nil => rfl
  | cons b bs ih => rw [List.foldl_cons, ih, isClosed_saveStep]

theorem Saved.eq_saveStep {us : Unit} (hs : s.isClosed = false)
    (h : Saved Faults.none (b, vec b) (p, s) us (p₂, s')) :
    (s', p₂.failed) = Store.saveStep vec (s, p.failed) b := by
  cases h with
  | saved h => simp [Store.saveStep, h, Run.Progress.stored]
  | missed h =>
    have h := h.resolve_left (Store.not_refuses hs)
    simp [Store.saveStep, h, Run.Progress.miss, Run.Progress.fail]

theorem Each.eq_saveSteps {us : List Unit} (hs : s.isClosed = false)
    (h : Each (Saved Faults.none) (bs.map fun b => (b, vec b)) (p, s) us (p₂, s')) :
    (s', p₂.failed) = bs.foldl (Store.saveStep vec) (s, p.failed) := by
  induction bs generalizing p s us with
  | nil =>
    cases h
    rfl
  | cons b bs ih =>
    cases h with
    | @cons _ _ _ _ _ t _ head tail =>
      have he := head.eq_saveStep hs
      have ht : t.2.isClosed = false := by
        rw [show t.2 = (Store.saveStep vec (s, p.failed) b).1 from congrArg Prod.fst he,
          Store.isClosed_saveStep, hs]
      rw [List.foldl_cons, ← he]
      exact ih ht tail

/-- Saving a block of a known identity takes no other block off the list. -/
theorem Store.missing_saveStep {r : Store × List String} (hb : b.identity ∈ seen) :
    (Store.saveStep vec r b).1.missing seen bs = r.1.missing seen bs := by
  unfold saveStep
  split
  · next h =>
    obtain ⟨-, -, rfl⟩ := save?_eq_some.mp h
    refine List.filter_congr fun d hd => ?_
    have hne : b.identity ≠ d.identity := fun e => not_mem_of_mem_firsts hd (e ▸ hb)
    simp [holds, hne]
  · rfl

theorem Store.missing_foldl_saveStep {as : List Block} {r : Store × List String}
    (h : ∀ a ∈ as, a.identity ∈ seen) :
    (as.foldl (saveStep vec) r).1.missing seen bs = r.1.missing seen bs := by
  induction as generalizing r with
  | nil => rfl
  | cons a as ih =>
    rw [List.foldl_cons, ih fun a' ha' => h a' (List.mem_cons_of_mem a ha'),
      missing_saveStep (h a List.mem_cons_self)]

namespace Stage

theorem Filling.group_eq (hg : Supply.Gives supply vec) (h : Filling p v supply group p₁ v₁) :
    group = p.waiting.map fun b => (b, vec b) := by
  cases h with
  | bare => exact List.map_congr_left fun b _ => by rw [hg b]
  | @vectors c vs left reply =>
    obtain ⟨g, hreply, hvec⟩ := hg
    obtain rfl : p.texts.map g = vs := by
      rw [Supply.reply, hreply] at reply
      cases reply
      rfl
    rw [Run.Progress.texts, List.map_map, ← List.map_prod_left_eq_zip, List.map_map]
    exact List.map_congr_left fun b _ => by rw [hvec b]; rfl

/-- The store and the failed files that a stage leads to. -/
def forecast (vec : Block → Option Vector) (c : Stage) : Store × List String :=
  (c.progress.waiting ++ c.view.store.missing c.progress.seen c.todo).foldl (Store.saveStep vec)
    (c.view.store, c.progress.failed)

/-- What holds of every stage of a run without hindrance. -/
structure Unhindered (c : Stage) : Prop where
  open_ : c.view.store.isClosed = false
  seen : ∀ b ∈ c.progress.waiting, b.identity ∈ c.progress.seen

/-- A step of a run without hindrance changes nothing of what comes out. -/
theorem Step.forecast_eq {c c' : Stage} (hg : Supply.Gives supply vec) (hc : c.Unhindered)
    (h : Step Faults.none supply c c') : c'.Unhindered ∧ c'.forecast vec = c.forecast vec := by
  obtain ⟨hopen, hseen⟩ := hc
  cases h with
  | seen h =>
    refine ⟨⟨hopen, hseen⟩, ?_⟩
    simp [forecast, Store.missing, firsts_cons_of_mem h, Run.Progress.skip]
  | unread _ refused => exact absurd refused (Store.not_refuses hopen)
  | held h held =>
    refine ⟨⟨hopen, fun b hb => List.mem_cons_of_mem _ (hseen b hb)⟩, ?_⟩
    simp [forecast, Store.missing, firsts_cons_of_not_mem h, held, Run.Progress.see,
      Run.Progress.skip]
  | @wait b bs p v h free room =>
    refine ⟨⟨hopen, fun a ha => ?_⟩, ?_⟩
    · rcases List.mem_append.mp ha with ha | ha
      · exact List.mem_cons_of_mem _ (hseen a ha)
      · exact List.mem_singleton.mp ha ▸ List.mem_cons_self
    · simp [forecast, Store.missing, firsts_cons_of_not_mem h, free, Run.Progress.see,
        Run.Progress.await]
  | @save bs p p₁ p₂ v v₁ s group us waiting full filling saved =>
    obtain rfl := filling.group_eq hg
    obtain ⟨hseen₁, hwait₁, hfailed₁, -⟩ := filling.frame
    obtain ⟨hseen₂, hwait₂⟩ := saved.saved_frame
    simp only [hseen₁, hwait₁] at hseen₂ hwait₂
    have hfold := saved.eq_saveSteps (by rw [filling.store_eq]; exact hopen)
    rw [filling.store_eq, hfailed₁] at hfold
    have hs : s = (p.waiting.foldl (Store.saveStep vec) (v.store, p.failed)).1 :=
      congrArg Prod.fst hfold
    have hmissing : s.missing p.seen bs = v.store.missing p.seen bs := by
      rw [hs, Store.missing_foldl_saveStep hseen]
    refine ⟨⟨?_, by simp [hwait₂]⟩, ?_⟩
    · show s.isClosed = false
      rw [hs, Store.isClosed_foldl_saveStep, hopen]
    · show (p₂.waiting ++ s.missing p₂.seen bs).foldl _ (s, p₂.failed) = _
      rw [hwait₂, hseen₂, List.nil_append, hmissing, hfold, forecast, List.foldl_append]
  | lose _ _ hc _ reply =>
    subst hc
    obtain ⟨g, hreply, -⟩ := hg
    rw [Supply.reply, hreply] at reply
    cases reply

/-- Without hindrance storing comes to what its first stage leads to. -/
theorem Stores.eq_storing {t : Tally} (hg : Supply.Gives supply vec)
    (hopen : v.store.isClosed = false)
    (h : Stores Faults.none supply ⟨bs, { tally := t }, v⟩ (.ok p) v')
    (htime : supply ≠ none → p.tally.timedOut = false) :
    (v'.store, p.failed) = v.store.storing vec bs := by
  obtain ⟨c, hrun, hend⟩ := h
  have hc : c.Unhindered ∧ c.forecast vec = v.store.storing vec bs := by
    clear hend
    induction hrun with
    | refl => exact ⟨⟨hopen, fun b hb => nomatch hb⟩, rfl⟩
    | tail _ hstep ih =>
      obtain ⟨hun, heq⟩ := hstep.forecast_eq hg ih.1
      exact ⟨hun, heq.trans ih.2⟩
  cases hend with
  | done hwait =>
    rw [← hc.2, forecast, hwait]
    rfl
  | late _ _ hsome _ _ => cases htime (by rw [hsome]; exact fun h => nomatch h)

end Stage

/-! ### Indexing -/

@[simp] theorem Store.isClosed_pruned (current : List String) (s : Store) :
    (s.pruned current).isClosed = s.isClosed := by
  unfold pruned
  induction s.tracked.filter fun f => !current.contains f generalizing s with
  | nil => rfl
  | cons file files ih => rw [List.foldl_cons, ih]; rfl

theorem Store.isClosed_judgedAll (disk : Disk Bytes) (root : Path) (files : List String)
    (s : Store) : (s.judgedAll disk root files).2.isClosed = s.isClosed := by
  induction files generalizing s with
  | nil => rfl
  | cons file files ih => exact (ih _).trans (s.isClosed_judged disk root file)

/-- Without refusals detection is a function of the store. -/
theorem Detected.eq_of_none {ix : Indexer} {report : ChangeReport} (hs : s.isClosed = false)
    (h : Detected Faults.none ix s report s') : report = ix.report s ∧ s' = ix.detected s := by
  obtain ⟨s₁, ws, hp, hj, rfl⟩ := h.pruned_judged
  obtain rfl := hp.eq_of_none hs
  have he := hj.eq_judgedAll (by simpa using hs)
  exact ⟨by rw [Indexer.report, ← he], by rw [Indexer.detected, ← he]⟩

theorem Indexer.isClosed_detected (ix : Indexer) (s : Store) :
    (ix.detected s).isClosed = s.isClosed := by
  rw [detected, Store.isClosed_judgedAll, Store.isClosed_pruned]

/-- Without hindrance a run that ends has made of the store what `stored` says. -/
theorem Indexed.eq_stored {ix : Indexer} {deferred : Bool} {t : Tally}
    (hg : Supply.Gives (Run.supplyAt ix deferred v.clock) vec) (hs : v.store.isClosed = false)
    (htime : deferred = false → t.timedOut = false)
    (h : Indexed Faults.none ix deferred v (.ok t) v') : v'.store = ix.stored vec v.store := by
  cases h with
  | @idle s report hd hp =>
    obtain ⟨rfl, rfl⟩ := hd.eq_of_none hs
    show ix.detected v.store = _
    simp [Indexer.stored, Indexer.found, hp, Store.storing, Store.missing, firsts, Run.sortedOnce]
  | @stored s s' report p v' marks hd hst hm =>
    obtain ⟨rfl, rfl⟩ := hd.eq_of_none hs
    have hopen : (ix.detected v.store).isClosed = false := by rw [ix.isClosed_detected, hs]
    have heq := hst.eq_storing hg hopen fun hsome => htime (by
      cases deferred with
      | true => exact absurd rfl hsome
      | false => rfl)
    have hv' : v'.store = ((ix.detected v.store).storing vec (ix.found v.store)).1 :=
      congrArg Prod.fst heq
    have hopen' : v'.store.isClosed = false := by
      rw [hv', Store.storing, Store.isClosed_foldl_saveStep, hopen]
    show s' = _
    rw [hm.eq_marked hopen', hv', show p.failed = _ from congrArg Prod.snd heq]
    rfl

/-- Without refusals a run without vectors ends and has made of the store what `stored` says. -/
theorem Run.outcome_deferred {ix : Indexer} {w : World} (hw : w.faults = Faults.none)
    (hopen : w.store.isClosed = false)
    (hread : ∀ file ∈ ix.files, ix.disk.read (ix.root.below file) ≠ .error .badName)
    (hfit : ∀ file ∈ ix.files, ∀ b ∈ ix.blocksOf file, b.span.last < StoreCall.limit) :
    ∃ t, (outcome (indexProject ix true) w).1 = .ok t ∧
      (outcome (indexProject ix true) w).2.store = ix.stored (fun _ => none) w.store := by
  have hx := indexed_outcome ix true w
  have hprovider : true = false → ∃ p, ix.provider = some p ∧ p.OnlyRefuses := fun h => nomatch h
  have hg : Supply.Gives (supplyAt ix true w.view.clock) fun _ => none := fun _ => rfl
  obtain ⟨t, ht⟩ := hx.exists_ok hprovider hread hfit
  rw [ht, hw] at hx
  exact ⟨t, ht, hx.eq_stored hg hopen fun h => nomatch h⟩

/-- Without refusals and with a provider that gives all vectors a run ends, and if it was in time it
has made of the store what `stored` says. -/
theorem Run.outcome_combined {ix : Indexer} {w : World} {p : Provider} {g : String → Vector}
    (hp : ix.provider = some p) (hg : p.Computes g) (hw : w.faults = Faults.none)
    (hopen : w.store.isClosed = false)
    (hread : ∀ file ∈ ix.files, ix.disk.read (ix.root.below file) ≠ .error .badName)
    (hfit : ∀ file ∈ ix.files, ∀ b ∈ ix.blocksOf file, b.span.last < StoreCall.limit) :
    ∃ t, (outcome (indexProject ix false) w).1 = .ok t ∧ (t.timedOut = false →
      (outcome (indexProject ix false) w).2.store =
        ix.stored (fun b => some (g b.embeddingText)) w.store) := by
  have hx := indexed_outcome ix false w
  have hsupply : supplyAt ix false w.view.clock =
      some ⟨p, Ticks.deadline w.view.clock ix.timeout, ix.groupSize⟩ := by
    simp [supplyAt, hp]
  have hgives :
      Supply.Gives (supplyAt ix false w.view.clock) fun b => some (g b.embeddingText) := by
    rw [hsupply]
    exact ⟨g, hg, fun _ => rfl⟩
  obtain ⟨t, ht⟩ := hx.exists_ok (fun _ => ⟨p, hp, hg.onlyRefuses⟩) hread hfit
  rw [ht, hw] at hx
  exact ⟨t, ht, fun htime => hx.eq_stored hgives hopen fun _ => htime⟩

/-! ### A tree with one file -/

namespace Sample

/-- An extractor that makes one block of a text. -/
def extractor : Extractor where
  name := "whole"
  extensions := [".txt"]
  extract := fun path content =>
    .ok [{ path, kind := .text, span := ⟨1, 1, Nat.one_pos, Nat.one_pos⟩, text := content }]

/-- An indexer of a tree with one file. -/
def indexer (content : Bytes) : Indexer where
  root := ⟨"/", []⟩
  disk := ⟨.directory [("a.txt", .file content)], []⟩
  registry := ⟨[extractor]⟩
  scanner := ⟨⟨"/", []⟩, ⟨[".txt"], []⟩⟩
  provider := some fun _ texts _ => ⟨1, .ok (texts.map fun text => [.whole text.length])⟩
  timeout := 1800

/-- The block of the file. -/
def block (content : Bytes) : Block where
  path := "/a.txt"
  kind := .text
  span := ⟨1, 1, Nat.one_pos, Nat.one_pos⟩
  text := sourceText content
  relativePath := some "a.txt"

/-- The store with the file and the row of its block. -/
def store (content : Bytes) (vec : Option Vector) (id : Nat) : Store where
  rows := [{ id, block := block content, vector := vec, text := (block content).embeddingText,
             createdAt := none }]
  fingerprints := [("a.txt", Digest.md5 content)]
  lastId := id

variable {content other : Bytes}

theorem normal_root (content : Bytes) : (indexer content).root.Normal :=
  ⟨.inr (.inl rfl), fun _ hn => nomatch hn⟩

theorem named : (indexer content).disk.tree.Named :=
  ⟨by decide, trivial, trivial⟩

theorem locate_root :
    (indexer content).disk.locate ⟨"/", []⟩ = .ok (.directory [("a.txt", .file content)]) := by
  have hname : (⟨"/", []⟩ : Path).toString.toList.contains '\x00' = false := by decide +kernel
  simp only [Disk.locate, Disk.way, hname]
  rfl

theorem files_indexer : (indexer content).files = ["a.txt"] := by
  have htakes : (indexer content).scanner.selection.takes "a.txt" "a.txt" = true :=
    (by decide +kernel : (Selection.mk [".txt"] []).takes "a.txt" "a.txt" = true)
  have hroot : (indexer content).scanner.root = ⟨"/", []⟩ := rfl
  simp [Indexer.files, Scanner.files, hroot, locate_root, Tree.scan, Tree.scanAt, Tree.takenFiles,
    Tree.scanEntries, Tree.inNameOrder, Tree.pathIn, Tree.isDirectory, htakes]

theorem read_indexer :
    (indexer content).disk.read ((indexer content).root.below "a.txt") = .ok content := by
  have hbelow : (indexer content).root.below "a.txt" = ⟨"/", ["a.txt"]⟩ :=
    (by decide +kernel : (⟨"/", []⟩ : Path).below "a.txt" = ⟨"/", ["a.txt"]⟩)
  have hname : (⟨"/", ["a.txt"]⟩ : Path).toString.toList.contains '\x00' = false := by
    decide +kernel
  simp only [hbelow, Disk.read, Disk.locate, Disk.way, hname]
  rfl

theorem blocksOf_indexer : (indexer content).blocksOf "a.txt" = [block content] := by
  have hfind : (indexer content).registry.find? (Path.ofString "a.txt").suffix =
      some extractor := by
    have hsuffix : (Path.ofString "a.txt").suffix = ".txt" := by decide +kernel
    have hclaims : extractor.claims ".txt" = true := by decide +kernel
    rw [hsuffix]
    simp [Registry.find?, indexer, hclaims]
  have hpath : ((indexer content).root.below "a.txt").toString = "/a.txt" :=
    (by decide +kernel : ((⟨"/", []⟩ : Path).below "a.txt").toString = "/a.txt")
  have hread : (indexer content).disk.read (Path.ofString "/a.txt") = .ok content := by
    have hbelow : Path.ofString "/a.txt" = (indexer content).root.below "a.txt" :=
      (by decide +kernel : Path.ofString "/a.txt" = (⟨"/", []⟩ : Path).below "a.txt")
    rw [hbelow, read_indexer]
  simp only [Indexer.blocksOf, Indexer.extraction, hfind, Extractor.blocksOf, hpath, hread]
  rfl

theorem judgedAll_empty :
    Store.judgedAll (indexer content).disk (indexer content).root ["a.txt"] {} =
      ([.new], { fingerprints := [("a.txt", Digest.md5 content)] }) := by
  simp [Store.judgedAll, Store.judged, read_indexer, Store.fingerprint?, Run.verdictOf,
    Store.record, Store.setFingerprint, Store.putFingerprint]

theorem report_empty : (indexer content).report {} = ⟨[("a.txt", .new)]⟩ := by
  have hp : Store.pruned ["a.txt"] {} = {} := rfl
  rw [Indexer.report, files_indexer, hp, judgedAll_empty]
  rfl

theorem detected_empty :
    (indexer content).detected {} = { fingerprints := [("a.txt", Digest.md5 content)] } := by
  have hp : Store.pruned ["a.txt"] {} = {} := rfl
  rw [Indexer.detected, files_indexer, hp, judgedAll_empty]

theorem found_empty : (indexer content).found {} = [block content] := by
  rw [Indexer.found, report_empty]
  simp [ChangeReport.processed, Verdict.isProcessed, blocksOf_indexer]

theorem storing_empty {vec : Block → Option Vector} (hvec : vec (block content) ≠ some []) :
    ((indexer content).detected {}).storing vec ((indexer content).found {}) =
      (store content (vec (block content)) 1, []) := by
  have hnew : (vec (block content)).filter (fun v => !v.isEmpty) = vec (block content) := by
    cases hv : vec (block content) with
    | none => rfl
    | some v =>
      cases v with
      | nil => exact absurd hv hvec
      | cons x xs => rfl
  have hmissing : Store.missing { fingerprints := [("a.txt", Digest.md5 content)] } []
      [block content] = [block content] := by
    simp [Store.missing, firsts, Store.holds]
  rw [detected_empty, found_empty, Store.storing, hmissing]
  simp only [List.foldl_cons, List.foldl_nil, Store.saveStep, Store.save?, Store.isTaken,
    Store.newRow, hnew]
  rfl

theorem stored_empty {vec : Block → Option Vector} (hvec : vec (block content) ≠ some []) :
    (indexer content).stored vec {} = store content (vec (block content)) 1 := by
  rw [Indexer.stored, storing_empty hvec]
  simp [Run.sortedOnce]

/-- The file was changed since its block was stored. -/
theorem judgedAll_store (h : Digest.md5 content ≠ Digest.md5 other) (id : Nat) :
    Store.judgedAll (indexer other).disk (indexer other).root ["a.txt"] (store content none id) =
      ([.changed], { fingerprints := [("a.txt", Digest.md5 other)], lastId := id }) := by
  have hv : Run.verdictOf (Digest.md5 other) (some (Digest.md5 content)) = .changed := by
    simp [Run.verdictOf, h, Run.md5_ne_append]
  simp [Store.judgedAll, Store.judged, read_indexer, Store.fingerprint?, store, hv, Store.record,
    Store.setFingerprint, Store.putFingerprint, Store.deleteBlocks, block]

theorem storing_store (h : Digest.md5 content ≠ Digest.md5 other) (id : Nat) :
    ((indexer other).report (store content none id)).filesWith .skipped = [] ∧
      (((indexer other).detected (store content none id)).storing (fun _ => none)
        ((indexer other).found (store content none id))).2 = [] := by
  have hp : (store content none id).pruned ["a.txt"] = store content none id := by
    simp [Store.pruned, Store.tracked, store]
  have hr : (indexer other).report (store content none id) = ⟨[("a.txt", .changed)]⟩ := by
    rw [Indexer.report, files_indexer, hp, judgedAll_store h]
    rfl
  rw [Indexer.found, hr, Indexer.detected, files_indexer, hp, judgedAll_store h]
  simp [ChangeReport.filesWith, ChangeReport.processed, Verdict.isProcessed, blocksOf_indexer,
    Store.storing, Store.missing, firsts, Store.holds, Store.saveStep, Store.save?, Store.isTaken]

/-- Nothing is done about the file if its fingerprint is that of its bytes. -/
theorem report_unchanged {s : Store} (h : s.fingerprints = [("a.txt", Digest.md5 content)]) :
    (indexer content).report s = ⟨[("a.txt", .unchanged)]⟩ := by
  have hp : s.pruned ["a.txt"] = s := by simp [Store.pruned, Store.tracked, h]
  rw [Indexer.report, files_indexer, hp]
  simp [Store.judgedAll, Store.judged, read_indexer, Store.fingerprint?, h, Run.verdictOf]

theorem read_ne_badName : ∀ file ∈ (indexer content).files,
    (indexer content).disk.read ((indexer content).root.below file) ≠ .error .badName :=
  Indexer.read_ne_badName (normal_root content) named

theorem last_lt : ∀ file ∈ (indexer content).files,
    ∀ b ∈ (indexer content).blocksOf file, b.span.last < StoreCall.limit := by
  rw [files_indexer]
  intro file hf b hb
  rw [List.mem_singleton.mp hf, blocksOf_indexer] at hb
  rw [List.mem_singleton.mp hb]
  exact (by decide : 1 < StoreCall.limit)

theorem outcome_deferred (content : Bytes) :
    ∃ t, (Run.outcome (Run.indexProject (indexer content) true) {}).1 = .ok t ∧
      (Run.outcome (Run.indexProject (indexer content) true) {}).2.store =
        store content none 1 := by
  obtain ⟨t, ht, hs⟩ := Run.outcome_deferred (w := {}) rfl rfl read_ne_badName
    last_lt
  exact ⟨t, ht, hs.trans (stored_empty fun h => nomatch h)⟩

/-- The vector that the provider gives a text. -/
def vector (text : String) : Vector := [.whole text.length]

theorem takesAtMost : ∀ p, (indexer content).provider = some p → p.TakesAtMost (1 : Nat) := by
  rintro p hp earlier texts timeout
  cases hp
  exact Int.le_refl 1

theorem exists_computes (content : Bytes) :
    ∃ p, (indexer content).provider = some p ∧ p.Computes vector :=
  ⟨_, rfl, fun _ _ _ => rfl⟩

theorem in_time {f : Faults} {v v' : View} {t : Tally} {deferred : Bool} (hclock : v.clock = 0)
    (h : Indexed f (indexer content) deferred v (.ok t) v') : t.timedOut = false := by
  refine h.in_time takesAtMost ?_
  rw [files_indexer, List.flatMap_singleton, blocksOf_indexer, hclock]
  exact (by decide : (1 : Int) < Ticks.deadline 0 1800)

theorem outcome_combined (content : Bytes) :
    ∃ t, (Run.outcome (Run.indexProject (indexer content) false) {}).1 = .ok t ∧
      (Run.outcome (Run.indexProject (indexer content) false) {}).2.store =
        store content (some (vector (block content).embeddingText)) 1 := by
  obtain ⟨p, hp, hg⟩ := exists_computes content
  obtain ⟨t, ht, hs⟩ := Run.outcome_combined (w := {}) hp hg rfl rfl read_ne_badName last_lt
  have hx := Run.indexed_outcome (indexer content) false {}
  rw [ht] at hx
  exact ⟨t, ht, (hs (in_time rfl hx)).trans (stored_empty fun h => nomatch h)⟩

/-! ### Trees with several files -/

/-- The block of a line, named after it. -/
def lineBlock (path line : String) : Block where
  path := path
  kind := .text
  span := ⟨1, 1, Nat.one_pos, Nat.one_pos⟩
  text := line
  name := some line

/-- An extractor that makes a block of each line.  Equal lines make blocks of one identity. -/
def byLine : Extractor where
  name := "lines"
  extensions := [".txt"]
  extract := fun path content => .ok ((Text.lines content).map (lineBlock path))

/-- An indexer of a directory of files that asks for two vectors at a time. -/
def project (files : List (String × Bytes)) : Indexer where
  root := ⟨"/", []⟩
  disk := ⟨.directory (files.map fun f => (f.1, .file f.2)), []⟩
  registry := ⟨[byLine]⟩
  scanner := ⟨⟨"/", []⟩, ⟨[".txt"], []⟩⟩
  provider := some fun _ texts _ => ⟨1, .ok (texts.map fun text => [.whole text.length])⟩
  timeout := 1800
  batchSize := 2

/-- The lines `x`, `y`, `x` again and `z`. -/
def xyxz : Bytes := [120, 10, 121, 10, 120, 10, 122]

/-- A tree of two files, the second with the lines `u` and `v`. -/
def older : Indexer := project [("a.txt", xyxz), ("b.txt", [117, 10, 118])]

/-- The tree with the lines `u` and `w` in the second file, and a third one with `t` and `s`. -/
def newer : Indexer :=
  project [("a.txt", xyxz), ("b.txt", [117, 10, 119]), ("c.txt", [116, 10, 115])]

/-- A store that refuses to save the blocks of a name. -/
def refusingName (name : String) : Faults := fun _ call =>
  match call with
  | .save b => if b.name = some name then some "locked" else none
  | _ => none

variable {files : List (String × Bytes)}

-- the kernel cannot evaluate the sorting of names, so runs are evaluated from these listings on
theorem files_older : older.scanner.files older.disk = ["a.txt", "b.txt"] := by cbv

theorem files_newer : newer.scanner.files newer.disk = ["a.txt", "b.txt", "c.txt"] := by cbv

theorem named_older : older.disk.tree.Named := ⟨by decide, trivial, by decide, trivial, trivial⟩

theorem named_newer : newer.disk.tree.Named :=
  ⟨by decide, trivial, by decide, trivial, by decide, trivial, trivial⟩

theorem normal_project (files : List (String × Bytes)) : (project files).root.Normal :=
  ⟨.inr (.inl rfl), fun _ hn => nomatch hn⟩

theorem keepsPaths_project (files : List (String × Bytes)) :
    (project files).registry.KeepsPaths := by
  intro e he path content bs hbs b hb
  obtain rfl := List.mem_singleton.mp he
  cases hbs
  obtain ⟨line, -, rfl⟩ := List.mem_map.mp hb
  rfl

theorem exists_computes_project (files : List (String × Bytes)) :
    ∃ p, (project files).provider = some p ∧ p.Computes vector :=
  ⟨_, rfl, fun _ _ _ => rfl⟩

theorem keepsCount_project : ∀ p, (project files).provider = some p → p.KeepsCount := by
  intro p hp
  obtain ⟨q, hq, hg⟩ := exists_computes_project files
  obtain rfl := Option.some.inj (hq.symm.trans hp)
  exact hg.keepsCount

end Sample

end BlockIndex
