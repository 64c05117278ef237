import BlockIndex.Proofs.Run.Unhindered
import Mathlib.Data.Set.Function

/-! No row is out of date.  In a store that runs of indexing have made, whatever was refused and
however the runs ended, every row is of a block that its file yields from the content of which the
fingerprint of the file is the digest.  Each change that a run can make keeps this (`Consistent`).
-/

namespace BlockIndex

open Relation

/-- What the runs of a history have in common: the root, the extractors, and the contents that files
have at some time. -/
structure Setting where
  root : Path
  registry : Registry
  contents : Set Bytes

/-- A fingerprint is the digest of a content, with the mark or without. -/
def IsPrintOf (text : String) (content : Bytes) : Prop :=
  text = Digest.md5 content ∨ text = retryMark ++ Digest.md5 content

namespace Setting

/-- A run over a tree of a setting; the tree is that of the moment. -/
structure Allows (S : Setting) (ix : Indexer) : Prop where
  root_eq : ix.root = S.root
  registry_eq : ix.registry = S.registry
  named : ix.disk.tree.Named
  occurs : ∀ file ∈ ix.files, ∀ bytes, ix.disk.read (ix.root.below file) = .ok bytes →
    bytes ∈ S.contents

/-- A run of indexing takes a store to another, whatever is refused and whatever comes of the run.
The time that is noted for new rows is set anew. -/
inductive Step (S : Setting) : Store → Store → Prop
  | run {s : Store} {w : World} {ix : Indexer} (time : Option String) (deferred : Bool)
      (h : S.Allows ix) (hw : w.store = { s with now := time }) :
      Step S s (Run.outcome (Run.indexProject ix deferred) w).2.store

/-- The content yields for a file a first block of an identity with a text. -/
def Yields (S : Setting) (file : String) (content : Bytes) (i : Identity) (text : String) : Prop :=
  ∃ b ∈ firsts [] (S.registry.yield S.root file content), b.identity = i ∧ b.text = text

/-- A row is of a block that its file yields from a content with the fingerprint of the file. -/
def Current (S : Setting) (s : Store) (r : Row) : Prop :=
  ∃ file text content, r.block.relativePath = some file ∧ s.fingerprint? file = some text ∧
    content ∈ S.contents ∧ IsPrintOf text content ∧
      S.Yields file content r.block.identity r.block.text

/-- Every row is current. -/
def Consistent (S : Setting) (s : Store) : Prop := ∀ r ∈ s.rows, S.Current s r

variable {S : Setting} {s s' : Store} {f : Faults} {file text : String}

/-! ### What a run does to the store -/

theorem Current.of_fingerprint {r : Row} (h : S.Current s r)
    (hs : ∀ file, r.block.relativePath = some file → s'.fingerprint? file = s.fingerprint? file) :
    S.Current s' r := by
  obtain ⟨file, text, content, hfile, htext, h⟩ := h
  exact ⟨file, text, content, hfile, by rw [hs file hfile, htext], h⟩

theorem Consistent.deleteBlocks (h : S.Consistent s) : S.Consistent (s.deleteBlocks file) :=
  fun r hr => (h r (Store.mem_rows_deleteBlocks.mp hr).1).of_fingerprint fun _ _ => rfl

theorem Consistent.forgotten (h : S.Consistent s) : S.Consistent (s.forgotten file) := by
  intro r hr
  obtain ⟨hr, hne⟩ := Store.mem_rows_forgotten.mp hr
  refine (h r hr).of_fingerprint fun q hq => ?_
  have hq : q ≠ file := fun e => hne (e ▸ hq)
  rw [Store.fingerprint?_forgotten, if_neg hq]

/-- A fingerprint may be set if every content of the one before has it too. -/
theorem Consistent.setFingerprint (h : S.Consistent s)
    (hnew : (∃ r ∈ s.rows, r.block.relativePath = some file) → ∀ old,
      s.fingerprint? file = some old → ∀ content, IsPrintOf old content → IsPrintOf text content) :
    S.Consistent (s.setFingerprint file text) := by
  intro r hr
  obtain ⟨q, old, content, hq, hold, hc, hprint, hy⟩ := h r hr
  by_cases hne : q = file
  · subst hne
    exact ⟨q, text, content, hq, Store.fingerprint?_setFingerprint s q text, hc,
      hnew ⟨r, hr, hq⟩ old hold content hprint, hy⟩
  · exact ⟨q, old, content, hq, by rw [Store.fingerprint?_setFingerprint_of_ne hne, hold], hc,
      hprint, hy⟩

/-- Recording a digest keeps every row current: a new file has no rows, those of a changed file are
removed, and those of a file that is tried again are of the same content. -/
theorem Consistent.record {bytes : Bytes} {w : Verdict} (h : S.Consistent s)
    (hv : Run.verdictOf (Digest.md5 bytes) (s.fingerprint? file) = w) (hw : w ≠ .unchanged) :
    S.Consistent (s.record file (Digest.md5 bytes) w) := by
  unfold Store.record
  cases w with
  | unchanged => exact absurd rfl hw
  | skipped => exact absurd hv Run.verdictOf_ne_skipped
  | changed =>
    refine h.deleteBlocks.setFingerprint ?_
    rintro ⟨r, hr, hq⟩
    exact absurd hq (Store.mem_rows_deleteBlocks.mp hr).2
  | new =>
    refine h.setFingerprint fun _ old hold => ?_
    rw [Run.verdictOf_eq_new hv] at hold
    cases hold
  | retried =>
    refine h.setFingerprint fun _ old hold content hprint => .inl ?_
    rw [Run.verdictOf_eq_retried hv] at hold
    cases hold
    rcases hprint with hc | hc
    · exact absurd hc.symm (Run.md5_ne_append _ _)
    · exact Run.append_retryMark_inj hc

theorem Consistent.marked (h : S.Consistent s) : S.Consistent (s.marked file) := by
  unfold Store.marked
  split
  · exact h
  · next old hold =>
    split
    · exact h
    · next hm =>
      refine h.setFingerprint fun _ old' hold' content hprint => ?_
      rw [hold] at hold'
      cases hold'
      rcases hprint with rfl | rfl
      · exact .inr rfl
      · exact absurd (Run.isMarked_append _) hm

theorem Consistent.judged {disk : Disk Bytes} {root : Path} {w : Verdict}
    (hj : JudgedFile f disk root file s w s') (h : S.Consistent s) : S.Consistent s' := by
  cases hj with
  | unreadable _ => exact h
  | readable _ hj =>
    cases hj with
    | unset _ _ _ =>
      split
      · exact h.deleteBlocks
      · exact h
    | recorded hv hw => exact h.record hv hw
    | _ => exact h

theorem Consistent.pruned {current : List String} (hp : Pruned f current s s')
    (h : S.Consistent s) : S.Consistent s' := by
  cases hp with
  | unread _ => exact h
  | pruned he =>
    refine he.keeps (fun file _ s _ s' hf hs => ?_) h
    cases hf with
    | kept _ => exact hs
    | emptied _ => exact hs.deleteBlocks
    | forgotten => exact hs.forgotten

theorem Consistent.detected {ix : Indexer} {report : ChangeReport}
    (hd : Detected f ix s report s') (h : S.Consistent s) : S.Consistent s' := by
  obtain ⟨s₁, ws, hp, hj, -⟩ := hd.pruned_judged
  exact hj.keeps (fun _ _ _ _ _ hj hs => hs.judged hj) (h.pruned hp)

theorem Consistent.each_marked {files : List String} {done : List Bool}
    (hm : Each (Marked f) files s done s') (h : S.Consistent s) : S.Consistent s' := by
  refine hm.keeps (fun file _ s _ s' hf hs => ?_) h
  cases hf with
  | marked => exact hs.marked
  | _ => exact hs

/-- A block may be saved if the content with the fingerprint of its file yields it. -/
theorem Consistent.save? {b : Block} {vec : Option Vector} {id : Nat} {content : Bytes}
    (h : S.Consistent s) (htext : s.fingerprint? b.displayPath = some text)
    (hc : content ∈ S.contents) (hprint : IsPrintOf text content)
    (hy : S.Yields b.displayPath content b.identity b.text)
    (hsave : s.save? b vec b.embeddingText = some (id, s')) : S.Consistent s' := by
  obtain ⟨-, -, rfl⟩ := Store.save?_eq_some.mp hsave
  intro r hr
  rcases List.mem_append.mp hr with hr | hr
  · exact (h r hr).of_fingerprint fun _ _ => rfl
  · obtain rfl := List.mem_singleton.mp hr
    exact ⟨b.displayPath, text, content, rfl, htext, hc, hprint, hy⟩

/-! ### Runs -/

variable {ix : Indexer} {report : ChangeReport}

/-- What is stored after detection comes from files with the digests of their bytes. -/
theorem yields_of_mem_firsts (hroot : S.root.Normal) (hix : S.Allows ix)
    (hd : Detected f ix s report s') {b : Block}
    (hb : b ∈ firsts [] (report.processed.flatMap ix.blocksOf)) :
    ∃ content ∈ S.contents, s'.fingerprint? b.displayPath = some (Digest.md5 content) ∧
      S.Yields b.displayPath content b.identity b.text := by
  obtain ⟨file, hfile, hb⟩ := mem_firsts_flatMap hb
  obtain ⟨hmem, bytes, hbytes, hprint⟩ := hd.recorded hfile
  have hbelow := Indexer.isBelow_of_mem_files hix.named hmem
  rw [← hix.root_eq] at hroot
  obtain ⟨rfl, b₀, hb₀, hi, ht⟩ := Indexer.exists_of_mem_firsts_blocksOf hroot hbelow hbytes hb
  rw [hix.root_eq, hix.registry_eq] at hb₀
  exact ⟨bytes, hix.occurs _ hmem bytes hbytes, hprint, b₀, hb₀, hi, ht⟩

/-- Storing keeps rows current. -/
theorem Consistent.stores (hroot : S.root.Normal) (hix : S.Allows ix)
    (hd : Detected f ix s report s') {supply : Option Supply} {t : Tally} {v v' : View}
    {r : Except Failure Run.Progress} (hv : v.store = s')
    (hst : Stage.Stores f supply ⟨report.processed.flatMap ix.blocksOf, { tally := t }, v⟩ r v')
    (h : S.Consistent s') : S.Consistent v'.store := by
  refine (hst.keeps_store (J := fun s => S.Consistent s ∧ s.fingerprints = s'.fingerprints)
    (fun b hb vec s₁ id s₂ hs hsave => ?_) (by rw [hv]; exact ⟨h, rfl⟩)).1
  obtain ⟨content, hc, hprint, hy⟩ := yields_of_mem_firsts hroot hix hd hb
  have hprint₁ := (Store.fingerprint?_congr hs.2 b.displayPath).trans hprint
  refine ⟨hs.1.save? hprint₁ hc (.inl rfl) hy hsave, ?_⟩
  obtain ⟨-, -, rfl⟩ := Store.save?_eq_some.mp hsave
  exact hs.2

/-- Every outcome of a run keeps rows current. -/
theorem Consistent.indexed (hroot : S.root.Normal) (hix : S.Allows ix) {deferred : Bool}
    {v v' : View} {r : Except Failure Tally} (hx : Indexed f ix deferred v r v')
    (h : S.Consistent v.store) : S.Consistent v'.store := by
  cases hx with
  | badName hp _ hj _ _ => exact hj.keeps (fun _ _ _ _ _ hj hs => hs.judged hj) (h.pruned hp)
  | idle hd _ => exact h.detected hd
  | noProvider hd _ _ => exact h.detected hd
  | failed hd hst => exact (h.detected hd).stores hroot hix hd rfl hst
  | stored hd hst hm => exact ((h.detected hd).stores hroot hix hd rfl hst).each_marked hm

theorem Step.consistent (hroot : S.root.Normal) (hstep : S.Step s s') (h : S.Consistent s) :
    S.Consistent s' := by
  cases hstep with
  | @run w ix time deferred hix hw =>
    refine Consistent.indexed hroot hix (Run.indexed_outcome ix deferred w) ?_
    intro r hr
    rw [show w.view.store = { s with now := time } from hw] at hr ⊢
    exact (h r hr).of_fingerprint fun _ _ => rfl

theorem consistent_of_steps (hroot : S.root.Normal) (h : ReflTransGen S.Step {} s) :
    S.Consistent s := by
  induction h with
  | refl => exact fun r hr => nomatch hr
  | tail _ hstep ih => exact hstep.consistent hroot ih

theorem eq_of_isPrintOf {a b : Bytes} (ha : IsPrintOf text a) (hb : IsPrintOf text b) :
    Digest.md5 a = Digest.md5 b := by
  rcases ha with rfl | rfl
  · rcases hb with hb | hb
    · exact hb
    · exact absurd hb (Run.md5_ne_append _ _)
  · rcases hb with hb | hb
    · exact absurd hb.symm (Run.md5_ne_append _ _)
    · exact Run.append_retryMark_inj hb

/-- After any runs every row is of a block that its file yields from the one content with the
fingerprint of the file. -/
theorem rows_current (hroot : S.root.Normal) (hmd5 : S.contents.InjOn Digest.md5)
    (h : ReflTransGen S.Step {} s) :
    ∀ r ∈ s.rows, ∃ file text, r.block.relativePath = some file ∧
      s.fingerprint? file = some text ∧ (∃ content ∈ S.contents, IsPrintOf text content) ∧
        ∀ content ∈ S.contents, IsPrintOf text content →
          ∃ b ∈ S.registry.yield S.root file content,
            b.identity = r.block.identity ∧ b.text = r.block.text := by
  intro r hr
  obtain ⟨file, text, content, hfile, htext, hc, hprint, b, hb, hi, ht⟩ :=
    consistent_of_steps hroot h r hr
  refine ⟨file, text, hfile, htext, ⟨content, hc, hprint⟩, fun content' hc' hprint' => ?_⟩
  obtain rfl := hmd5 hc hc' (eq_of_isPrintOf hprint hprint')
  exact ⟨b, mem_of_mem_firsts hb, hi, ht⟩

end Setting

/-- The setting of a tree with one file that has some contents. -/
def Sample.setting (contents : Set Bytes) : Setting := ⟨⟨"/", []⟩, ⟨[extractor]⟩, contents⟩

theorem Sample.allows {contents : Set Bytes} {content : Bytes} (h : content ∈ contents) :
    (setting contents).Allows (indexer content) where
  root_eq := rfl
  registry_eq := rfl
  named := named
  occurs file hf bytes hb := by
    rw [files_indexer] at hf
    rw [List.mem_singleton.mp hf, read_indexer] at hb
    cases hb
    exact h

/-- After a run over a tree with one file there is a row, and it is current. -/
theorem rows_current_sample :
    let S := Sample.setting {[104, 105]}
    let s := (Run.outcome (Run.indexProject (Sample.indexer [104, 105]) true) {}).2.store
    s.rows ≠ [] ∧ ∀ r ∈ s.rows, ∃ file text, r.block.relativePath = some file ∧
      s.fingerprint? file = some text ∧ (∃ content ∈ S.contents, IsPrintOf text content) ∧
        ∀ content ∈ S.contents, IsPrintOf text content →
          ∃ b ∈ S.registry.yield S.root file content,
            b.identity = r.block.identity ∧ b.text = r.block.text := by
  intro S s
  refine ⟨?_, Setting.rows_current (Sample.normal_root [104, 105]) (Set.injOn_singleton _ _)
    (.single (.run none true (Sample.allows (Set.mem_singleton _)) rfl))⟩
  obtain ⟨t, -, hs⟩ := Sample.outcome_deferred [104, 105]
  rw [show s = _ from hs]
  exact List.cons_ne_nil _ _

end BlockIndex
