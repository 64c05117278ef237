import BlockIndex.Proofs.Index.Consistency
import BlockIndex.Proofs.Run.Batches
import BlockIndex.Proofs.Run.Classified

/-! Marking files and finding them again.  Every call that writes fingerprints writes a digest, or
puts the mark before one that has none; so in each store that such calls have made a fingerprint is a
digest with the mark or without (`Store.Sound`).  When no call is refused, marking files that have
the digests of their bytes and then detecting them leaves the store as it was. -/

namespace BlockIndex

open Relation

variable {f : Faults} {disk : Disk Bytes} {root : Path} {s s' : Store} {files : List String}
  {file text : String} {v : View}

/-! ### Digests -/

/-- A text of 32 hexadecimal digits. -/
def IsDigest (text : String) : Prop :=
  text.length = 32 ∧ ∀ c ∈ text.toList, c ∈ "0123456789abcdef".toList

theorem Text.length_hexDigits (width n : Nat) : (hexDigits width n).length = width := by
  induction width generalizing n with
  | zero => rfl
  | succ width ih => simp [hexDigits, ih]

theorem Text.hexDigit_mem : ∀ d, d < 16 → hexDigit d ∈ "0123456789abcdef".toList := by decide

theorem Text.mem_of_mem_hexDigits {width n : Nat} {c : Char} (h : c ∈ hexDigits width n) :
    c ∈ "0123456789abcdef".toList := by
  induction width generalizing n with
  | zero => cases h
  | succ width ih =>
    rw [hexDigits, List.mem_append, List.mem_singleton] at h
    rcases h with h | rfl
    · exact ih h
    · exact hexDigit_mem _ (Nat.mod_lt _ (by decide))

theorem Digest.length_littleEndian (n x : Nat) : (littleEndian n x).length = n := by
  induction n generalizing x with
  | zero => rfl
  | succ n ih => simp [littleEndian, ih]

theorem isDigest_md5 (bytes : List UInt8) : IsDigest (Digest.md5 bytes) := by
  constructor
  · unfold Digest.md5
    simp [Digest.length_littleEndian, Text.length_hexDigits, List.length_flatMap]
  · intro c hc
    unfold Digest.md5 at hc
    simp only [String.toList_ofList, List.mem_flatMap] at hc
    obtain ⟨b, -, hc⟩ := hc
    exact Text.mem_of_mem_hexDigits hc

/-! ### What is written -/

/-- A store that is open and whose table of fingerprints holds digests with the mark or without. -/
structure Store.Sound (s : Store) : Prop where
  isOpen : s.isClosed = false
  ordered : s.Ordered
  printed : ∀ file text, s.fingerprint? file = some text → ∃ bytes, IsPrintOf text bytes

namespace Store.Sound

theorem of_same (h : s.Sound) (hopen : s'.isClosed = s.isClosed)
    (hprints : s'.fingerprints = s.fingerprints) : s'.Sound := by
  refine ⟨hopen.trans h.isOpen, ?_, fun file text htext => h.printed file text ?_⟩
  · unfold Ordered
    rw [hprints]
    exact h.ordered
  · rwa [← fingerprint?_congr hprints]

theorem deleteBlocks (h : s.Sound) : (s.deleteBlocks file).Sound := h.of_same rfl rfl

theorem setFingerprint (h : s.Sound) (htext : ∃ bytes, IsPrintOf text bytes) :
    (s.setFingerprint file text).Sound := by
  refine ⟨h.isOpen, h.ordered.setFingerprint, fun q t ht => ?_⟩
  by_cases hq : q = file
  · rw [hq, fingerprint?_setFingerprint] at ht
    exact Option.some.inj ht ▸ htext
  · rw [fingerprint?_setFingerprint_of_ne hq] at ht
    exact h.printed q t ht

theorem record {bytes : Bytes} {w : Verdict} (h : s.Sound) :
    (s.record file (Digest.md5 bytes) w).Sound := by
  unfold Store.record
  split
  · exact h.deleteBlocks.setFingerprint ⟨bytes, .inl rfl⟩
  · exact h.setFingerprint ⟨bytes, .inl rfl⟩

/-- A fingerprint without the mark is a digest, so the mark is put once. -/
theorem marked (h : s.Sound) : (s.marked file).Sound := by
  unfold Store.marked
  split
  · exact h
  · next text htext =>
    split
    · exact h
    · next hmark =>
      obtain ⟨bytes, rfl | rfl⟩ := h.printed file text htext
      · exact h.setFingerprint ⟨bytes, .inr rfl⟩
      · exact absurd (Run.isMarked_append _) hmark

theorem forgotten (h : s.Sound) : (s.forgotten file).Sound := by
  refine ⟨h.isOpen, h.ordered.deleteBlocks.dropFingerprint, fun q t ht => ?_⟩
  rw [fingerprint?_forgotten] at ht
  split at ht
  · cases ht
  · exact h.printed q t ht

theorem judged {w : Verdict} (hj : JudgedFile f disk root file s w s') (h : s.Sound) :
    s'.Sound := by
  cases hj with
  | unreadable _ => exact h
  | readable _ hj =>
    cases hj with
    | unset _ _ _ =>
      split
      · exact h.deleteBlocks
      · exact h
    | recorded _ _ => exact h.record
    | _ => exact h

theorem each_judged {ws : List Verdict} (hj : Each (JudgedFile f disk root) files s ws s')
    (h : s.Sound) : s'.Sound :=
  hj.keeps (fun _ _ _ _ _ hj hs => hs.judged hj) h

theorem each_marked {done : List Bool} (hm : Each (Marked f) files s done s') (h : s.Sound) :
    s'.Sound := by
  refine hm.keeps (fun file _ s _ s' hf hs => ?_) h
  cases hf with
  | marked => exact hs.marked
  | _ => exact hs

theorem pruned {current : List String} (hp : Pruned f current s s') (h : s.Sound) : s'.Sound := by
  cases hp with
  | unread _ => exact h
  | pruned he =>
    refine he.keeps (fun file _ s _ s' hf hs => ?_) h
    cases hf with
    | kept _ => exact hs
    | emptied _ => exact hs.deleteBlocks
    | forgotten => exact hs.forgotten

theorem detected {ix : Indexer} {report : ChangeReport} (hd : Detected f ix s report s')
    (h : s.Sound) : s'.Sound := by
  obtain ⟨s₁, ws, hp, hj, -⟩ := hd.pruned_judged
  exact (h.pruned hp).each_judged hj

/-- Storing writes no fingerprint. -/
theorem stores {supply : Option Supply} {bs : List Block} {t : Tally} {v' : View}
    {r : Except Failure Run.Progress} (hst : Stage.Stores f supply ⟨bs, { tally := t }, v⟩ r v')
    (h : v.store.Sound) : v'.store.Sound := by
  refine hst.keeps_store (J := Store.Sound) (fun b _ vec s id s' hs hsave => ?_) h
  obtain ⟨-, -, rfl⟩ := save?_eq_some.mp hsave
  exact hs.of_same rfl rfl

theorem indexed {ix : Indexer} {deferred : Bool} {v' : View} {r : Except Failure Tally}
    (hx : Indexed f ix deferred v r v') (h : v.store.Sound) : v'.store.Sound := by
  cases hx with
  | badName hp _ hj _ _ => exact (h.pruned hp).each_judged hj
  | idle hd _ => exact h.detected hd
  | noProvider hd _ _ => exact h.detected hd
  | failed hd hst => exact (h.detected hd).stores hst
  | stored hd hst hm => exact ((h.detected hd).stores hst).each_marked hm

end Store.Sound

/-- A call that may write fingerprints takes a store to another, whatever is refused and whatever
comes of the call.  The time that is noted for new rows is set anew. -/
inductive Store.Wrote (s : Store) : Store → Prop
  | detected {w : World} (time : Option String) (disk : Disk Bytes) (root : Path)
      (files : List String) (hw : w.store = { s with now := time }) :
      Wrote s (Run.outcome (Run.detect disk root files) w).2.store
  | marked {w : World} (time : Option String) (files : List String)
      (hw : w.store = { s with now := time }) :
      Wrote s (Run.outcome (Run.markForRetry files) w).2.store
  | pruned {w : World} (time : Option String) (current : List String)
      (hw : w.store = { s with now := time }) :
      Wrote s (Run.outcome (Run.prune current) w).2.store
  | indexed {w : World} (time : Option String) (ix : Indexer) (deferred : Bool)
      (hw : w.store = { s with now := time }) :
      Wrote s (Run.outcome (Run.indexProject ix deferred) w).2.store

namespace Store

theorem Wrote.sound (h : s.Wrote s') (hs : s.Sound) : s'.Sound := by
  have hstart : ∀ {w : World} {time : Option String}, w.store = { s with now := time } →
      w.view.store.Sound := by
    intro w time hw
    show w.store.Sound
    rw [hw]
    exact hs.of_same rfl rfl
  cases h with
  | @detected w time disk root files hw =>
    have hrun : Run.wp w.faults (Run.detect disk root files) (fun _ v => v.store.Sound) w.view :=
      Run.wp_detect (fun _ _ _ _ hj _ _ _ => (hstart hw).each_judged hj)
        fun _ _ hj => (hstart hw).each_judged hj
    exact hrun.at_world
  | @marked w time files hw =>
    have hrun : Run.wp w.faults (Run.markForRetry files) (fun _ v => v.store.Sound) w.view :=
      Run.wp_markEach fun _ _ _ hm => (hstart hw).each_marked hm
    exact hrun.at_world
  | @pruned w time current hw =>
    have hrun : Run.wp w.faults (Run.prune current) (fun _ v => v.store.Sound) w.view :=
      Run.wp_prune fun _ _ hp => (hstart hw).pruned hp
    exact hrun.at_world
  | @indexed w time ix deferred hw =>
    exact (hstart hw).indexed (Run.indexed_outcome ix deferred w)

/-- What such calls make of an empty store is sound. -/
theorem sound_of_wrote (h : ReflTransGen Wrote {} s) : s.Sound := by
  induction h with
  | refl => exact ⟨rfl, List.Pairwise.nil, nofun⟩
  | tail _ hstep ih => exact hstep.sound ih

end Store

/-! ### Marking without refusals -/

/-- Whether marking a file puts the mark. -/
def Store.takesMark (s : Store) (file : String) : Bool :=
  match s.fingerprint? file with
  | none => false
  | some text => !Run.isMarked text

theorem Store.takesMark_congr {q : String} (h : s'.fingerprint? q = s.fingerprint? q) :
    s'.takesMark q = s.takesMark q := by
  rw [takesMark, h, takesMark]

namespace Run

theorem wp_mark_unrefused {Q : Except Failure Bool → View → Prop}
    (hopen : v.store.isClosed = false)
    (h : Q (.ok (v.store.takesMark file)) { v with store := v.store.marked file }) :
    wp Faults.none (mark file) Q v := by
  refine wp_bind (wp_fingerprint (fun hr => absurd hr (Store.not_refuses hopen)) ?_)
  show wp Faults.none (match v.store.fingerprint? file with | none => _ | some text => _) Q v
  unfold Store.takesMark Store.marked at h
  split
  · next hnone => exact wp_pure (by simpa [hnone] using h)
  · next text htext =>
    split
    · next hmark => exact wp_pure (by simpa [htext, hmark] using h)
    · next hmark =>
      refine wp_bind (wp_setFingerprint (fun hr => absurd hr (Store.not_refuses hopen)) ?_)
      exact wp_pure (by simpa [htext, hmark] using h)

/-- Files that are given once each are marked if they have a fingerprint without the mark. -/
theorem wp_markEach_unrefused {Q : Except Failure (List String) → View → Prop}
    (hopen : v.store.isClosed = false) (hn : files.Nodup)
    (h : Q (.ok (files.filter v.store.takesMark))
      { v with store := files.foldl Store.marked v.store }) :
    wp Faults.none (markEach files) Q v := by
  induction files generalizing v Q with
  | nil => exact wp_pure h
  | cons file files ih =>
    obtain ⟨hfile, hn⟩ := List.nodup_cons.mp hn
    have hopen' : (v.store.marked file).isClosed = false := by
      rw [Store.isClosed_marked, hopen]
    have hrest : files.filter (v.store.marked file).takesMark =
        files.filter v.store.takesMark := by
      refine List.filter_congr fun q hq => Store.takesMark_congr ?_
      have hne : q ≠ file := fun e => hfile (e ▸ hq)
      rw [Store.fingerprint?_marked, if_neg hne]
    refine wp_bind (wp_attempt (wp_mark_unrefused hopen ?_))
    cases htakes : v.store.takesMark file with
    | false =>
      rw [List.filter_cons_of_neg (by simp [htakes])] at h
      exact ih hopen' hn (by rwa [hrest])
    | true =>
      rw [List.filter_cons_of_pos htakes] at h
      exact wp_bind (wp_debug (wp_bind (ih hopen' hn (wp_pure (by rwa [hrest])))))

theorem nodup_sortedOnce (xs : List String) : (sortedOnce xs).Nodup :=
  (List.mergeSort_perm ..).nodup_iff.mpr (nodup_eraseDups xs)

theorem outcome_markForRetry {w : World} (hw : w.faults = Faults.none)
    (hopen : w.store.isClosed = false) :
    (outcome (markForRetry files) w).1 =
        .ok ((sortedOnce files).filter w.store.takesMark) ∧
      (outcome (markForRetry files) w).2.store =
        (sortedOnce files).foldl Store.marked w.store := by
  have hrun : wp w.faults (markForRetry files)
      (fun r v => r = .ok ((sortedOnce files).filter w.store.takesMark) ∧
        v.store = (sortedOnce files).foldl Store.marked w.store) w.view := by
    rw [hw]
    exact wp_markEach_unrefused hopen (nodup_sortedOnce files) ⟨rfl, rfl⟩
  exact hrun.at_world

end Run

/-! ### Finding marked files again -/

namespace Store

theorem beside_foldl_marked : s.Beside (files.foldl marked s) := by
  induction files generalizing s with
  | nil => exact ⟨rfl, rfl, rfl⟩
  | cons file files ih =>
    have hfirst : s.Beside (s.marked file) := by
      unfold marked
      split
      · exact ⟨rfl, rfl, rfl⟩
      · split <;> exact ⟨rfl, rfl, rfl⟩
    exact hfirst.trans ih

theorem Ordered.foldl_marked (h : s.Ordered) : (files.foldl Store.marked s).Ordered := by
  induction files generalizing s with
  | nil => exact h
  | cons file files ih => exact ih h.marked

/-- Detecting files that had the digests of their bytes and were marked gives the store before the
marks. -/
theorem judgedAll_foldl_marked {again : List String} (hs : s.Ordered)
    (hfiles : ∀ q ∈ files, Recorded disk root q s) (hn : again.Nodup)
    (hmem : ∀ q, q ∈ again ↔ q ∈ files) :
    (files.foldl marked s).judgedAll disk root again = (again.map fun _ => .retried, s) := by
  have hverdict : ∀ q ∈ again,
      ((files.foldl marked s).judged disk root q).1 = .retried := by
    intro q hq
    obtain ⟨bytes, hread, hprint⟩ := hfiles q ((hmem q).mp hq)
    rw [judged_of_read hread, fingerprint?_foldl_marked, if_pos ((hmem q).mp hq), hprint]
    have hne : retryMark ++ Digest.md5 bytes ≠ Digest.md5 bytes :=
      fun e => Run.md5_ne_append bytes _ e.symm
    simp [markText, Run.isMarked_md5, Run.verdictOf, hne]
  refine Prod.ext ?_ (Store.ext ?_ ?_ ?_ ?_ ?_)
  · rw [judgedAll_verdicts hn]
    exact List.map_congr_left hverdict
  · rw [rows_judgedAll hn, rows_foldl_marked]
    refine List.filter_eq_self.mpr fun r _ => decide_eq_true fun q hq hchanged => ?_
    rw [hverdict q hq] at hchanged
    cases hchanged
  · refine (ordered_judgedAll hs.foldl_marked).fingerprints_ext hs fun q => ?_
    by_cases hq : q ∈ files
    · obtain ⟨bytes, hread, hprint⟩ := hfiles q hq
      rw [fingerprint?_judgedAll hread, if_pos ((hmem q).mpr hq), hprint]
    · have hkept : (files.foldl marked s).fingerprint? q = s.fingerprint? q :=
        fingerprint?_foldl_marked_of_not_mem hq
      cases hread : disk.read (root.below q) with
      | error e => rw [fingerprint?_judgedAll_of_error hread, hkept]
      | ok bytes => rw [fingerprint?_judgedAll hread, if_neg fun h => hq ((hmem q).mp h), hkept]
  all_goals
    have hbeside : s.Beside ((files.foldl marked s).judgedAll disk root again).2 :=
      beside_foldl_marked.trans beside_judgedAll
  · exact hbeside.lastId
  · exact hbeside.isClosed
  · exact hbeside.now

theorem takesMark_of_recorded {q : String} (h : Recorded disk root q s) :
    s.takesMark q = true := by
  obtain ⟨bytes, -, hprint⟩ := h
  simp [takesMark, hprint, Run.isMarked_md5]

/-- A file that was marked takes no second mark. -/
theorem takesMark_foldl_marked {q : String} (hq : q ∈ files) :
    (files.foldl marked s).takesMark q = false := by
  unfold takesMark
  split
  · rfl
  · next text htext => simp [isMarked_of_foldl_marked hq htext]

theorem marked_of_not_takesMark {q : String} (h : s.takesMark q = false) : s.marked q = s := by
  unfold takesMark at h
  unfold marked
  split
  · rfl
  · next text htext =>
    rw [htext] at h
    rw [if_pos (by simpa using h)]

theorem foldl_marked_again {again : List String} (h : ∀ q ∈ again, s.takesMark q = false) :
    again.foldl marked s = s := by
  induction again with
  | nil => rfl
  | cons q again ih =>
    obtain ⟨hq, hrest⟩ := List.forall_mem_cons.mp h
    rw [List.foldl_cons, marked_of_not_takesMark hq, ih hrest]

end Store

namespace Run

theorem pairwise_lt_sortedOnce (xs : List String) : (sortedOnce xs).Pairwise (· < ·) :=
  ((pairwise_sortedOnce xs).and (nodup_sortedOnce xs)).imp fun h => Std.lt_of_le_of_ne h.1 h.2

/-- In a store that calls have made from an empty one a fingerprint is a digest, with the mark at
most once.  Marking files that have the digests of their bytes returns each of them once, in order;
marking them again does nothing; and detecting them tries exactly them again and leaves the store
that was there before. -/
theorem retry_mark_round_trips (h : ReflTransGen Store.Wrote {} s) :
    (∀ file text, s.fingerprint? file = some text →
      (∃ bytes, IsDigest (Digest.md5 bytes) ∧
        (text = Digest.md5 bytes ∨ text = retryMark ++ Digest.md5 bytes)) ∧
        ∀ rest, text ≠ retryMark ++ (retryMark ++ rest)) ∧
    ∀ (disk : Disk Bytes) (root : Path) (files : List String),
      (∀ q ∈ files, Recorded disk root q s) →
      ∀ w : World, w.store = s → w.faults = Faults.none →
        ∃ marked, (outcome (markForRetry files) w).1 = .ok marked ∧ marked.Pairwise (· < ·) ∧
          (∀ q, q ∈ marked ↔ q ∈ files) ∧
          ∀ w' : World, w'.store = (outcome (markForRetry files) w).2.store →
            w'.faults = Faults.none →
            ((outcome (markForRetry files) w').1 = .ok [] ∧
              (outcome (markForRetry files) w').2.store = w'.store) ∧
            ∀ again : List String, again.Nodup → (∀ q, q ∈ again ↔ q ∈ files) →
              ∃ r, (outcome (detect disk root again) w').1 = .ok r ∧
                r.filesWith .retried = again ∧ r.processed = again ∧
                (∀ v, v ≠ .retried → r.filesWith v = []) ∧
                (outcome (detect disk root again) w').2.store = s := by
  obtain ⟨hopen, hordered, hprinted⟩ := Store.sound_of_wrote h
  constructor
  · intro file text htext
    obtain ⟨bytes, hprint⟩ := hprinted file text htext
    refine ⟨⟨bytes, isDigest_md5 bytes, hprint⟩, fun rest htwice => ?_⟩
    rcases hprint with rfl | rfl
    · exact md5_ne_append bytes _ htwice
    · exact md5_ne_append bytes rest (append_retryMark_inj htwice)
  · intro disk root files hfiles w hw hnone
    subst hw
    obtain ⟨hmarked, hstore⟩ := @outcome_markForRetry files w hnone hopen
    have htakes : (sortedOnce files).filter w.store.takesMark = sortedOnce files :=
      List.filter_eq_self.mpr fun q hq =>
        Store.takesMark_of_recorded (hfiles q (mem_sortedOnce.mp hq))
    rw [htakes] at hmarked
    refine ⟨sortedOnce files, hmarked, pairwise_lt_sortedOnce files, fun q => mem_sortedOnce,
      fun w' hsame hnone' => ?_⟩
    rw [hstore] at hsame
    have hopen' : w'.store.isClosed = false := by
      rw [hsame, Store.isClosed_foldl_marked, hopen]
    constructor
    · obtain ⟨hagain, hstore'⟩ := @outcome_markForRetry files w' hnone' hopen'
      have hdone : ∀ q ∈ sortedOnce files, w'.store.takesMark q = false := fun q hq => by
        rw [hsame]
        exact Store.takesMark_foldl_marked hq
      rw [List.filter_eq_nil_iff.mpr fun q hq => by simp [hdone q hq]] at hagain
      exact ⟨hagain, hstore'.trans (Store.foldl_marked_again hdone)⟩
    · intro again hn hmem
      have hnames : ∀ q ∈ again, '\x00' ∉ (root.below q).toString.toList := by
        intro q hq hbad
        obtain ⟨bytes, hread, -⟩ := hfiles q ((hmem q).mp hq)
        rw [Disk.read_eq_badName_iff.mpr hbad] at hread
        cases hread
      obtain ⟨r, hr⟩ := detect_returns_iff.mpr hnames
      obtain ⟨rfl, hdetected⟩ := detect_eq_judgedAll hnone' hopen' hr
      have hrestored : w'.store.judgedAll disk root again = (again.map fun _ => .retried, w.store) :=
        hsame ▸ Store.judgedAll_foldl_marked hordered
          (fun q hq => hfiles q (mem_sortedOnce.mp hq)) hn
          fun q => (hmem q).trans mem_sortedOnce.symm
      rw [hrestored] at hr hdetected
      refine ⟨_, hr, ?_, ?_, fun v hv => ?_, hdetected⟩
      · rw [ChangeReport.filesWith_zip_map]
        simp
      · rw [ChangeReport.processed_zip_map]
        simp [Verdict.isProcessed]
      · rw [ChangeReport.filesWith_zip_map]
        simpa using fun _ _ => hv.symm

/-- A file that was detected, is marked, given twice, and is detected again. -/
theorem retry_mark_round_trips_sample :
    let ix := Sample.indexer [104, 105]
    let s := (outcome (detect ix.disk ix.root ["a.txt"]) {}).2.store
    let after := (outcome (markForRetry ["a.txt", "a.txt"]) { store := s }).2.store
    (outcome (markForRetry ["a.txt", "a.txt"]) { store := after }).1 = .ok [] ∧
      ∃ r, (outcome (detect ix.disk ix.root ["a.txt"]) { store := after }).1 = .ok r ∧
        r.filesWith .retried = ["a.txt"] ∧
        (outcome (detect ix.disk ix.root ["a.txt"]) { store := after }).2.store = s := by
  intro ix s after
  have hreached : ReflTransGen Store.Wrote {} s :=
    .single (.detected none ix.disk ix.root ["a.txt"] rfl)
  have hrecorded : Recorded ix.disk ix.root "a.txt" s := by
    have hnames : ∀ q ∈ ["a.txt"], '\x00' ∉ (ix.root.below q).toString.toList := by
      decide +kernel
    obtain ⟨r, hr⟩ := (detect_returns_iff (w := {})).mpr hnames
    obtain ⟨-, hstore⟩ := detect_eq_judgedAll rfl rfl hr
    refine ⟨[104, 105], Sample.read_indexer, ?_⟩
    rw [show s = _ from hstore, Store.fingerprint?_judgedAll Sample.read_indexer]
    exact if_pos (List.mem_singleton_self _)
  obtain ⟨-, hround⟩ := retry_mark_round_trips hreached
  obtain ⟨marked, -, -, -, hafter⟩ := hround ix.disk ix.root ["a.txt", "a.txt"]
    (by simpa using hrecorded) { store := s } rfl rfl
  obtain ⟨⟨hagain, -⟩, hdetect⟩ := hafter { store := after } rfl rfl
  obtain ⟨r, hr, hretried, -, -, hrestored⟩ := hdetect ["a.txt"] (by decide) (by simp)
  exact ⟨hagain, r, hr, hretried, hrestored⟩

end Run

end BlockIndex
