import BlockIndex.Proofs.Run.Wp
import BlockIndex.Proofs.Store.Basic
import BlockIndex.Proofs.Tree.Path
import BlockIndex.Run.Change

/-! What pruning, detection and marking can do to a store.  `Judged`, `Forgotten` and `Marked` say
what may become of one file, whatever calls are refused; `judged`, `forgotten` and `marked` say what
becomes of it when none is. -/

namespace BlockIndex

/-- A step for each element of a list, from state to state, and what each step gives. -/
inductive Each {α β σ : Type} (step : α → σ → β → σ → Prop) : List α → σ → List β → σ → Prop
  | nil {s : σ} : Each step [] s [] s
  | cons {a : α} {as : List α} {b : β} {bs : List β} {s t u : σ} (head : step a s b t)
      (tail : Each step as t bs u) : Each step (a :: as) s (b :: bs) u

namespace Each

variable {α β σ : Type} {step : α → σ → β → σ → Prop} {as : List α} {bs : List β} {s t : σ}

theorem length_eq (h : Each step as s bs t) : bs.length = as.length := by
  induction h with
  | nil => rfl
  | cons _ _ ih => simp [ih]

/-- What each step keeps, all of them keep. -/
theorem keeps_zip {I : σ → Prop} (h : Each step as s bs t)
    (hstep : ∀ a b, (a, b) ∈ as.zip bs → ∀ s t, step a s b t → I s → I t) (hs : I s) : I t := by
  induction h with
  | nil => exact hs
  | cons head _ ih =>
    refine ih (fun a b hab => hstep a b (List.mem_cons_of_mem _ hab)) ?_
    exact hstep _ _ List.mem_cons_self _ _ head hs

theorem keeps {I : σ → Prop} (h : Each step as s bs t)
    (hstep : ∀ a ∈ as, ∀ s b t, step a s b t → I s → I t) (hs : I s) : I t :=
  h.keeps_zip (fun a b hab s t => hstep a (List.of_mem_zip hab).1 s b t) hs

/-- What a step makes true of a file and the later ones keep is true of all files at the end. -/
theorem forall_mem {P : α → β → σ → Prop} (h : Each step as s bs t)
    (hstep : ∀ a s b t, step a s b t → P a b t)
    (hkeep : ∀ a ∈ as, ∀ s b t, step a s b t → ∀ a' b', P a' b' s → P a' b' t) :
    ∀ e ∈ as.zip bs, P e.1 e.2 t := by
  induction h with
  | nil => simp
  | @cons a as b bs s t u head tail ih =>
    have hkeep' := fun a' ha' => hkeep a' (List.mem_cons_of_mem a ha')
    simp only [List.zip_cons_cons, List.forall_mem_cons]
    refine ⟨?_, ih hkeep'⟩
    exact tail.keeps (I := P a b) (fun a' ha' s b' t hs => hkeep' a' ha' s b' t hs a b)
      (hstep a s b t head)

/-- Each element of the list had its step. -/
theorem exists_mem_zip (h : Each step as s bs t) {a : α} (ha : a ∈ as) :
    ∃ b, (a, b) ∈ as.zip bs := by
  obtain ⟨i, hi, rfl⟩ := List.mem_iff_getElem.mp ha
  have hi' : i < bs.length := by rwa [h.length_eq]
  exact ⟨bs[i], List.mem_iff_getElem.mpr ⟨i, by rw [List.length_zip]; omega, by simp⟩⟩

end Each

namespace Store

/-- The store after a file with a digest was given a verdict other than unchanged. -/
def record (s : Store) (file digest : String) (v : Verdict) : Store :=
  (if v = .changed then s.deleteBlocks file else s).setFingerprint file digest

/-- The verdict on a file and the store after it, when no call is refused. -/
def judged (disk : Disk Bytes) (root : Path) (file : String) (s : Store) : Verdict × Store :=
  match disk.read (root.below file) with
  | .error _ => (.skipped, s)
  | .ok bytes =>
    let v := Run.verdictOf (Digest.md5 bytes) (s.fingerprint? file)
    if v = .unchanged then (v, s) else (v, s.record file (Digest.md5 bytes) v)

/-- The verdicts on files and the store after them, when no call is refused. -/
def judgedAll (disk : Disk Bytes) (root : Path) : List String → Store → List Verdict × Store
  | [], s => ([], s)
  | file :: files, s =>
    let r := s.judged disk root file
    let rs := judgedAll disk root files r.2
    (r.1 :: rs.1, rs.2)

/-- The store without the rows and the fingerprint of a file. -/
def forgotten (s : Store) (file : String) : Store := (s.deleteBlocks file).dropFingerprint file

/-- The store with only the given files. -/
def pruned (current : List String) (s : Store) : Store :=
  (s.tracked.filter fun f => !current.contains f).foldl forgotten s

/-- The store with a mark before the fingerprint of a file. -/
def marked (s : Store) (file : String) : Store :=
  match s.fingerprint? file with
  | none => s
  | some text => if Run.isMarked text then s else s.setFingerprint file (retryMark ++ text)

end Store

variable {f : Faults} {v : View}

/-! ### Detection -/

/-- What may become of a file with a digest. -/
inductive Judged (f : Faults) (file digest : String) (s : Store) : Verdict → Store → Prop
  | unread (h : s.Refuses f (.fingerprint file)) : Judged f file digest s .skipped s
  | unchanged (h : s.fingerprint? file = some digest) : Judged f file digest s .unchanged s
  | undeleted (h : Run.verdictOf digest (s.fingerprint? file) = .changed)
      (refused : s.Refuses f (.deleteBlocks file)) : Judged f file digest s .skipped s
  /-- The rows of a changed file may be gone although its fingerprint could not be set. -/
  | unset {w : Verdict} (h : Run.verdictOf digest (s.fingerprint? file) = w) (hw : w ≠ .unchanged)
      (refused : s.Refuses f (.setFingerprint file digest)) :
      Judged f file digest s .skipped (if w = .changed then s.deleteBlocks file else s)
  | recorded {w : Verdict} (h : Run.verdictOf digest (s.fingerprint? file) = w)
      (hw : w ≠ .unchanged) : Judged f file digest s w (s.record file digest w)

/-- What may become of a file on a disk. -/
inductive JudgedFile (f : Faults) (disk : Disk Bytes) (root : Path) (file : String) (s : Store) :
    Verdict → Store → Prop
  | unreadable {e : AccessError} (h : disk.read (root.below file) = .error e) :
      JudgedFile f disk root file s .skipped s
  | readable {bytes : Bytes} {w : Verdict} {s' : Store}
      (h : disk.read (root.below file) = .ok bytes)
      (judged : Judged f file (Digest.md5 bytes) s w s') :
      JudgedFile f disk root file s w s'

namespace Run

theorem verdictOf_eq_unchanged {digest : String} {stored : Option String} :
    verdictOf digest stored = .unchanged ↔ stored = some digest := by
  unfold verdictOf
  cases stored with
  | none => simp
  | some text =>
    simp only [Option.some.injEq]
    split
    · simp [*]
    · split <;> simp only [reduceCtorEq, false_iff] <;> assumption

theorem verdictOf_eq_new {digest : String} {stored : Option String}
    (h : verdictOf digest stored = .new) : stored = none := by
  unfold verdictOf at h
  split at h
  · rfl
  · split at h
    · cases h
    · split at h <;> cases h

theorem verdictOf_eq_retried {digest : String} {stored : Option String}
    (h : verdictOf digest stored = .retried) : stored = some (retryMark ++ digest) := by
  unfold verdictOf at h
  split at h
  · cases h
  · split at h
    · cases h
    · split at h
      · next ht => rw [ht]
      · cases h

theorem verdictOf_ne_skipped {digest : String} {stored : Option String} :
    verdictOf digest stored ≠ .skipped := by
  unfold verdictOf
  split
  · exact fun h => nomatch h
  · split
    · exact fun h => nomatch h
    · split <;> exact fun h => nomatch h

theorem wp_recordDigest {file digest : String} {w : Verdict}
    {Q : Except Failure Unit → View → Prop}
    (undeleted : w = .changed → v.store.Refuses f (.deleteBlocks file) →
      ∀ e, Q (.error (.store e)) v)
    (unset : v.store.Refuses f (.setFingerprint file digest) → ∀ e, Q (.error (.store e))
      { v with store := if w = .changed then v.store.deleteBlocks file else v.store })
    (recorded : Q (.ok ()) { v with store := v.store.record file digest w }) :
    wp f (recordDigest file digest w) Q v := by
  unfold recordDigest
  by_cases hw : w = .changed
  · simp only [hw, if_true]
    refine wp_bind (wp_deleteBlocks (undeleted hw) fun n => wp_bind (wp_debug ?_))
    refine wp_setFingerprint (fun h => ?_) ?_
    · simpa [hw] using unset h
    · simpa [Store.record, hw] using recorded
  · simp only [hw, if_false]
    refine wp_setFingerprint (fun h => ?_) ?_
    · simpa [hw] using unset h
    · simpa [Store.record, hw] using recorded

theorem wp_judgeDigest {file digest : String} {Q : Except Failure Verdict → View → Prop}
    (h : ∀ w s', Judged f file digest v.store w s' → Q (.ok w) { v with store := s' }) :
    wp f (judgeDigest file digest) Q v := by
  unfold judgeDigest
  refine wp_bind (wp_attempt (wp_fingerprint (fun hr e => ?_) ?_))
  · exact wp_bind (wp_warn (wp_pure (h _ _ (.unread hr))))
  · show wp f (if verdictOf digest (v.store.fingerprint? file) = .unchanged then _ else _) Q v
    split
    · next hv =>
      rw [hv]
      exact wp_pure (h _ _ (.unchanged (verdictOf_eq_unchanged.mp hv)))
    · next hv =>
      refine wp_bind (wp_attempt (wp_recordDigest (fun hc hr e => ?_) (fun hr e => ?_) ?_))
      · exact wp_bind (wp_warn (wp_pure (h _ _ (.undeleted hc hr))))
      · exact wp_bind (wp_warn (wp_pure (h _ _ (.unset rfl hv hr))))
      · exact wp_pure (h _ _ (.recorded rfl hv))

theorem wp_judge {disk : Disk Bytes} {root : Path} {file : String}
    {Q : Except Failure Verdict → View → Prop}
    (bad : disk.read (root.below file) = .error .badName → Q (.error (.access .badName file)) v)
    (h : ∀ w s', JudgedFile f disk root file v.store w s' → Q (.ok w) { v with store := s' }) :
    wp f (judge disk root file) Q v := by
  unfold judge
  dsimp only
  split
  · exact wp_throw (bad ‹_›)
  · next e he => exact wp_bind (wp_warn (wp_pure (h _ _ (.unreadable he))))
  · next bytes hb => exact wp_judgeDigest fun w s' hj => h _ _ (.readable hb hj)

section Detection

variable {α : Type} {judge : α → Run Verdict} {Judges : α → Store → Verdict → Store → Prop}
  {E : α → Failure → Prop} {files : List α}

/-- Detection judges the files one after the other, unless it comes to one on which judging fails. -/
theorem wp_judgeAll {Q : Except Failure (List (α × Verdict)) → View → Prop}
    (hjudge : ∀ (file : α) (v : View) (Q : Except Failure Verdict → View → Prop),
      (∀ e, E file e → Q (.error e) v) →
      (∀ w s', Judges file v.store w s' → Q (.ok w) { v with store := s' }) →
        wp f (judge file) Q v)
    (bad : ∀ done ws s', done <+: files → Each Judges done v.store ws s' →
      ∀ file ∈ files, ∀ e, E file e → Q (.error e) { v with store := s' })
    (h : ∀ ws s', Each Judges files v.store ws s' → Q (.ok (files.zip ws)) { v with store := s' }) :
    wp f (judgeAll judge files) Q v := by
  induction files generalizing v Q with
  | nil => exact wp_pure (h _ _ .nil)
  | cons file files ih =>
    refine wp_bind (hjudge file v _ (fun e he => ?_) fun w s' hj => wp_bind (ih ?_ ?_))
    · exact bad [] [] v.store List.nil_prefix .nil file (by simp) e he
    · intro done ws s'' hd hs file' hf e he
      exact bad (file :: done) (w :: ws) s'' (List.cons_prefix_cons.mpr ⟨rfl, hd⟩) (.cons hj hs)
        file' (by simp [hf]) e he
    · exact fun ws s'' he => wp_pure (h _ _ (.cons hj he))

theorem wp_detectWith {shown : α → String} {Q : Except Failure (ChangeReport α) → View → Prop}
    (hjudge : ∀ (file : α) (v : View) (Q : Except Failure Verdict → View → Prop),
      (∀ e, E file e → Q (.error e) v) →
      (∀ w s', Judges file v.store w s' → Q (.ok w) { v with store := s' }) →
        wp f (judge file) Q v)
    (bad : ∀ done ws s', done <+: files → Each Judges done v.store ws s' →
      ∀ file ∈ files, ∀ e, E file e → Q (.error e) { v with store := s' })
    (h : ∀ ws s', Each Judges files v.store ws s' →
      Q (.ok ⟨files.zip ws⟩) { v with store := s' }) :
    wp f (detectWith judge shown files) Q v := by
  refine wp_bind (wp_info (wp_bind (wp_judgeAll hjudge bad fun ws s' he => ?_)))
  exact wp_bind (wp_info (wp_bind (wp_forM_log wp_debug _ (wp_pure (h _ _ he)))))

end Detection

theorem wp_detect {disk : Disk Bytes} {root : Path} {files : List String}
    {Q : Except Failure ChangeReport → View → Prop}
    (bad : ∀ done ws s', done <+: files → Each (JudgedFile f disk root) done v.store ws s' →
      ∀ file ∈ files, disk.read (root.below file) = .error .badName →
        Q (.error (.access .badName file)) { v with store := s' })
    (h : ∀ ws s', Each (JudgedFile f disk root) files v.store ws s' →
      Q (.ok ⟨files.zip ws⟩) { v with store := s' }) :
    wp f (detect disk root files) Q v := by
  refine wp_detectWith (E := fun file e =>
      disk.read (root.below file) = .error .badName ∧ e = .access .badName file)
    (fun file v Q hfails hjudged => wp_judge (fun hb => hfails _ ⟨hb, rfl⟩) hjudged) ?_ h
  rintro done ws s' hd he file hf e ⟨hb, rfl⟩
  exact bad done ws s' hd he file hf hb

end Run

/-! ### Marking -/

/-- What may become of marking a file, and whether it was marked. -/
inductive Marked (f : Faults) (file : String) (s : Store) : Bool → Store → Prop
  | unread (h : s.Refuses f (.fingerprint file)) : Marked f file s false s
  | unset {text : String} (h : s.Refuses f (.setFingerprint file text)) : Marked f file s false s
  | kept (h : s.marked file = s) : Marked f file s false s
  | marked : Marked f file s true (s.marked file)

/-! ### Pruning -/

/-- What may become of forgetting a file, and whether it was forgotten. -/
inductive Forgotten (f : Faults) (file : String) (s : Store) : Bool → Store → Prop
  | kept (h : s.Refuses f (.deleteBlocks file)) : Forgotten f file s false s
  /-- The rows may be gone although the fingerprint could not be removed. -/
  | emptied (h : s.Refuses f (.dropFingerprint file)) :
      Forgotten f file s false (s.deleteBlocks file)
  | forgotten : Forgotten f file s true (s.forgotten file)

/-- What may become of forgetting all files but the given ones. -/
inductive Pruned (f : Faults) (current : List String) (s : Store) : Store → Prop
  | unread (h : s.Refuses f .tracked) : Pruned f current s s
  | pruned {done : List Bool} {s' : Store}
      (h : Each (Forgotten f) (s.tracked.filter fun p => !current.contains p) s done s') :
      Pruned f current s s'

namespace Run

theorem wp_mark {file : String} {Q : Except Failure Bool → View → Prop}
    (refused : Marked f file v.store false v.store → ∀ e, Q (.error (.store e)) v)
    (h : ∀ done s', Marked f file v.store done s' → Q (.ok done) { v with store := s' }) :
    wp f (mark file) Q v := by
  refine wp_bind (wp_fingerprint (fun hr => refused (.unread hr)) ?_)
  show wp f (match v.store.fingerprint? file with | none => _ | some text => _) Q v
  split
  · next hn => exact wp_pure (h _ _ (.kept (by simp [Store.marked, hn])))
  · next text ht =>
    split
    · next hm => exact wp_pure (h _ _ (.kept (by simp [Store.marked, ht, hm])))
    · next hm =>
      refine wp_bind (wp_setFingerprint (fun hr => refused (.unset hr)) (wp_pure ?_))
      have hs : v.store.marked file = v.store.setFingerprint file (retryMark ++ text) := by
        simp [Store.marked, ht, hm]
      exact hs ▸ h _ _ .marked

theorem wp_markEach {files : List String} {Q : Except Failure (List String) → View → Prop}
    (h : ∀ gone done s', Each (Marked f) files v.store done s' →
      Q (.ok gone) { v with store := s' }) :
    wp f (markEach files) Q v := by
  induction files generalizing v Q with
  | nil => exact wp_pure (h _ _ _ .nil)
  | cons file files ih =>
    refine wp_bind (wp_attempt (wp_mark (fun hm e => ?_) fun done s' hm => ?_))
    · exact wp_bind (wp_warn (ih fun gone done s' he => h _ _ _ (.cons hm he)))
    · cases done with
      | false => exact ih fun gone done s' he => h _ _ _ (.cons hm he)
      | true =>
        exact wp_bind (wp_debug (wp_bind (ih fun gone done s' he =>
          wp_pure (h _ _ _ (.cons hm he)))))

theorem wp_forget {file : String} {Q : Except Failure Unit → View → Prop}
    (refused : ∀ s', Forgotten f file v.store false s' →
      ∀ e, Q (.error (.store e)) { v with store := s' })
    (h : Q (.ok ()) { v with store := v.store.forgotten file }) :
    wp f (forget file) Q v :=
  wp_bind (wp_deleteBlocks (fun hr => refused _ (.kept hr)) fun _ =>
    wp_dropFingerprint (fun hr => refused _ (.emptied hr)) h)

theorem wp_forgetEach {files : List String} {Q : Except Failure (List String) → View → Prop}
    (h : ∀ gone done s', Each (Forgotten f) files v.store done s' →
      Q (.ok gone) { v with store := s' }) :
    wp f (forgetEach files) Q v := by
  induction files generalizing v Q with
  | nil => exact wp_pure (h _ _ _ .nil)
  | cons file files ih =>
    refine wp_bind (wp_attempt (wp_forget (fun s' hf e => ?_) ?_))
    · exact wp_bind (wp_warn (ih fun gone done s'' he => h _ _ _ (.cons hf he)))
    · exact wp_bind (ih fun gone done s'' he => wp_pure (h _ _ _ (.cons .forgotten he)))

theorem wp_prune {current : List String} {Q : Except Failure (List String) → View → Prop}
    (h : ∀ gone s', Pruned f current v.store s' → Q (.ok gone) { v with store := s' }) :
    wp f (prune current) Q v := by
  refine wp_bind (wp_attempt (wp_tracked (fun hr e => ?_) ?_))
  · exact wp_bind (wp_warn (wp_pure (h _ _ (.unread hr))))
  · refine wp_bind (wp_forgetEach fun gone done s' he => ?_)
    show wp f (if (!gone.isEmpty) = true then _ else _) Q _
    split
    · exact wp_bind (wp_info (wp_pure (h _ _ (.pruned he))))
    · exact wp_pure (h _ _ (.pruned he))

end Run

/-! ### Without refusals -/

section Unrefused

variable {s s' : Store} (hs : s.isClosed = false)
include hs

theorem Judged.eq_of_none {file digest : String} {w : Verdict}
    (h : Judged Faults.none file digest s w s') :
    w = Run.verdictOf digest (s.fingerprint? file) ∧
      s' = if w = .unchanged then s else s.record file digest w := by
  cases h with
  | unread h => exact absurd h (Store.not_refuses hs)
  | unchanged h => exact ⟨(Run.verdictOf_eq_unchanged.mpr h).symm, by simp⟩
  | undeleted _ h => exact absurd h (Store.not_refuses hs)
  | unset _ _ h => exact absurd h (Store.not_refuses hs)
  | recorded h hw => exact ⟨h.symm, by simp [hw]⟩

theorem JudgedFile.eq_of_none {disk : Disk Bytes} {root : Path} {file : String} {w : Verdict}
    (h : JudgedFile Faults.none disk root file s w s') : (w, s') = s.judged disk root file := by
  cases h with
  | unreadable h => simp [Store.judged, h]
  | readable h hj =>
    obtain ⟨rfl, rfl⟩ := hj.eq_of_none hs
    simp only [Store.judged, h]
    split <;> rfl

theorem Marked.eq_of_unrefused {file : String} {done : Bool}
    (hread : ∀ i file, f i (.fingerprint file) = none)
    (hset : ∀ i file text, f i (.setFingerprint file text) = none)
    (h : Marked f file s done s') : s' = s.marked file := by
  cases h with
  | unread h => exact absurd h (Store.not_refuses_of hs fun i => hread i _)
  | unset h => exact absurd h (Store.not_refuses_of hs fun i => hset i _ _)
  | kept h => exact h.symm
  | marked => rfl

theorem Forgotten.eq_of_none {file : String} {done : Bool}
    (h : Forgotten Faults.none file s done s') : s' = s.forgotten file := by
  cases h with
  | kept h => exact absurd h (Store.not_refuses hs)
  | emptied h => exact absurd h (Store.not_refuses hs)
  | forgotten => rfl

end Unrefused

@[simp] theorem Store.isClosed_record (s : Store) (file digest : String) (w : Verdict) :
    (s.record file digest w).isClosed = s.isClosed := by
  unfold Store.record
  split <;> rfl

@[simp] theorem Store.isClosed_judged (s : Store) (disk : Disk Bytes) (root : Path)
    (file : String) : (s.judged disk root file).2.isClosed = s.isClosed := by
  unfold Store.judged
  split
  · rfl
  · simp only
    split <;> simp

@[simp] theorem Store.isClosed_marked (s : Store) (file : String) :
    (s.marked file).isClosed = s.isClosed := by
  unfold Store.marked
  split
  · rfl
  · split <;> rfl

/-- Without refusals the verdicts on files are those of the digests. -/
theorem Each.eq_judgedAll {disk : Disk Bytes} {root : Path} {files : List String}
    {ws : List Verdict} {s s' : Store} (hs : s.isClosed = false)
    (h : Each (JudgedFile Faults.none disk root) files s ws s') :
    (ws, s') = s.judgedAll disk root files := by
  induction h with
  | nil => rfl
  | @cons file files w ws s t u head tail ih =>
    have he := head.eq_of_none hs
    have ht : t.isClosed = false := by
      rw [show t = (s.judged disk root file).2 from congrArg Prod.snd he, Store.isClosed_judged, hs]
    simp only [Store.judgedAll, ← he, ← ih ht]

/-- Without refusals the steps of a list are the steps of a function. -/
theorem Each.eq_foldl {step : String → Store → Bool → Store → Prop} {g : Store → String → Store}
    (hstep : ∀ file s done s', s.isClosed = false → step file s done s' → s' = g s file)
    (hclosed : ∀ s file, (g s file).isClosed = s.isClosed) {files : List String}
    {done : List Bool} {s s' : Store} (hs : s.isClosed = false) (h : Each step files s done s') :
    s' = files.foldl g s := by
  induction h with
  | nil => rfl
  | cons head tail ih =>
    have he := hstep _ _ _ _ hs head
    subst he
    exact ih (by rw [hclosed, hs])

theorem Pruned.eq_of_none {current : List String} {s s' : Store} (hs : s.isClosed = false)
    (h : Pruned Faults.none current s s') : s' = s.pruned current := by
  cases h with
  | unread h => exact absurd h (Store.not_refuses hs)
  | pruned h =>
    exact h.eq_foldl (g := Store.forgotten) (fun _ _ _ _ hs hf => hf.eq_of_none hs)
      (fun _ _ => rfl) hs

/-- If fingerprints can be read and set, all files are marked. -/
theorem Each.eq_marked_of_unrefused (hread : ∀ i file, f i (.fingerprint file) = none)
    (hset : ∀ i file text, f i (.setFingerprint file text) = none) {files : List String}
    {done : List Bool} {s s' : Store} (hs : s.isClosed = false)
    (h : Each (Marked f) files s done s') : s' = files.foldl Store.marked s :=
  h.eq_foldl (fun _ _ _ _ hs hm => hm.eq_of_unrefused hs hread hset)
    (fun s file => s.isClosed_marked file) hs

theorem Each.eq_marked {files : List String} {done : List Bool} {s s' : Store}
    (hs : s.isClosed = false) (h : Each (Marked Faults.none) files s done s') :
    s' = files.foldl Store.marked s :=
  h.eq_marked_of_unrefused (fun _ _ => rfl) (fun _ _ _ => rfl) hs

end BlockIndex
