import BlockIndex.Proofs.Run.Stored

/-! The blocks that wait for their group, and the files that fail.  The blocks that wait are told apart
by their identities, and none of them is held (`Stage.Queued`).  So whatever becomes of a group, a
file is among the failed ones only for a block that is not held at the end, and for each such block
(`Stage.Stores.mem_failed_iff`). -/

namespace BlockIndex

open Relation

variable {f : Faults} {supply : Option Supply} {p p' p₁ : Run.Progress} {s s' : Store}
  {group : List (Block × Option Vector)} {us : List Unit} {file : String}

/-! ### Groups -/

/-- A saved block is held from then on, and no other block becomes held. -/
theorem Store.holds_of_save? {b d : Block} {vec : Option Vector} {text : String} {id : Nat}
    (h : s.save? b vec text = some (id, s')) :
    s'.holds d = (s.holds d || b.identity == d.identity) := by
  obtain ⟨-, -, rfl⟩ := Store.save?_eq_some.mp h
  simp [Store.holds]

/-- Whether a block is held does not depend on the saving of blocks of other identities. -/
theorem Saved.holds_eq {e : Block × Option Vector} {d : Block} (h : Saved f e (p, s) () (p', s'))
    (hd : e.1.identity ≠ d.identity) : s'.holds d = s.holds d := by
  cases h with
  | saved hsave =>
    rw [Store.holds_of_save? hsave]
    simp [hd]
  | missed _ => rfl

theorem Each.holds_eq {d : Block} (h : Each (Saved f) group (p, s) us (p', s'))
    (hd : ∀ e ∈ group, e.1.identity ≠ d.identity) : s'.holds d = s.holds d := by
  refine h.keeps (I := fun t => t.2.holds d = s.holds d) (fun e he t _ t' hs ht => ?_) rfl
  exact (hs.holds_eq (hd e he)).trans ht

/-- When the first block of a group is saved, those after it are still not held. -/
theorem Saved.rest_free {e : Block × Option Vector} (h : Saved f e (p, s) () (p', s'))
    (hnot : e.1.identity ∉ group.map (·.1.identity))
    (hfree : ∀ d ∈ e :: group, s.holds d.1 = false) : ∀ d ∈ group, s'.holds d.1 = false := by
  intro d hd
  rw [h.holds_eq fun hi => hnot (List.mem_map.mpr ⟨d, hd, hi.symm⟩)]
  exact hfree d (List.mem_cons_of_mem e hd)

/-- If a file fails while a group is saved, some block of it in the group is not held afterwards. -/
theorem Each.not_held_of_failed (h : Each (Saved f) group (p, s) us (p', s'))
    (hdistinct : (group.map (·.1.identity)).Nodup) (hfree : ∀ e ∈ group, s.holds e.1 = false)
    (hfile : file ∈ p'.failed) :
    file ∈ p.failed ∨ ∃ e ∈ group, e.1.displayPath = file ∧ s'.holds e.1 = false := by
  induction group generalizing p s us with
  | nil =>
    cases h
    exact .inl hfile
  | cons e group ih =>
    obtain ⟨hnot, hdistinct⟩ := List.nodup_cons.mp hdistinct
    cases h with
    | @cons _ _ _ _ _ t _ head tail =>
      obtain ⟨p₁, s₁⟩ := t
      rcases ih tail hdistinct (head.rest_free hnot hfree) with hfile₁ | ⟨e', he', hpath, hheld⟩
      · cases head with
        | saved _ => exact .inl hfile₁
        | @missed b vec _ _ _ =>
          rcases List.mem_append.mp hfile₁ with hold | hnew
          · exact .inl hold
          · refine .inr ⟨(b, vec), List.mem_cons_self, (List.mem_singleton.mp hnew).symm, ?_⟩
            -- the blocks after it are others, so it does not become held with them
            rw [tail.holds_eq fun e' he' hi => hnot (List.mem_map.mpr ⟨e', he', hi⟩)]
            exact hfree _ List.mem_cons_self
      · exact .inr ⟨e', List.mem_cons_of_mem e he', hpath, hheld⟩

theorem map_fst_zip_sublist {α β : Type} (xs : List α) (ys : List β) :
    ((xs.zip ys).map Prod.fst).Sublist xs := by
  induction xs generalizing ys with
  | nil => exact List.Sublist.refl _
  | cons x xs ih =>
    cases ys with
    | nil => exact List.nil_sublist _
    | cons y ys => exact (ih ys).cons_cons x

namespace Stage

variable {v v' v₁ : View} {bs : List Block}

/-- A group has the waiting blocks in their order, from the first on. -/
theorem Filling.blocks_sublist (h : Filling p v supply group p₁ v₁) :
    (group.map (·.1)).Sublist p.waiting := by
  cases h with
  | bare =>
    rw [List.map_map]
    exact (List.map_id p.waiting).symm ▸ List.Sublist.refl _
  | vectors _ _ =>
    rw [List.map_map]
    exact map_fst_zip_sublist _ _

/-! ### The blocks that wait -/

/-- The store is open, and the blocks that wait have room, were seen, have identities of their own
and are not held. -/
structure Queued (supply : Option Supply) (c : Stage) : Prop where
  isOpen : c.view.store.isClosed = false
  room : c.progress.waiting.length ≤ Supply.room supply
  seen : ∀ b ∈ c.progress.waiting, b.identity ∈ c.progress.seen
  distinct : (c.progress.waiting.map (·.identity)).Nodup
  free : ∀ b ∈ c.progress.waiting, c.view.store.holds b = false

theorem queued_start (t : Tally) (h : v.store.isClosed = false) :
    Queued supply ⟨bs, { tally := t }, v⟩ :=
  ⟨h, Nat.zero_le _, fun _ hb => (nomatch hb), List.nodup_nil, fun _ hb => (nomatch hb)⟩

/-- Where no block waits any longer there is nothing to say of those that do. -/
theorem queued_of_waiting_eq_nil {c : Stage} (hopen : c.view.store.isClosed = false)
    (hw : c.progress.waiting = []) : Queued supply c := by
  refine ⟨hopen, ?_, ?_, ?_, ?_⟩ <;> simp [hw]

theorem Step.queued {c c' : Stage} (hc : c.Queued supply) (h : Step f supply c c') :
    c'.Queued supply := by
  obtain ⟨hopen, hroom, hseen, hdistinct, hfree⟩ := hc
  cases h with
  | seen _ => exact ⟨hopen, hroom, hseen, hdistinct, hfree⟩
  | unread _ _ =>
    exact ⟨hopen, hroom, fun b hb => List.mem_cons_of_mem _ (hseen b hb), hdistinct, hfree⟩
  | held _ _ =>
    exact ⟨hopen, hroom, fun b hb => List.mem_cons_of_mem _ (hseen b hb), hdistinct, hfree⟩
  | @wait b bs p v h free room =>
    have hmem : ∀ d ∈ ((p.see b).await b).waiting, d ∈ p.waiting ∨ d = b := by
      intro d hd
      simpa [Run.Progress.await, Run.Progress.see] using hd
    refine ⟨hopen, ?_, fun d hd => ?_, ?_, fun d hd => ?_⟩
    · simpa [Run.Progress.await, Run.Progress.see] using Nat.succ_le_of_lt room
    · rcases hmem d hd with hd | rfl
      · exact List.mem_cons_of_mem _ (hseen d hd)
      · exact List.mem_cons_self
    · have hnew : ∀ d ∈ p.waiting, d.identity ≠ b.identity := fun d hd e => h (e ▸ hseen d hd)
      simpa [Run.Progress.await, Run.Progress.see, List.nodup_append, hdistinct] using hnew
    · rcases hmem d hd with hd | rfl
      · exact hfree d hd
      · exact free
  | @save bs p p₁ p₂ v v₁ s group us _ _ filling saved =>
    refine queued_of_waiting_eq_nil ?_ (saved.saved_frame.2.trans filling.frame.2.1)
    refine saved.keeps (I := fun t => t.2.isClosed = false) (fun e _ t _ t' hs ht => ?_) ?_
    · cases hs with
      | saved hsave =>
        obtain ⟨-, -, rfl⟩ := Store.save?_eq_some.mp hsave
        exact ht
      | missed _ => exact ht
    · rw [filling.store_eq]
      exact hopen
  | lose _ _ _ _ _ => exact queued_of_waiting_eq_nil hopen rfl

/-- The blocks of a group are told apart by their identities, and none is held. -/
theorem Filling.group_free {c : Stage} (hc : c.Queued supply)
    (h : Filling c.progress c.view supply group p₁ v₁) :
    (group.map (·.1.identity)).Nodup ∧ ∀ e ∈ group, v₁.store.holds e.1 = false := by
  constructor
  · have hsub := h.blocks_sublist.map Block.identity
    rw [List.map_map] at hsub
    exact hc.distinct.sublist hsub
  · intro e he
    rw [h.store_eq]
    exact hc.free e.1 (h.mem_waiting he)

/-! ### The files that fail -/

/-- Each failed file has a block that was seen, waits no longer and is not held. -/
def Blames (bs : List Block) (c : Stage) : Prop :=
  ∀ file ∈ c.progress.failed, ∃ b ∈ bs, b.displayPath = file ∧ b.identity ∈ c.progress.seen ∧
    (∀ d ∈ c.progress.waiting, d.identity ≠ b.identity) ∧ c.view.store.holds b = false

theorem Step.blames {c c' : Stage} (hf : ∀ i b, f i (.holds b) = none)
    (hwait : c.progress.waiting ⊆ bs) (hc : c.Queued supply) (h : Step f supply c c')
    (hb : c.Blames bs) : c'.Blames bs := by
  cases h with
  | seen _ => exact hb
  | unread _ refused => exact absurd refused (Store.not_refuses_of hc.isOpen fun i => hf i _)
  | held _ _ =>
    intro file hfile
    obtain ⟨d, hd, hpath, hseen, hrest⟩ := hb file hfile
    exact ⟨d, hd, hpath, List.mem_cons_of_mem _ hseen, hrest⟩
  | @wait b bs' p v h free room =>
    intro file hfile
    obtain ⟨d, hd, hpath, hseen, hnot, hheld⟩ := hb file hfile
    refine ⟨d, hd, hpath, List.mem_cons_of_mem _ hseen, fun a ha => ?_, hheld⟩
    rcases List.mem_append.mp ha with ha | ha
    · exact hnot a ha
    · obtain rfl := List.mem_singleton.mp ha
      exact fun e => h (e ▸ hseen)
  | @save bs' p p₁ p₂ v v₁ s group us _ _ filling saved =>
    obtain ⟨hseen₁, hwait₁, hfailed₁, -⟩ := filling.frame
    obtain ⟨hseen₂, hwait₂⟩ := saved.saved_frame
    simp only [hseen₁, hwait₁] at hseen₂ hwait₂
    obtain ⟨hdistinct, hfree⟩ := filling.group_free hc
    have hnone : ∀ (b a : Block), a ∈ p₂.waiting → a.identity ≠ b.identity := by simp [hwait₂]
    intro file hfile
    rcases saved.not_held_of_failed hdistinct hfree hfile with hold | ⟨e, he, hpath, hheld⟩
    · obtain ⟨d, hd, hpath, hseen, hnot, hheld⟩ := hb file (hfailed₁ ▸ hold)
      refine ⟨d, hd, hpath, by rw [hseen₂]; exact hseen, hnone d, ?_⟩
      have hother : ∀ e ∈ group, e.1.identity ≠ d.identity := fun e he =>
        hnot e.1 (filling.mem_waiting he)
      show s.holds d = false
      rw [saved.holds_eq hother, filling.store_eq]
      exact hheld
    · have hmem := filling.mem_waiting he
      exact ⟨e.1, hwait hmem, hpath, by rw [hseen₂]; exact hc.seen e.1 hmem, hnone e.1, hheld⟩
  | @lose bs' p v c e _ _ _ _ _ =>
    intro file hfile
    have hnone : ∀ (b a : Block), a ∈ p.lose.waiting → a.identity ≠ b.identity :=
      fun b a ha => nomatch ha
    rcases List.mem_append.mp hfile with hold | hlost
    · obtain ⟨d, hd, hpath, hseen, -, hheld⟩ := hb file hold
      exact ⟨d, hd, hpath, hseen, hnone d, hheld⟩
    · obtain ⟨b, hmem, hpath⟩ := List.mem_map.mp hlost
      exact ⟨b, hwait hmem, hpath, hc.seen b hmem, hnone b, hc.free b hmem⟩

end Stage

/-- None of the blocks that are left is held. -/
theorem Rest.not_held {seen : List Identity} {bs rest : List Block} {b : Block}
    (hopen : s.isClosed = false) (hf : ∀ i b, f i (.holds b) = none) (h : Rest f s seen bs rest)
    (hb : b ∈ rest) : s.holds b = false := by
  induction h with
  | nil => cases hb
  | seen _ _ ih => exact ih hb
  | held _ _ _ ih => exact ih hb
  | missing _ hmissing _ ih =>
    rcases List.mem_cons.mp hb with rfl | hb
    · exact hmissing.resolve_right (Store.not_refuses_of hopen fun i => hf i _)
    · exact ih hb

namespace Stage

variable {v v' : View} {bs : List Block} {t : Tally}

/-- When storing comes to its end, a failed file has a first block that is not held. -/
theorem Stores.not_held_of_failed (hopen : v.store.isClosed = false)
    (hf : ∀ i b, f i (.holds b) = none)
    (h : Stores f supply ⟨bs, { tally := t }, v⟩ (.ok p) v') (hfile : file ∈ p.failed) :
    ∃ b ∈ firsts [] bs, b.displayPath = file ∧ v'.store.holds b = false := by
  obtain ⟨c, hrun, hend⟩ := h
  have hc : c.offered ⊆ firsts [] bs ∧ c.Queued supply ∧ c.Blames (firsts [] bs) := by
    clear hend
    induction hrun with
    | refl => exact ⟨by simp [offered], queued_start t hopen, fun _ hb => nomatch hb⟩
    | tail _ hstep ih =>
      obtain ⟨hoff, hqueued, hblames⟩ := ih
      have hwait : _ ⊆ firsts [] bs := fun d hd => hoff (List.mem_append_left _ hd)
      exact ⟨List.Subset.trans hstep.offered_subset hoff, hstep.queued hqueued,
        hstep.blames hf hwait hqueued hblames⟩
  obtain ⟨hoff, hqueued, hblames⟩ := hc
  -- a run in time ends with `Blames`; a late one adds the blocks that wait and those that are left
  cases hend with
  | done _ =>
    obtain ⟨b, hb, hpath, -, -, hheld⟩ := hblames file hfile
    exact ⟨b, hb, hpath, hheld⟩
  | @late as rest q _ k hw full hc left hrest =>
    rcases List.mem_append.mp hfile with hold | hgiven
    · obtain ⟨b, hb, hpath, -, -, hheld⟩ := hblames file hold
      exact ⟨b, hb, hpath, hheld⟩
    · obtain ⟨b, hb, hpath⟩ := List.mem_map.mp hgiven
      rcases List.mem_append.mp hb with hb | hb
      · exact ⟨b, hoff (List.mem_append_left _ hb), hpath, hqueued.free b hb⟩
      · exact ⟨b, hoff (List.mem_append_right _ (hrest.subset_firsts hb)), hpath,
          hrest.not_held hqueued.isOpen hf hb⟩

/-- When storing comes to its end, exactly the files of first blocks that are not held have failed. -/
theorem Stores.mem_failed_iff (hcount : ∀ k, supply = some k → k.provider.KeepsCount)
    (hopen : v.store.isClosed = false) (hf : ∀ i b, f i (.holds b) = none)
    (h : Stores f supply ⟨bs, { tally := t }, v⟩ (.ok p) v') :
    file ∈ p.failed ↔ ∃ b ∈ firsts [] bs, b.displayPath = file ∧ v'.store.holds b = false := by
  constructor
  · exact h.not_held_of_failed hopen hf
  · rintro ⟨b, hb, rfl, hheld⟩
    rcases h.held_or_failed hcount (mem_of_mem_firsts hb) with hholds | ⟨d, hd, hi, hfail⟩
    · rw [hheld] at hholds
      cases hholds
    · rwa [← eq_of_mem_firsts hd hb hi]

end Stage

end BlockIndex
