import BlockIndex.Proofs.Run.Unhindered
import BlockIndex.Proofs.Run.Waiting

/-! For what a provider is asked while blocks are stored.  The blocks of a list that are not held at
the start, each identity once, are asked for in their order: what was asked for, what waits and what
is still missing together are always that list (`Stage.Asked`).  A block that got its vector is
stored from then on, if the store refuses none. -/

namespace BlockIndex

open Relation

/-- The blocks that get a vector when a request for the texts of the first ones is answered. -/
def Provider.paidBy (provider : Provider) (earlier : Nat) (call : ProviderCall)
    (bs : List Block) : List Block :=
  match (provider earlier call.texts call.timeout).vectors with
  | .ok vs => ((bs.take call.texts.length).zip vs).map (·.1)
  | .error _ => []

/-- The blocks that get vectors in requests each of which is for the texts of the next blocks of a
list. -/
def Provider.paid (provider : Provider) : Nat → List ProviderCall → List Block → List Block
  | _, [], _ => []
  | earlier, call :: calls, bs =>
    provider.paidBy earlier call bs ++
      provider.paid (earlier + 1) calls (bs.drop call.texts.length)

/-- A request for texts at the time of a view. -/
def Supply.call (k : Supply) (v : View) (texts : List String) : ProviderCall :=
  ⟨texts, Ticks.left k.deadline v.clock⟩

/-- A row with another identity has the place of a block. -/
def Store.Clashes (s : Store) (b : Block) : Prop :=
  ∃ r ∈ s.rows, r.block.identity.folded = b.identity.folded ∧ r.block.identity ≠ b.identity

instance (s : Store) (b : Block) : Decidable (s.Clashes b) :=
  inferInstanceAs (Decidable (∃ r ∈ s.rows, _))

/-- A block has a row under its file, or its place is that of another block. -/
def Store.Settled (s : Store) (b : Block) : Prop :=
  (∃ r ∈ s.rows, r.block.identity = b.identity ∧ r.block.relativePath = some b.displayPath) ∨
    s.Clashes b

/-- From one view to another a provider was asked in some requests for the first blocks of a list
that are not held: in groups that are full but for the last one. -/
structure Asks (f : Faults) (k : Supply) (v : View) (bs : List Block) (calls : List ProviderCall)
    (v' : View) : Prop where
  requests : v'.requests.toList = v.requests.toList ++ calls
  texts : calls.flatMap (·.texts) <+: (v.store.missing [] bs).map (·.embeddingText)
  short : ∀ call ∈ calls, call.texts.length ≤ k.size
  full : ∀ call ∈ calls.dropLast, call.texts.length = k.size
  settled : (∀ i b, f i (.save b) = none) →
    ∀ b ∈ k.provider.paid v.requests.size calls (v.store.missing [] bs), v'.store.Settled b

variable {f : Faults} {k : Supply} {provider : Provider} {calls : List ProviderCall}
  {call : ProviderCall} {bs : List Block} {b : Block} {s s' : Store} {v v' v₁ : View}
  {p p' p₁ : Run.Progress} {group : List (Block × Option Vector)} {us : List Unit}

/-! ### The blocks that get vectors -/

namespace Provider

theorem paidBy_sublist (earlier : Nat) :
    (provider.paidBy earlier call bs).Sublist (bs.take call.texts.length) := by
  unfold paidBy
  split
  · exact map_fst_zip_sublist _ _
  · exact List.nil_sublist _

theorem paid_sublist (earlier : Nat) : (provider.paid earlier calls bs).Sublist bs := by
  induction calls generalizing earlier bs with
  | nil => exact List.nil_sublist _
  | cons call calls ih =>
    have hfirst : (provider.paidBy earlier call bs).Sublist (bs.take call.texts.length) :=
      paidBy_sublist earlier
    have hrest : (provider.paid (earlier + 1) calls (bs.drop call.texts.length)).Sublist
        (bs.drop call.texts.length) := ih (earlier + 1)
    have happend := hfirst.append hrest
    rwa [List.take_append_drop] at happend

theorem paid_concat (earlier : Nat) :
    provider.paid earlier (calls ++ [call]) bs = provider.paid earlier calls bs ++
      provider.paidBy (earlier + calls.length) call
        (bs.drop (calls.flatMap (·.texts)).length) := by
  induction calls generalizing earlier bs with
  | nil => simp [paid]
  | cons first calls ih =>
    have hcount : earlier + 1 + calls.length = earlier + (calls.length + 1) := by omega
    simp [paid, ih, List.drop_drop, hcount]

end Provider

/-! ### Groups -/

namespace Store

theorem Settled.mono (h : s.Settled b) (hs : s.rows ⊆ s'.rows) : s'.Settled b := by
  rcases h with ⟨r, hr, h⟩ | ⟨r, hr, h⟩
  · exact .inl ⟨r, hs hr, h⟩
  · exact .inr ⟨r, hs hr, h⟩

/-- A block that is not held is refused only because another block has its place. -/
theorem clashes_of_save?_eq_none {vec : Option Vector} {text : String}
    (h : s.save? b vec text = none) (hfree : s.holds b = false) : s.Clashes b := by
  have htaken : s.isTaken b = true := by
    by_contra hnot
    simp [save?, hnot] at h
  obtain ⟨r, hr, hfolded⟩ := List.any_eq_true.mp htaken
  refine ⟨r, hr, by simpa using hfolded, fun hi => ?_⟩
  rw [holds_iff.mpr ⟨r, hr, hi⟩] at hfree
  cases hfree

end Store

theorem Saved.settled {e : Block × Option Vector} (hsave : ∀ i b, f i (.save b) = none)
    (hopen : s.isClosed = false) (hfree : s.holds e.1 = false)
    (h : Saved f e (p, s) () (p', s')) : s'.isClosed = false ∧ s'.Settled e.1 := by
  cases h with
  | saved h =>
    obtain ⟨-, -, rfl⟩ := Store.save?_eq_some.mp h
    exact ⟨hopen, .inl ⟨_, List.mem_append_right _ (List.mem_singleton_self _), rfl, rfl⟩⟩
  | missed h =>
    have hnone := h.resolve_left (Store.not_refuses_of hopen fun i => hsave i _)
    exact ⟨hopen, .inr (Store.clashes_of_save?_eq_none hnone hfree)⟩

/-- If the store refuses no block of its own accord, all blocks of a group are settled. -/
theorem Each.settled (hsave : ∀ i b, f i (.save b) = none) (hopen : s.isClosed = false)
    (hdistinct : (group.map (·.1.identity)).Nodup) (hfree : ∀ e ∈ group, s.holds e.1 = false)
    (h : Each (Saved f) group (p, s) us (p', s')) : ∀ e ∈ group, s'.Settled e.1 := by
  induction group generalizing p s us with
  | nil => exact fun e he => nomatch he
  | cons e group ih =>
    obtain ⟨hnot, hdistinct⟩ := List.nodup_cons.mp hdistinct
    cases h with
    | @cons _ _ _ _ _ t _ head tail =>
      obtain ⟨hopen₁, hsettled⟩ := head.settled hsave hopen (hfree e List.mem_cons_self)
      have hfree₁ : ∀ e' ∈ group, t.2.holds e'.1 = false := head.rest_free hnot hfree
      intro e' he'
      rcases List.mem_cons.mp he' with rfl | he'
      · exact hsettled.mono tail.saved_mono.1
      · exact ih hopen₁ hdistinct hfree₁ tail e' he'

/-- Saving a group of seen blocks takes no other block off the list. -/
theorem Each.missing_eq {seen : List Identity} (hseen : ∀ e ∈ group, e.1.identity ∈ seen)
    (h : Each (Saved f) group (p, s) us (p', s')) : s'.missing seen bs = s.missing seen bs := by
  refine List.filter_congr fun d hd => ?_
  rw [h.holds_eq fun e he hi => not_mem_of_mem_firsts hd (hi ▸ hseen e he)]

namespace Stage

/-- A stage on the way: what was asked for, what waits and what is missing are the list, and a group
that is not full was the last. -/
structure Asked (f : Faults) (k : Supply) (v : View) (bs : List Block) (calls : List ProviderCall)
    (c : Stage) : Prop extends Asks f k v bs calls c.view where
  rest : c.progress.waiting ++ c.view.store.missing c.progress.seen c.todo =
    (v.store.missing [] bs).drop (calls.flatMap (·.texts)).length
  even : (c.todo = [] ∧ c.progress.waiting = []) ∨ ∀ call ∈ calls, call.texts.length = k.size

variable {c c' : Stage}

theorem asked_start (t : Tally) : Asked f k v bs [] ⟨bs, { tally := t }, v⟩ where
  requests := by simp
  texts := List.nil_prefix
  short := fun _ h => nomatch h
  full := fun _ h => nomatch h
  settled := fun _ _ h => nomatch h
  rest := rfl
  even := .inr fun _ h => nomatch h

/-- A step that asks for nothing. -/
theorem Asked.quiet (h : Asked f k v bs calls c) (hreq : c'.view.requests = c.view.requests)
    (hrows : c.view.store.rows ⊆ c'.view.store.rows) (htodo : c.todo ≠ [])
    (hrest : c'.progress.waiting ++ c'.view.store.missing c'.progress.seen c'.todo =
      c.progress.waiting ++ c.view.store.missing c.progress.seen c.todo) :
    Asked f k v bs calls c' where
  requests := hreq ▸ h.requests
  texts := h.texts
  short := h.short
  full := h.full
  settled := fun hsave b hb => (h.settled hsave b hb).mono hrows
  rest := hrest.trans h.rest
  even := .inr (h.even.resolve_left fun hnil => htodo hnil.1)

/-- A step that asks for the blocks that wait. -/
theorem Asked.ask (h : Asked f k v bs calls c) (hq : c.Queued (some k))
    (hwait : c.progress.waiting ≠ []) (hfull : k.size ≤ c.progress.waiting.length ∨ c.todo = [])
    (hreq : c'.view.requests = (k.after c.view c.progress.texts).requests)
    (hrows : c.view.store.rows ⊆ c'.view.store.rows) (htodo : c'.todo = c.todo)
    (hnone : c'.progress.waiting = [])
    (hmissing : c'.view.store.missing c'.progress.seen c'.todo =
      c.view.store.missing c.progress.seen c.todo)
    (hpaid : (∀ i b, f i (.save b) = none) → ∀ vs,
      (k.reply c.view c.progress.texts).vectors = .ok vs →
        ∀ b ∈ (c.progress.waiting.zip vs).map (·.1), c'.view.store.Settled b) :
    Asked f k v bs (calls ++ [k.call c.view c.progress.texts]) c' := by
  have hlen : c.progress.texts.length = c.progress.waiting.length := List.length_map _
  have heven : ∀ call ∈ calls, call.texts.length = k.size :=
    h.even.resolve_left fun hnil => hwait hnil.2
  have hroom : c.progress.waiting.length ≤ k.size := hq.room
  have hflat : (calls ++ [k.call c.view c.progress.texts]).flatMap (·.texts) =
      calls.flatMap (·.texts) ++ c.progress.texts := by
    simp [Supply.call]
  -- the blocks that wait are the next ones of the list
  have hdrop : (v.store.missing [] bs).drop (calls.flatMap (·.texts)).length =
      c.progress.waiting ++ c.view.store.missing c.progress.seen c.todo := h.rest.symm
  have htexts : calls.flatMap (·.texts) = ((v.store.missing [] bs).take
      (calls.flatMap (·.texts)).length).map (·.embeddingText) := by
    rw [List.map_take]
    exact List.prefix_iff_eq_take.mp h.texts
  have hlist : (v.store.missing [] bs).map (·.embeddingText) = calls.flatMap (·.texts) ++
      (c.progress.texts ++
        (c.view.store.missing c.progress.seen c.todo).map (·.embeddingText)) := by
    conv_lhs =>
      rw [← List.take_append_drop (calls.flatMap (·.texts)).length (v.store.missing [] bs)]
    rw [List.map_append, ← htexts, hdrop, List.map_append]
    rfl
  refine ⟨⟨?_, ?_, ?_, ?_, ?_⟩, ?_, ?_⟩
  · rw [hreq, Supply.after, Array.toList_push, h.requests, List.append_assoc]
    rfl
  · refine ⟨(c.view.store.missing c.progress.seen c.todo).map (·.embeddingText), ?_⟩
    rw [hflat, hlist, List.append_assoc]
  · intro call hcall
    rcases List.mem_append.mp hcall with hcall | hcall
    · exact h.short call hcall
    · rw [List.mem_singleton.mp hcall]
      exact hlen ▸ hroom
  · rwa [List.dropLast_concat]
  · intro hsave b hb
    rw [Provider.paid_concat, hdrop] at hb
    rcases List.mem_append.mp hb with hb | hb
    · exact (h.settled hsave b hb).mono hrows
    · have hsize : c.view.requests.size = v.requests.size + calls.length := by
        have := congrArg List.length h.requests
        simpa using this
      unfold Provider.paidBy at hb
      split at hb
      · next vs hvs =>
        have htake : (c.progress.waiting ++ c.view.store.missing c.progress.seen c.todo).take
            (k.call c.view c.progress.texts).texts.length = c.progress.waiting := by
          rw [show (k.call c.view c.progress.texts).texts.length = _ from hlen]
          exact List.take_left
        rw [htake] at hb
        refine hpaid hsave vs ?_ b hb
        rw [← hsize] at hvs
        exact hvs
      · cases hb
  · rw [hnone, hmissing, hflat, List.length_append, ← List.drop_drop, hdrop, hlen, List.drop_left]
    rfl
  · rcases hfull with hfull | hfull
    · right
      intro call hcall
      rcases List.mem_append.mp hcall with hcall | hcall
      · exact heven call hcall
      · rw [List.mem_singleton.mp hcall]
        exact hlen.trans (Nat.le_antisymm hroom hfull)
    · exact .inl ⟨htodo.trans hfull, hnone⟩

theorem Step.asked (hholds : ∀ i b, f i (.holds b) = none) (hq : c.Queued (some k))
    (h : Step f (some k) c c') (ha : Asked f k v bs calls c) :
    ∃ calls', Asked f k v bs calls' c' := by
  -- only the steps that come to a full group, or to the end of the list, ask
  cases h with
  | seen h =>
    refine ⟨calls, ha.quiet rfl (List.Subset.refl _) (List.cons_ne_nil _ _) ?_⟩
    simp [Store.missing, firsts_cons_of_mem h, Run.Progress.skip]
  | unread _ refused => exact absurd refused (Store.not_refuses_of hq.isOpen fun i => hholds i _)
  | held h held =>
    refine ⟨calls, ha.quiet rfl (List.Subset.refl _) (List.cons_ne_nil _ _) ?_⟩
    simp [Store.missing, firsts_cons_of_not_mem h, held, Run.Progress.see, Run.Progress.skip]
  | wait h free _ =>
    refine ⟨calls, ha.quiet rfl (List.Subset.refl _) (List.cons_ne_nil _ _) ?_⟩
    simp [Store.missing, firsts_cons_of_not_mem h, free, Run.Progress.see, Run.Progress.await]
  | @save as p p₁ p₂ w w₁ s group us waiting full filling saved =>
    have hfree := filling.group_free hq
    have hseen : ∀ e ∈ group, e.1.identity ∈ p.seen := fun e he =>
      hq.seen e.1 (filling.mem_waiting he)
    obtain ⟨hseen₁, hwait₁, -⟩ := filling.frame
    obtain ⟨hseen₂, hwait₂⟩ := saved.saved_frame
    have hrows := saved.saved_mono.1
    cases filling with
    | @vectors _ vs left reply =>
      refine ⟨_, ha.ask hq waiting full rfl hrows rfl (hwait₂.trans hwait₁) ?_ ?_⟩
      · rw [show p₂.seen = p.seen from hseen₂.trans hseen₁]
        exact saved.missing_eq hseen
      · intro hsave vs' hvs' b hb
        rw [reply] at hvs'
        cases hvs'
        obtain ⟨e, he, rfl⟩ := List.mem_map.mp hb
        exact saved.settled hsave hq.isOpen hfree.1 hfree.2 _ (List.mem_map_of_mem he)
  | lose waiting full hc left reply =>
    cases hc
    refine ⟨_, ha.ask hq waiting full rfl (List.Subset.refl _) rfl rfl rfl ?_⟩
    intro _ vs hvs
    rw [reply] at hvs
    cases hvs

/-- At the end of the list nothing is missing any more. -/
theorem Asked.texts_eq (h : Asked f k v bs calls c) (htodo : c.todo = [])
    (hwait : c.progress.waiting = []) :
    calls.flatMap (·.texts) = (v.store.missing [] bs).map (·.embeddingText) := by
  have hnil : (v.store.missing [] bs).drop (calls.flatMap (·.texts)).length = [] := by
    rw [← h.rest, hwait, htodo]
    rfl
  refine h.texts.eq_of_length_le ?_
  rw [List.length_map]
  exact List.drop_eq_nil_iff.mp hnil

theorem Ends.asks {r : Except Failure Run.Progress} (hq : c.Queued (some k))
    (h : Ends f (some k) c r v') (ha : Asked f k v bs calls c) :
    ∃ calls', Asks f k v bs calls' v' ∧ ∀ p, r = .ok p → p.tally.timedOut = false →
      calls'.flatMap (·.texts) = (v.store.missing [] bs).map (·.embeddingText) := by
  cases h with
  | done hwait => exact ⟨calls, ha.toAsks, fun _ _ _ => ha.texts_eq rfl hwait⟩
  | late _ _ _ _ _ =>
    refine ⟨calls, ha.toAsks, fun p hp htime => ?_⟩
    cases hp
    cases htime
  | large _ _ => exact ⟨calls, ha.toAsks, fun _ hp => nomatch hp⟩
  | @broken as p w _ e waiting full hc reply he =>
    cases hc
    have hask : Asked f k v bs (calls ++ [k.call w p.texts]) ⟨as, p.clear, k.after w p.texts⟩ := by
      refine ha.ask hq waiting full rfl (List.Subset.refl _) rfl rfl rfl fun _ vs hvs => ?_
      rw [reply] at hvs
      cases hvs
    exact ⟨_, hask.toAsks, fun _ hp => nomatch hp⟩

/-- Storing blocks asks for those that are not held, in their order and in full groups; if it comes
to its end in time it has asked for all. -/
theorem Stores.asks {t : Tally} {r : Except Failure Run.Progress}
    (hholds : ∀ i b, f i (.holds b) = none) (hopen : v.store.isClosed = false)
    (h : Stores f (some k) ⟨bs, { tally := t }, v⟩ r v') :
    ∃ calls, Asks f k v bs calls v' ∧ ∀ p, r = .ok p → p.tally.timedOut = false →
      calls.flatMap (·.texts) = (v.store.missing [] bs).map (·.embeddingText) := by
  obtain ⟨c, hrun, hend⟩ := h
  have hc : c.Queued (some k) ∧ ∃ calls, Asked f k v bs calls c := by
    clear hend
    induction hrun with
    | refl => exact ⟨queued_start t hopen, [], asked_start t⟩
    | tail _ hstep ih =>
      obtain ⟨hq, calls, ha⟩ := ih
      exact ⟨hstep.queued hq, hstep.asked hholds hq ha⟩
  obtain ⟨hq, calls, ha⟩ := hc
  exact hend.asks hq ha

end Stage

end BlockIndex
