import BlockIndex.Proofs.Number.Ticks
import BlockIndex.Proofs.Run.Change
import BlockIndex.Run.Saving
import Mathlib.Logic.Relation

/-! Storing blocks as a machine.  A stage holds the blocks still to look at, the progress and the
view. A step looks at one block, or saves or loses the group that waits; `Ends` says where the
machine stops and with what.  Storing without vectors is the case of groups of one that ask for
nothing. `wp_storeBlocks` says that storing blocks is a run of the machine followed by marking. -/

namespace BlockIndex

open Relation

/-- A provider, the time until which it is asked, and how many texts a request has. -/
structure Supply where
  provider : Provider
  deadline : Int
  size : Nat

namespace Supply

/-- What a request for texts brings. -/
def reply (c : Supply) (v : View) (texts : List String) : Reply :=
  c.provider v.requests.size texts (Ticks.left c.deadline v.clock)

/-- The view after a request for texts. -/
def after (c : Supply) (v : View) (texts : List String) : View :=
  { v with
    requests := v.requests.push ⟨texts, Ticks.left c.deadline v.clock⟩
    clock := v.clock + (c.reply v texts).cost }

/-- How many blocks wait before they are saved; without a supply none has to. -/
def room : Option Supply → Nat
  | none => 1
  | some c => c.size

end Supply

namespace Run.Progress

/-- A block was saved. -/
def stored (p : Progress) : Progress :=
  { p with tally := { p.tally with saved := p.tally.saved + 1 } }

/-- The store refused a block. -/
def miss (p : Progress) (b : Block) : Progress := { p with tally := p.tally.fail 1 }.fail b

/-- A block waits for its vector. -/
def await (p : Progress) (b : Block) : Progress := { p with waiting := p.waiting ++ [b] }

/-- No block waits any longer. -/
def clear (p : Progress) : Progress := { p with waiting := [] }

/-- Vectors came for the waiting blocks. -/
def deliver (p : Progress) (n : Nat) : Progress :=
  { p.clear with tally := { p.tally with generated := p.tally.generated + n } }

/-- The provider refused the waiting blocks. -/
def lose (p : Progress) : Progress :=
  { p.clear with tally := p.tally.fail p.waiting.length }.failAll p.waiting

/-- The texts of the waiting blocks. -/
def texts (p : Progress) : List String := p.waiting.map (·.embeddingText)

end Run.Progress

/-- What may become of saving a block with what there is for a vector. -/
inductive Saved (f : Faults) :
    Block × Option Vector → Run.Progress × Store → Unit → Run.Progress × Store → Prop
  | saved {b : Block} {vec : Option Vector} {p : Run.Progress} {s s' : Store} {id : Nat}
      (h : s.save? b vec b.embeddingText = some (id, s')) :
      Saved f (b, vec) (p, s) () (p.stored, s')
  | missed {b : Block} {vec : Option Vector} {p : Run.Progress} {s : Store}
      (h : s.Refuses f (.save b) ∨ s.save? b vec b.embeddingText = none) :
      Saved f (b, vec) (p, s) () (p.miss b, s)

/-- The blocks that are left when the deadline has passed: those of an identity not seen before that
are not known to be stored. -/
inductive Rest (f : Faults) (s : Store) : List Identity → List Block → List Block → Prop
  | nil {seen : List Identity} : Rest f s seen [] []
  | seen {seen : List Identity} {b : Block} {bs rest : List Block} (h : b.identity ∈ seen)
      (tail : Rest f s seen bs rest) : Rest f s seen (b :: bs) rest
  | held {seen : List Identity} {b : Block} {bs rest : List Block} (h : b.identity ∉ seen)
      (held : s.holds b = true) (tail : Rest f s (b.identity :: seen) bs rest) :
      Rest f s seen (b :: bs) rest
  | missing {seen : List Identity} {b : Block} {bs rest : List Block} (h : b.identity ∉ seen)
      (missing : s.holds b = false ∨ s.Refuses f (.holds b))
      (tail : Rest f s (b.identity :: seen) bs rest) : Rest f s seen (b :: bs) (b :: rest)

/-- The blocks to look at, how far storing has come, and what the world shows. -/
structure Stage where
  todo : List Block
  progress : Run.Progress
  view : View

namespace Stage

/-- What the waiting blocks are saved with, and the progress and view before they are saved. -/
inductive Filling (p : Run.Progress) (v : View) :
    Option Supply → List (Block × Option Vector) → Run.Progress → View → Prop
  | bare : Filling p v none (p.waiting.map fun b => (b, none)) p.clear v
  | vectors {c : Supply} {vs : List Vector} (left : 0 < c.deadline - v.clock)
      (reply : (c.reply v p.texts).vectors = .ok vs) :
      Filling p v (some c) ((p.waiting.zip vs).map fun e => (e.1, some e.2)) (p.deliver vs.length)
        (c.after v p.texts)

/-- A step of storing blocks. -/
inductive Step (f : Faults) (supply : Option Supply) : Stage → Stage → Prop
  | seen {b : Block} {bs : List Block} {p : Run.Progress} {v : View} (h : b.identity ∈ p.seen) :
      Step f supply ⟨b :: bs, p, v⟩ ⟨bs, p.skip, v⟩
  | unread {b : Block} {bs : List Block} {p : Run.Progress} {v : View} (h : b.identity ∉ p.seen)
      (refused : v.store.Refuses f (.holds b)) :
      Step f supply ⟨b :: bs, p, v⟩ ⟨bs, (p.see b).miss b, v⟩
  | held {b : Block} {bs : List Block} {p : Run.Progress} {v : View} (h : b.identity ∉ p.seen)
      (held : v.store.holds b = true) : Step f supply ⟨b :: bs, p, v⟩ ⟨bs, (p.see b).skip, v⟩
  | wait {b : Block} {bs : List Block} {p : Run.Progress} {v : View} (h : b.identity ∉ p.seen)
      (free : v.store.holds b = false) (room : p.waiting.length < Supply.room supply) :
      Step f supply ⟨b :: bs, p, v⟩ ⟨bs, (p.see b).await b, v⟩
  | save {bs : List Block} {p p₁ p₂ : Run.Progress} {v v₁ : View} {s : Store}
      {group : List (Block × Option Vector)} {us : List Unit} (waiting : p.waiting ≠ [])
      (full : Supply.room supply ≤ p.waiting.length ∨ bs = [])
      (filling : Filling p v supply group p₁ v₁)
      (saved : Each (Saved f) group (p₁, v₁.store) us (p₂, s)) :
      Step f supply ⟨bs, p, v⟩ ⟨bs, p₂, { v₁ with store := s }⟩
  | lose {bs : List Block} {p : Run.Progress} {v : View} {c : Supply} {e : ProviderError}
      (waiting : p.waiting ≠ []) (full : Supply.room supply ≤ p.waiting.length ∨ bs = [])
      (hc : supply = some c) (left : 0 < c.deadline - v.clock)
      (reply : (c.reply v p.texts).vectors = .error (.provider e)) :
      Step f supply ⟨bs, p, v⟩ ⟨bs, p.lose, c.after v p.texts⟩

/-- Where storing stops, with what, and what the world shows then. -/
inductive Ends (f : Faults) (supply : Option Supply) :
    Stage → Except Failure Run.Progress → View → Prop
  | done {p : Run.Progress} {v : View} (waiting : p.waiting = []) :
      Ends f supply ⟨[], p, v⟩ (.ok p) v
  | late {bs rest : List Block} {p : Run.Progress} {v : View} {c : Supply}
      (waiting : p.waiting ≠ []) (full : Supply.room supply ≤ p.waiting.length ∨ bs = [])
      (hc : supply = some c) (left : c.deadline - v.clock ≤ 0)
      (hrest : Rest f v.store p.seen bs rest) :
      Ends f supply ⟨bs, p, v⟩ (.ok (p.abandon (p.waiting ++ rest))) v
  | large {bs : List Block} {p : Run.Progress} {v : View} {b : Block} (hb : b ∈ bs)
      (h : ¬b.span.last < StoreCall.limit) : Ends f supply ⟨bs, p, v⟩ (.error .tooLarge) v
  /-- The provider fails in a way that is not foreseen. -/
  | broken {bs : List Block} {p : Run.Progress} {v : View} {c : Supply} {e : ServiceError}
      (waiting : p.waiting ≠ []) (full : Supply.room supply ≤ p.waiting.length ∨ bs = [])
      (hc : supply = some c) (reply : (c.reply v p.texts).vectors = .error e)
      (he : ∀ pe, e ≠ .provider pe) :
      Ends f supply ⟨bs, p, v⟩ (.error (.service e)) (c.after v p.texts)

/-- Storing goes from a stage to an outcome. -/
def Stores (f : Faults) (supply : Option Supply) (c : Stage) (r : Except Failure Run.Progress)
    (v : View) : Prop :=
  ∃ c', ReflTransGen (Step f supply) c c' ∧ Ends f supply c' r v

theorem Stores.head {f : Faults} {supply : Option Supply} {c c' : Stage}
    {r : Except Failure Run.Progress} {v : View} (h : Step f supply c c')
    (h' : Stores f supply c' r v) : Stores f supply c r v :=
  ⟨h'.choose, ReflTransGen.head h h'.choose_spec.1, h'.choose_spec.2⟩

theorem Stores.of_ends {f : Faults} {supply : Option Supply} {c : Stage}
    {r : Except Failure Run.Progress} {v : View} (h : Ends f supply c r v) :
    Stores f supply c r v :=
  ⟨c, .refl, h⟩

end Stage

/-! ### The run is a run of the machine -/

namespace Run

variable {f : Faults} {v : View}

theorem wp_request {c : Supply} {texts : List String} {Q : Except Failure Delivery → View → Prop}
    (late : c.deadline - v.clock ≤ 0 → Q (.ok .late) v)
    (refused : 0 < c.deadline - v.clock → ∀ e, (c.reply v texts).vectors = .error (.provider e) →
      Q (.ok .refused) (c.after v texts))
    (broken : ∀ e, (c.reply v texts).vectors = .error e → (∀ pe, e ≠ .provider pe) →
      Q (.error (.service e)) (c.after v texts))
    (vectors : 0 < c.deadline - v.clock → ∀ vs, (c.reply v texts).vectors = .ok vs →
      Q (.ok (.vectors vs)) (c.after v texts)) :
    wp f (request c.provider c.deadline texts) Q v := by
  refine wp_bind (wp_clock ?_)
  show wp f (if Ticks.left c.deadline v.clock ≤ 0 then _ else _) Q v
  split
  · exact wp_pure (late (Ticks.left_nonpos_iff.mp ‹_›))
  · next hleft =>
    have hleft : 0 < c.deadline - v.clock := Ticks.left_pos_iff.mp (by omega)
    have hsend : ∀ Q : Except Failure (Except ServiceError (List Vector)) → View → Prop,
        Q (.ok (c.reply v texts).vectors) (c.after v texts) →
          wp f (send c.provider texts (Ticks.left c.deadline v.clock)) Q v := by
      rintro Q h w rfl rfl
      exact ⟨rfl, h⟩
    refine wp_bind (hsend _ ?_)
    cases hr : (c.reply v texts).vectors with
    | ok vs => exact wp_pure (vectors hleft vs hr)
    | error e =>
      cases e with
      | provider e => exact wp_bind (wp_warn (wp_pure (refused hleft e hr)))
      | _ => exact wp_throw (broken _ hr fun pe h => nomatch h)

theorem wp_saveOne {b : Block} {vec : Option Vector} {p : Progress}
    {Q : Except Failure Progress → View → Prop} (hb : b.span.last < StoreCall.limit)
    (h : ∀ p' s', Saved f (b, vec) (p, v.store) () (p', s') → Q (.ok p') { v with store := s' }) :
    wp f (saveOne b vec p) Q v := by
  refine wp_bind (wp_attempt (wp_save (fun hr e => ?_) (fun hl => absurd hb hl) fun id s hs => ?_))
  · exact wp_bind (wp_warn (wp_pure (h _ _ (.missed hr))))
  · exact wp_pure (h _ _ (.saved hs))

theorem wp_saveGroup {group : List (Block × Vector)} {p : Progress}
    {Q : Except Failure Progress → View → Prop} (hb : ∀ e ∈ group, e.1.span.last < StoreCall.limit)
    (h : ∀ us p' s', Each (Saved f) (group.map fun e => (e.1, some e.2)) (p, v.store) us (p', s') →
      Q (.ok p') { v with store := s' }) :
    wp f (saveGroup group p) Q v := by
  induction group generalizing p v Q with
  | nil => exact wp_pure (h _ _ _ .nil)
  | cons e group ih =>
    refine wp_bind (wp_saveOne (hb _ (by simp)) fun p' s' hs => ?_)
    exact ih (fun e he => hb e (by simp [he])) fun us p'' s'' hg => h _ _ _ (.cons hs hg)

theorem wp_unstored {seen : List Identity} {bs : List Block}
    {Q : Except Failure (List Block) → View → Prop}
    (large : ∀ b ∈ bs, ¬b.span.last < StoreCall.limit → Q (.error .tooLarge) v)
    (h : ∀ rest, Rest f v.store seen bs rest → Q (.ok rest) v) :
    wp f (unstored seen bs) Q v := by
  induction bs generalizing seen Q with
  | nil => exact wp_pure (h _ .nil)
  | cons b bs ih =>
    have large' := fun b' hb' => large b' (List.mem_cons_of_mem b hb')
    unfold unstored
    split
    · next hseen => exact ih large' fun rest hr => h _ (.seen (by simpa using hseen) hr)
    · next hseen =>
      have hseen : b.identity ∉ seen := by simpa using hseen
      refine wp_bind (wp_attempt (wp_holds (fun hf e => ?_) (large b (by simp)) fun _ => ?_))
      · exact wp_bind (wp_warn (wp_bind (ih large' fun rest hr =>
          wp_pure (h _ (.missing hseen (.inr hf) hr)))))
      · cases hh : v.store.holds b with
        | true => exact ih large' fun rest hr => h _ (.held hseen hh hr)
        | false => exact wp_bind (ih large' fun rest hr =>
            wp_pure (h _ (.missing hseen (.inl hh) hr)))

open Stage

theorem wp_storeDeferred {bs : List Block} {p : Progress}
    {Q : Except Failure Progress → View → Prop} (hp : p.waiting = [])
    (h : ∀ r v', Stores f none ⟨bs, p, v⟩ r v' → Q r v') :
    wp f (storeDeferred bs p) Q v := by
  induction bs generalizing p v Q with
  | nil => exact wp_pure (h _ _ (.of_ends (.done hp)))
  | cons b bs ih =>
    unfold storeDeferred
    split
    · next hseen => exact ih hp fun r v' hs => h r v' (.head (.seen (by simpa using hseen)) hs)
    · next hseen =>
      have hseen : b.identity ∉ p.seen := by simpa using hseen
      refine wp_bind (wp_attempt (wp_holds (fun hf e => ?_) (fun hl => ?_) fun hl => ?_))
      · exact wp_bind (wp_warn (ih hp fun r v' hs => h r v' (.head (.unread hseen hf) hs)))
      · exact h _ _ (.of_ends (.large (by simp) hl))
      · cases hh : v.store.holds b with
        | true => exact ih hp fun r v' hs => h r v' (.head (.held hseen hh) hs)
        | false =>
          refine wp_bind (wp_saveOne hl fun p' s' hs => ?_)
          have hclear : ((p.see b).await b).clear = p.see b := by
            cases p
            simp_all [Progress.see, Progress.await, Progress.clear]
          have hwait : ((p.see b).await b).waiting = [b] := by
            simp [Progress.await, Progress.see, hp]
          have hp' : p'.waiting = [] := by cases hs <;> exact hp
          have hroom : p.waiting.length < Supply.room none := by simp [hp, Supply.room]
          refine ih hp' fun r v' hst => h r v' (.head (.wait hseen hh hroom) ?_)
          have hgroup : Each (Saved f) (((p.see b).await b).waiting.map fun b => (b, none))
              (((p.see b).await b).clear, v.store) [()] (p', s') := by
            rw [hwait, hclear]
            exact .cons hs .nil
          have hfull : Supply.room none ≤ ((p.see b).await b).waiting.length := by
            simp [hwait, Supply.room]
          exact .head (.save (by simp [hwait]) (.inl hfull) .bare hgroup) hst

/-- What may become of a group: the deadline has passed, the group is lost, or it is saved. -/
theorem wp_flush {c : Supply} (bs : List Block) {p : Progress}
    {Q : Except Failure (Option Progress) → View → Prop}
    (hb : ∀ b ∈ p.waiting, b.span.last < StoreCall.limit)
    (waiting : p.waiting ≠ []) (full : c.size ≤ p.waiting.length ∨ bs = [])
    (late : c.deadline - v.clock ≤ 0 → Q (.ok none) v)
    (broken : ∀ e v', Ends f (some c) ⟨bs, p, v⟩ (.error e) v' → Q (.error e) v')
    (step : ∀ p' v', p'.waiting = [] → Step f (some c) ⟨bs, p, v⟩ ⟨bs, p', v'⟩ →
      Q (.ok (some p')) v') :
    wp f (flush c.provider c.deadline p) Q v := by
  refine wp_bind (wp_request (fun hl => wp_pure (late hl)) (fun left e hr => ?_)
    (fun e hr he => ?_) fun left vs hr => ?_)
  · exact wp_pure (step _ _ rfl (.lose waiting full rfl left hr))
  · exact broken _ _ (.broken waiting full rfl hr he)
  · refine wp_bind (wp_saveGroup (fun e he => hb _ (List.of_mem_zip he).1) fun us p' s' hs => ?_)
    refine wp_pure (step _ _ ?_ (.save waiting full (.vectors left hr) hs))
    refine hs.keeps (I := fun t => t.1.waiting = []) (fun e _ t _ t' ht hw => ?_) rfl
    cases ht <;> exact hw

theorem wp_storeCombined {ix : Indexer} {c : Supply} {bs : List Block} {p : Progress}
    {Q : Except Failure Progress → View → Prop} (hsize : c.size = ix.groupSize)
    (hp : ∀ b ∈ p.waiting, b.span.last < StoreCall.limit) (hroom : p.waiting.length < c.size)
    (h : ∀ r v', Stores f (some c) ⟨bs, p, v⟩ r v' → Q r v') :
    wp f (storeCombined ix c.provider c.deadline bs p) Q v := by
  induction bs generalizing p v Q with
  | nil =>
    unfold storeCombined
    split
    · next hw => exact wp_pure (h _ _ (.of_ends (.done (by simpa using hw))))
    · next hw =>
      have hw : p.waiting ≠ [] := by simpa using hw
      refine wp_bind (wp_flush [] hp hw (.inr rfl) (fun hl => ?_) (fun e v' he => ?_)
        fun p' v' hp' hs => ?_)
      · refine wp_bind (wp_warn (wp_pure ?_))
        have := h _ _ (.of_ends (.late hw (.inr rfl) rfl hl .nil))
        rwa [List.append_nil] at this
      · exact h _ _ (.of_ends he)
      · exact wp_pure (h _ _ (.head hs (.of_ends (.done hp'))))
  | cons b bs ih =>
    unfold storeCombined
    split
    · next hseen =>
      exact ih hp hroom fun r v' hs => h r v' (.head (.seen (by simpa using hseen)) hs)
    · next hseen =>
      have hseen : b.identity ∉ p.seen := by simpa using hseen
      refine wp_bind (wp_attempt (wp_holds (fun hf e => ?_) (fun hl => ?_) fun hl => ?_))
      · exact wp_bind (wp_warn (ih hp hroom fun r v' hs => h r v' (.head (.unread hseen hf) hs)))
      · exact h _ _ (.of_ends (.large (by simp) hl))
      · cases hh : v.store.holds b with
        | true => exact ih hp hroom fun r v' hs => h r v' (.head (.held hseen hh) hs)
        | false =>
          have hfit : ∀ b' ∈ ((p.see b).await b).waiting, b'.span.last < StoreCall.limit := by
            simp only [Progress.await, Progress.see, List.mem_append, List.mem_singleton]
            rintro b' (hb' | rfl)
            · exact hp b' hb'
            · exact hl
          have hstep : Step f (some c) ⟨b :: bs, p, v⟩ ⟨bs, (p.see b).await b, v⟩ :=
            .wait hseen hh hroom
          show wp f (if ((p.see b).await b).waiting.length < ix.groupSize then _ else _) Q v
          split
          · next hlt =>
            exact ih hfit (by rwa [hsize]) fun r v' hs => h r v' (.head hstep hs)
          · next hge =>
            have hw : ((p.see b).await b).waiting ≠ [] := by simp [Progress.await]
            have hfull : c.size ≤ ((p.see b).await b).waiting.length := by omega
            refine wp_bind (wp_flush bs hfit hw (.inl hfull) (fun hl => ?_) (fun e v' he => ?_)
              fun p' v' hp' hs => ?_)
            · refine wp_bind (wp_unstored (fun b' hb' hl' => ?_) fun rest hr => ?_)
              · exact h _ _ (.head hstep (.of_ends (.large hb' hl')))
              · exact wp_bind (wp_warn (wp_pure
                  (h _ _ (.head hstep (.of_ends (.late hw (.inl hfull) rfl hl hr))))))
            · exact h _ _ (.head hstep (.of_ends he))
            · refine ih (by simp [hp']) (by simpa [hp', hsize] using ix.groupSize_pos) ?_
              exact fun r v'' hs' => h r v'' (.head hstep (.head hs hs'))

/-- The supply of an indexer from a time on. -/
def supplyAt (ix : Indexer) (deferred : Bool) (clock : Int) : Option Supply :=
  if deferred then none
  else ix.provider.map fun p => ⟨p, Ticks.deadline clock ix.timeout, ix.groupSize⟩

theorem provider_of_supplyAt {ix : Indexer} {deferred : Bool} {clock : Int} {c : Supply}
    (h : supplyAt ix deferred clock = some c) : ix.provider = some c.provider := by
  cases deferred with
  | true => cases h
  | false =>
    obtain ⟨p, hp, rfl⟩ := Option.map_eq_some_iff.mp h
    exact hp

/-- Storing blocks is a run of the machine, after which the files of the blocks that could not be
stored are marked. -/
theorem wp_storeBlocks {ix : Indexer} {deferred : Bool} {bs : List Block} {t : Tally}
    {Q : Except Failure Tally → View → Prop}
    (noProvider : deferred = false → ix.provider = none → Q (.error (.setup .noProvider)) v)
    (failed : ∀ e v',
      Stores f (supplyAt ix deferred v.clock) ⟨bs, { tally := t }, v⟩ (.error e) v' → Q (.error e) v')
    (done : ∀ p v' marks s',
      Stores f (supplyAt ix deferred v.clock) ⟨bs, { tally := t }, v⟩ (.ok p) v' →
      Each (Marked f) (sortedOnce p.failed) v'.store marks s' →
        Q (.ok p.tally) { v' with store := s' }) :
    wp f (storeBlocks ix deferred bs t) Q v := by
  have hmark : ∀ r v', Stores f (supplyAt ix deferred v.clock) ⟨bs, { tally := t }, v⟩ r v' →
      andThen f (fun p => markForRetry p.failed >>= fun _ => pure p.tally) Q r v' := by
    intro r v' hs
    cases r with
    | error e => exact failed e v' hs
    | ok p => exact wp_bind (wp_markEach fun gone marks s' he => wp_pure (done p v' marks s' hs he))
  unfold storeBlocks
  cases deferred with
  | true => exact wp_bind (wp_storeDeferred rfl hmark)
  | false =>
    cases hp : ix.provider with
    | none => exact wp_throw (noProvider rfl hp)
    | some provider =>
      refine wp_bind (wp_clock (wp_bind ?_))
      let c : Supply := ⟨provider, Ticks.deadline v.clock ix.timeout, ix.groupSize⟩
      refine wp_storeCombined (c := c) rfl (by simp) ix.groupSize_pos ?_
      simpa [supplyAt, hp] using hmark

end Run

end BlockIndex
