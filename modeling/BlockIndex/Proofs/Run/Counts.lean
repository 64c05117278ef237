import BlockIndex.Proofs.Run.Detection
import BlockIndex.Proofs.Run.Stored
import Mathlib.Data.List.Basic

/-! What the numbers of storing count.  Each block is counted once: as stored already, as saved or as
an error; only when the time is over some are left out (`Stage.Counts`).  A block is counted as saved
exactly if a row was added for it.  A world notes the calls that the store refuses, and so how many
saves (`World.refusedSaves`); `Run.Tracks` follows this number through a run. -/

namespace BlockIndex

open Relation

variable {f : Faults} {supply : Option Supply} {p p' p₁ : Run.Progress} {v v' v₁ : View}
  {group : List (Block × Option Vector)} {bs : List Block} {n rows : Nat}

/-! ### Each block once -/

/-- Saving counts a block as saved, and adds a row, or counts it as an error. -/
theorem Saved.counts {e : Block × Option Vector} {t t' : Run.Progress × Store}
    (h : Saved f e t () t') :
    t'.1.tally.existing = t.1.tally.existing ∧ t'.1.tally.timedOut = t.1.tally.timedOut ∧
      t'.1.tally.saved + t'.1.tally.errors = t.1.tally.saved + t.1.tally.errors + 1 ∧
      t'.2.rows.length + t.1.tally.saved = t.2.rows.length + t'.1.tally.saved := by
  cases h with
  | @saved b vec p s s' id h =>
    obtain ⟨-, -, rfl⟩ := Store.save?_eq_some.mp h
    refine ⟨rfl, rfl, ?_, ?_⟩
    · simp only [Run.Progress.stored]
      omega
    · simp only [Run.Progress.stored, List.length_append, List.length_singleton]
      omega
  | missed _ => exact ⟨rfl, rfl, rfl, rfl⟩

theorem Each.saved_counts {us : List Unit} {t t' : Run.Progress × Store}
    (h : Each (Saved f) group t us t') :
    t'.1.tally.existing = t.1.tally.existing ∧ t'.1.tally.timedOut = t.1.tally.timedOut ∧
      t'.1.tally.saved + t'.1.tally.errors =
        t.1.tally.saved + t.1.tally.errors + group.length ∧
      t'.2.rows.length + t.1.tally.saved = t.2.rows.length + t'.1.tally.saved := by
  induction h with
  | nil => exact ⟨rfl, rfl, rfl, rfl⟩
  | cons head _ ih =>
    obtain ⟨hexisting, htime, hsum, hrows⟩ := head.counts
    obtain ⟨hexisting', htime', hsum', hrows'⟩ := ih
    refine ⟨hexisting'.trans hexisting, htime'.trans htime, ?_, ?_⟩
    · rw [List.length_cons]
      omega
    · omega

namespace Stage

theorem Filling.length_eq (hcount : ∀ c, supply = some c → c.provider.KeepsCount)
    (h : Filling p v supply group p₁ v₁) : group.length = p.waiting.length := by
  cases h with
  | bare => simp
  | vectors _ reply =>
    have hlen := hcount _ rfl _ _ _ _ reply
    rw [Run.Progress.texts, List.length_map] at hlen
    rw [List.length_map, List.length_zip]
    omega

theorem Filling.counts (h : Filling p v supply group p₁ v₁) :
    p₁.tally.existing = p.tally.existing ∧ p₁.tally.saved = p.tally.saved := by
  cases h <;> exact ⟨rfl, rfl⟩

/-- Of `n` blocks each is counted once, or it waits or is still to look at, and there are as many
new rows as blocks counted as saved. -/
structure Counts (n rows : Nat) (c : Stage) : Prop where
  blocks : c.progress.tally.existing + c.progress.tally.saved + c.progress.tally.errors +
    c.progress.waiting.length + c.todo.length = n
  rows : c.view.store.rows.length = rows + c.progress.tally.saved
  inTime : c.progress.tally.timedOut = false

theorem Step.counts {c c' : Stage} (hcount : ∀ k, supply = some k → k.provider.KeepsCount)
    (h : Step f supply c c') (hc : c.Counts n rows) : c'.Counts n rows := by
  obtain ⟨hblocks, hrows, htime⟩ := hc
  cases h with
  | seen _ =>
    refine ⟨?_, hrows, htime⟩
    simp only [Run.Progress.skip, List.length_cons] at hblocks ⊢
    omega
  | unread _ _ =>
    refine ⟨?_, hrows, htime⟩
    simp only [Run.Progress.miss, Run.Progress.fail, Run.Progress.see, Tally.fail,
      List.length_cons] at hblocks ⊢
    omega
  | held _ _ =>
    refine ⟨?_, hrows, htime⟩
    simp only [Run.Progress.skip, Run.Progress.see, List.length_cons] at hblocks ⊢
    omega
  | wait _ _ _ =>
    refine ⟨?_, hrows, htime⟩
    simp only [Run.Progress.await, Run.Progress.see, List.length_cons, List.length_append,
      List.length_nil] at hblocks ⊢
    omega
  | save _ _ filling saved =>
    have hlen := filling.length_eq hcount
    have hstore := filling.store_eq
    obtain ⟨hexisting, hsaved⟩ := filling.counts
    obtain ⟨-, hwait, -, herrors, htime₁⟩ := filling.frame
    obtain ⟨hexisting₂, htime₂, hsum, hrows₂⟩ := saved.saved_counts
    obtain ⟨-, hwait₂⟩ := saved.saved_frame
    simp only [hstore] at *
    refine ⟨?_, ?_, htime₂.trans (htime₁.trans htime)⟩
    · simp only [hwait₂, hwait, List.length_nil]
      omega
    · simp only
      omega
  | lose _ _ _ _ _ =>
    refine ⟨?_, hrows, htime⟩
    simp only [Run.Progress.lose, Run.Progress.clear, Run.Progress.failAll, Tally.fail,
      List.length_nil] at hblocks ⊢
    omega

/-- When storing comes to its end each block is counted once, except that some are left out if the
time is over. -/
theorem Stores.counts (hcount : ∀ c, supply = some c → c.provider.KeepsCount)
    (h : Stores f supply ⟨bs, { tally := {} }, v⟩ (.ok p) v') :
    (p.tally.timedOut = false →
      p.tally.existing + p.tally.saved + p.tally.errors = bs.length) ∧
    (p.tally.timedOut = true →
      p.tally.existing + p.tally.saved + p.tally.errors < bs.length) ∧
    v'.store.rows.length = v.store.rows.length + p.tally.saved := by
  obtain ⟨c, hrun, hend⟩ := h
  have hc : c.Counts bs.length v.store.rows.length := by
    clear hend
    induction hrun with
    | refl => exact ⟨by simp, by simp, rfl⟩
    | tail _ hstep ih => exact hstep.counts hcount ih
  obtain ⟨hblocks, hrows, htime⟩ := hc
  cases hend with
  | done hwait =>
    simp only [hwait, List.length_nil] at hblocks
    exact ⟨fun _ => hblocks, fun ht => absurd (ht.symm.trans htime) Bool.noConfusion, hrows⟩
  | late hwait _ _ _ _ =>
    have hpos := List.length_pos_iff.mpr hwait
    refine ⟨fun ht => ?_, fun _ => ?_, hrows⟩
    · cases ht
    · simp only [Run.Progress.abandon, Run.Progress.failAll] at hblocks ⊢
      omega

end Stage

/-! ### Refused saves -/

def StoreCall.isSave : StoreCall → Bool
  | .save _ => true
  | _ => false

/-- How many saves the store has refused. -/
def World.refusedSaves (w : World) : Nat := w.refused.countP StoreCall.isSave

namespace Run

variable {α β : Type}

/-- Whatever comes of a run, no save is refused in it. -/
def Spares (x : Run α) : Prop := ∀ w, (outcome x w).2.refusedSaves = w.refusedSaves

/-- If `pre` holds of the number of saves refused up to now, and the run gives a result, `post` holds
of the result and of that number then. -/
def Tracks (pre : Nat → Prop) (x : Run α) (post : α → Nat → Prop) : Prop :=
  ∀ w a, pre w.refusedSaves → (outcome x w).1 = .ok a → post a (outcome x w).2.refusedSaves

theorem refusedSaves_call (c : StoreCall) (act : Store → Except StoreError (α × Store)) (w : World) :
    (outcome (call c act) w).2.refusedSaves = w.refusedSaves +
      match (outcome (call c act) w).1 with
      | .error (.store _) => c.isSave.toNat
      | _ => 0 := by
  have hpush : (w.refused.push c).countP StoreCall.isSave =
      w.refused.countP StoreCall.isSave + c.isSave.toNat := by
    rw [Array.countP_push]
    cases c.isSave <;> rfl
  rw [outcome_call]
  dsimp only
  split
  · exact hpush
  · split
    · exact hpush
    · split
      · rfl
      · split
        · exact hpush
        · rfl

namespace Spares

variable {x : Run α} {g : α → Run β}

theorem pure (a : α) : Spares (Pure.pure a) := fun _ => rfl

theorem throw (e : Failure) : Spares (throw e : Run α) := fun _ => rfl

theorem bind (hx : Spares x) (hg : ∀ a, Spares (g a)) : Spares (x >>= g) := by
  intro w
  have hw := hx w
  rw [outcome_bind]
  cases ho : outcome x w with
  | mk r w' =>
    rw [ho] at hw
    cases r with
    | error e => exact hw
    | ok a => exact (hg a w').trans hw

theorem attempt (hx : Spares x) : Spares (attempt x) := by
  intro w
  have hw := hx w
  rw [outcome_attempt]
  cases ho : outcome x w with
  | mk r w' =>
    rw [ho] at hw
    cases r with
    | ok a => exact hw
    | error e => cases e <;> exact hw

theorem log (l : LogLine) : Spares (log l) := fun _ => rfl

theorem clock : Spares clock := fun _ => rfl

theorem call {c : StoreCall} (hc : c.isSave = false)
    (act : Store → Except StoreError (α × Store)) : Spares (call c act) := by
  intro w
  have hw := refusedSaves_call c act w
  rw [hc] at hw
  split at hw <;> exact hw

theorem fingerprint (path : String) : Spares (fingerprint path) := by
  unfold Run.fingerprint Run.ask
  exact call rfl _

theorem setFingerprint (path text : String) : Spares (setFingerprint path text) :=
  call (c := .setFingerprint path text) rfl _

theorem holds (b : Block) : Spares (holds b) := by
  unfold Run.holds Run.ask
  exact call rfl _

theorem tracks {pre : Nat → Prop} (hx : Spares x) : Tracks pre x fun _ => pre := by
  intro w a hpre _
  rw [hx w]
  exact hpre

theorem mark (file : String) : Spares (mark file) := by
  refine (fingerprint file).bind fun stored => ?_
  cases stored with
  | none => exact pure false
  | some text =>
    dsimp only
    split
    · exact pure false
    · exact (setFingerprint _ _).bind fun _ => pure true

theorem markEach (files : List String) : Spares (markEach files) := by
  induction files with
  | nil => exact pure []
  | cons file files ih =>
    refine (mark file).attempt.bind fun r => ?_
    cases r with
    | error e => exact (log _).bind fun _ => ih
    | ok put =>
      cases put with
      | false => exact ih
      | true => exact (log _).bind fun _ => ih.bind fun _ => pure _

theorem unstored (seen : List Identity) (bs : List Block) : Spares (unstored seen bs) := by
  induction bs generalizing seen with
  | nil => exact pure []
  | cons b bs ih =>
    unfold Run.unstored
    split
    · exact ih seen
    · refine (holds b).attempt.bind fun r => ?_
      cases r with
      | error e => exact (log _).bind fun _ => (ih _).bind fun _ => pure _
      | ok held =>
        cases held with
        | true => exact ih _
        | false => exact (ih _).bind fun _ => pure _

end Spares

namespace Tracks

variable {pre : Nat → Prop} {m : α → Nat → Prop} {post : β → Nat → Prop} {x : Run α}
  {g : α → Run β}

theorem pure {b : β} (h : ∀ n, pre n → post b n) : Tracks pre (Pure.pure b) post := by
  intro w a hpre ha
  cases ha
  exact h _ hpre

theorem throw (e : Failure) : Tracks pre (throw e) post := by
  intro w a _ ha
  cases ha

theorem bind (hx : Tracks pre x m) (hg : ∀ a, Tracks (m a) (g a) post) :
    Tracks pre (x >>= g) post := by
  intro w b hpre hb
  rw [outcome_bind] at hb ⊢
  cases ho : outcome x w with
  | mk r w' =>
    rw [ho] at hb
    cases r with
    | error e => cases hb
    | ok a =>
      have hmid := hx w a hpre (congrArg Prod.fst ho)
      rw [ho] at hmid
      exact hg a w' b hmid hb

/-- A part that refuses no save does not count. -/
theorem after (hx : Spares x) (hg : ∀ a, Tracks pre (g a) post) : Tracks pre (x >>= g) post :=
  hx.tracks.bind hg

theorem attempt_save {b : Block} {vec : Option Vector} {text : String} :
    Tracks pre (attempt (save b vec text)) fun r n =>
      match r with
      | .ok _ => pre n
      | .error _ => ∃ m, n = m + 1 ∧ pre m := by
  intro w r hpre hr
  have hw : (outcome (save b vec text) w).2.refusedSaves = _ := refusedSaves_call _ _ w
  rw [outcome_attempt] at hr ⊢
  generalize ho : outcome (save b vec text) w = o at hr hw ⊢
  obtain ⟨a, w'⟩ := o
  have hfst : (outcome (save b vec text) w).1 = a := congrArg Prod.fst ho
  rw [save] at hfst
  rw [hfst] at hw
  cases a with
  | ok id =>
    cases hr
    dsimp only at hw ⊢
    rwa [hw]
  | error e =>
    cases e with
    | store e =>
      cases hr
      exact ⟨_, hw, hpre⟩
    | _ => cases hr

end Tracks

/-- Since a number of saves was refused, the vectors that came were saved with blocks or refused with
them, but for `k` of them. -/
def Used (start k : Nat) (p : Progress) (n : Nat) : Prop :=
  start ≤ n ∧ start + p.tally.generated = n + p.tally.saved + k

section Used

variable {ix : Indexer} {provider : Provider} {deadline : Int} {p p' : Progress} {start k : Nat}

theorem used_congr (hgenerated : p'.tally.generated = p.tally.generated)
    (hsaved : p'.tally.saved = p.tally.saved) : Used start k p' = Used start k p := by
  unfold Used
  rw [hgenerated, hsaved]

theorem used_saveOne {b : Block} {vec : Option Vector} :
    Tracks (Used start (k + 1) p) (saveOne b vec p) (Used start k) := by
  refine Tracks.attempt_save.bind fun r => ?_
  cases r with
  | error e =>
    refine Tracks.after (.log _) fun _ => Tracks.pure ?_
    rintro n ⟨m, rfl, hle, hused⟩
    refine ⟨by omega, ?_⟩
    simp only [Progress.fail, Tally.fail]
    omega
  | ok id =>
    refine Tracks.pure ?_
    rintro n ⟨hle, hused⟩
    refine ⟨hle, ?_⟩
    dsimp only
    omega

theorem used_saveGroup {group : List (Block × Vector)} :
    Tracks (Used start group.length p) (saveGroup group p) (Used start 0) := by
  induction group generalizing p with
  | nil => exact Tracks.pure fun _ h => h
  | cons e group ih => exact used_saveOne.bind fun _ => ih

/-- A request refuses no save, and brings a vector for each text if it brings any. -/
theorem tracks_request (hcount : provider.KeepsCount) {texts : List String} {pre : Nat → Prop} :
    Tracks pre (request provider deadline texts) fun d n =>
      pre n ∧ ∀ vs, d = .vectors vs → vs.length = texts.length := by
  refine Tracks.after .clock fun now => ?_
  show Tracks pre (if Ticks.left deadline now ≤ 0 then _ else _) _
  split
  · exact Tracks.pure fun _ h => ⟨h, fun vs hvs => nomatch hvs⟩
  · have hsend : Tracks pre (send provider texts (Ticks.left deadline now)) fun r n =>
        pre n ∧ ∀ vs, r = .ok vs → vs.length = texts.length := by
      intro w r hpre hr
      cases hr
      exact ⟨hpre, hcount _ _ _⟩
    refine hsend.bind fun r => ?_
    cases r with
    | ok vs =>
      refine Tracks.pure fun n h => ⟨h.1, fun vs' hvs => ?_⟩
      cases hvs
      exact h.2 vs rfl
    | error e =>
      cases e with
      | provider e =>
        exact Tracks.after (.log _) fun _ => Tracks.pure fun _ h => ⟨h.1, fun vs hvs => nomatch hvs⟩
      | _ => exact Tracks.throw _

theorem used_flush (hcount : provider.KeepsCount) :
    Tracks (Used start 0 p) (flush provider deadline p) fun o n =>
      match o with
      | some p' => Used start 0 p' n
      | none => Used start 0 p n := by
  refine (tracks_request hcount).bind fun d => ?_
  cases d with
  | late => exact Tracks.pure fun _ h => h.1
  | refused => exact Tracks.pure fun _ h => h.1
  | vectors vs =>
    refine Tracks.bind (m := Used start 0) ?_ fun p' => Tracks.pure fun _ h => h
    intro w p' h hp'
    refine used_saveGroup w p' ⟨h.1.1, ?_⟩ hp'
    have hlen := h.2 vs rfl
    have hused := h.1.2
    rw [List.length_map] at hlen
    simp only [List.length_zip]
    omega

theorem used_giveUp {bs : List Block} :
    Tracks (Used start 0 p) (giveUp ix bs p) (Used start 0) :=
  Tracks.after (.log _) fun _ => Tracks.pure fun _ h => h

theorem used_storeCombined (hcount : provider.KeepsCount) {bs : List Block} :
    Tracks (Used start 0 p) (storeCombined ix provider deadline bs p) (Used start 0) := by
  induction bs generalizing p with
  | nil =>
    unfold storeCombined
    split
    · exact Tracks.pure fun _ h => h
    · refine (used_flush hcount).bind fun o => ?_
      cases o with
      | none => exact used_giveUp
      | some p' => exact Tracks.pure fun _ h => h
  | cons b bs ih =>
    have next (p' : Progress) (hgenerated : p'.tally.generated = p.tally.generated)
        (hsaved : p'.tally.saved = p.tally.saved) :
        Tracks (Used start 0 p) (storeCombined ix provider deadline bs p') (Used start 0) :=
      used_congr hgenerated hsaved ▸ ih
    unfold storeCombined
    dsimp only
    split
    · exact next _ rfl rfl
    · refine Tracks.after (Spares.holds b).attempt fun r => ?_
      cases r with
      | error e => exact Tracks.after (.log _) fun _ => next _ rfl rfl
      | ok held =>
        cases held with
        | true => exact next _ rfl rfl
        | false =>
          dsimp only
          split
          · exact next _ rfl rfl
          · refine (used_flush (p := (p.see b).await b) hcount).bind fun o => ?_
            cases o with
            | none => exact Tracks.after (.unstored _ _) fun rest => used_giveUp
            | some p' => exact ih

/-- The vectors that came were saved with blocks or refused with them. -/
theorem generated_storeBlocks (hcount : ∀ p, ix.provider = some p → p.KeepsCount)
    {bs : List Block} :
    Tracks (· = start) (storeBlocks ix false bs {}) fun t n =>
      ∃ refused, n = start + refused ∧ t.generated = t.saved + refused := by
  unfold storeBlocks
  cases hp : ix.provider with
  | none => exact Tracks.throw _
  | some provider =>
    refine Tracks.after .clock fun now => ?_
    refine Tracks.bind (m := Used start 0) ?_ fun p => ?_
    · rintro w p rfl hp'
      exact used_storeCombined (hcount _ hp) w p ⟨Nat.le_refl _, rfl⟩ hp'
    · refine Tracks.after (.markEach _) fun _ => Tracks.pure ?_
      rintro n ⟨hle, hused⟩
      exact ⟨n - start, by omega, by omega⟩

end Used

/-! ### Storing as a whole -/

section Whole

variable {ix : Indexer} {deferred : Bool} {w : World} {t t' : Tally}

/-- Storing that ends was a run of the machine, after which files were marked. -/
theorem exists_stores_marked (ended : (outcome (storeBlocks ix deferred bs t) w).1 = .ok t') :
    ∃ p v marks s, Stage.Stores w.faults (supplyAt ix deferred w.clock)
        ⟨bs, { tally := t }, w.view⟩ (.ok p) v ∧
      Each (Marked w.faults) (sortedOnce p.failed) v.store marks s ∧ t' = p.tally ∧
        (outcome (storeBlocks ix deferred bs t) w).2.view = { v with store := s } := by
  have hx : wp w.faults (storeBlocks ix deferred bs t) (fun r v' => ∀ t', r = .ok t' →
      ∃ p v marks s, Stage.Stores w.faults (supplyAt ix deferred w.clock)
          ⟨bs, { tally := t }, w.view⟩ (.ok p) v ∧
        Each (Marked w.faults) (sortedOnce p.failed) v.store marks s ∧ t' = p.tally ∧
          v' = { v with store := s }) w.view := by
    refine wp_storeBlocks (fun _ _ _ h => nomatch h) (fun _ _ _ _ h => nomatch h)
      fun p v marks s hst hm t' ht => ⟨p, v, marks, s, hst, hm, ?_, rfl⟩
    cases ht
    rfl
  exact hx.at_world t' ended

/-- Storing ends if the line numbers fit the store and the provider, where there has to be one, only
refuses. -/
theorem exists_ok_storeBlocks
    (hprovider : deferred = false → ∃ p, ix.provider = some p ∧ p.OnlyRefuses)
    (hfit : ∀ b ∈ bs, b.span.last < StoreCall.limit) :
    ∃ t', (outcome (storeBlocks ix deferred bs t) w).1 = .ok t' := by
  have hrefuse : ∀ c, supplyAt ix deferred w.clock = some c → c.provider.OnlyRefuses := by
    intro c hc
    cases deferred with
    | true => cases hc
    | false =>
      obtain ⟨p, hp, hrefuse⟩ := hprovider rfl
      rw [provider_of_supplyAt hc] at hp
      cases hp
      exact hrefuse
  have hx : wp w.faults (storeBlocks ix deferred bs t) (fun r _ => ∃ t', r = .ok t') w.view := by
    refine wp_storeBlocks (fun hd hn => ?_) (fun e v' hst => ?_) fun p v marks s _ _ => ⟨_, rfl⟩
    · obtain ⟨p, hp, -⟩ := hprovider hd
      cases hn.symm.trans hp
    · obtain ⟨p, hp⟩ := hst.exists_ok hrefuse hfit
      cases hp
  exact hx.at_world

theorem rows_of_each_marked {files : List String} {marks : List Bool} {s s' : Store}
    (h : Each (Marked f) files s marks s') : s'.rows = s.rows := by
  refine h.keeps (I := fun t => t.rows = s.rows) (fun file _ s₁ _ s₂ hm hs => ?_) rfl
  cases hm with
  | marked => exact (s₁.rows_marked file).trans hs
  | _ => exact hs

/-- Storing ends where it can, and when it has ended each block was counted once, as stored already,
as saved or as an error; only when the time is over some were not.  A row was added for each block
counted as saved, and as many of the vectors that came as saves were refused are in no row. -/
theorem counted_once (hcount : ∀ p, ix.provider = some p → p.KeepsCount) :
    ((deferred = false → ∃ p, ix.provider = some p ∧ p.OnlyRefuses) →
      (∀ b ∈ bs, b.span.last < StoreCall.limit) →
        ∃ t, (outcome (storeBlocks ix deferred bs {}) w).1 = .ok t) ∧
    ∀ t, (outcome (storeBlocks ix deferred bs {}) w).1 = .ok t →
      (t.timedOut = false → t.existing + t.saved + t.errors = bs.length) ∧
      (t.timedOut = true → t.existing + t.saved + t.errors < bs.length) ∧
      (outcome (storeBlocks ix deferred bs {}) w).2.store.rows.length =
        w.store.rows.length + t.saved ∧
      (deferred = false → ∃ refused,
        (outcome (storeBlocks ix deferred bs {}) w).2.refusedSaves = w.refusedSaves + refused ∧
          t.generated = t.saved + refused) := by
  refine ⟨exists_ok_storeBlocks, fun t ended => ?_⟩
  obtain ⟨p, v, marks, s, hst, hm, rfl, hview⟩ := exists_stores_marked ended
  obtain ⟨hall, hsome, hrows⟩ := hst.counts fun c hc => hcount _ (provider_of_supplyAt hc)
  refine ⟨hall, hsome, ?_, fun hd => ?_⟩
  · have hstore : (outcome (storeBlocks ix deferred bs {}) w).2.store = s :=
      congrArg View.store hview
    rw [hstore, rows_of_each_marked hm]
    exact hrows
  · subst hd
    exact generated_storeBlocks hcount w _ rfl ended

end Whole

end Run

namespace Sample

/-- An indexer with a provider that takes a tick for each request. -/
def storer (size timeout : Int) : Indexer where
  root := ⟨"/", []⟩
  disk := ⟨.directory [], []⟩
  registry := ⟨[]⟩
  scanner := ⟨⟨"/", []⟩, ⟨[], []⟩⟩
  provider := some fun _ texts _ => ⟨1, .ok (texts.map fun text => [.whole text.length])⟩
  timeout := timeout
  batchSize := size

theorem storer_keepsCount {size timeout : Int} :
    ∀ p, (storer size timeout).provider = some p → p.KeepsCount := by
  rintro p hp earlier texts timeout vs hvs
  cases hp
  cases hvs
  simp

/-- A block in the line after line `n`. -/
def line (n : Nat) : Block where
  path := "/a.txt"
  kind := .text
  span := ⟨n + 1, n + 1, Nat.succ_pos n, Nat.le_refl _⟩
  text := toString n
  relativePath := some "a.txt"

/-- A store that refuses to save the block in one line and to look up the one in another. -/
def refusing (saved read : Nat) : Faults := fun _ call =>
  match call with
  | .save b => if b.span.last = saved + 1 then some "full" else none
  | .holds b => if b.span.last = read + 1 then some "locked" else none
  | _ => none

end Sample

/-- Four blocks in groups of two: one twice, one that is refused and one that cannot be looked up. -/
theorem Run.counted_once_sample :
    let ix := Sample.storer 2 1800
    let bs := [Sample.line 0, Sample.line 0, Sample.line 1, Sample.line 2]
    let w : World := { faults := Sample.refusing 1 2 }
    let w' := (outcome (storeBlocks ix false bs {}) w).2
    (∀ p, ix.provider = some p → p.KeepsCount) ∧
      (∃ t, (outcome (storeBlocks ix false bs {}) w).1 = .ok t) ∧
      1 + 1 + 2 = bs.length ∧ w'.store.rows.length = w.store.rows.length + 1 ∧
      ∃ refused, w'.refusedSaves = w.refusedSaves + refused ∧ 2 = 1 + refused := by
  intro ix bs w w'
  have hcount : ∀ p, ix.provider = some p → p.KeepsCount := Sample.storer_keepsCount
  have hrefuse : ∃ p, ix.provider = some p ∧ p.OnlyRefuses :=
    ⟨_, rfl, fun _ _ _ _ h => nomatch h⟩
  have ended : (outcome (storeBlocks ix false bs {}) w).1 =
      .ok { existing := 1, saved := 1, errors := 2, generated := 2 } := by decide +kernel
  obtain ⟨hall, -, hrows, hrefused⟩ := (counted_once hcount).2 _ ended
  have hexists : ∃ t, (outcome (storeBlocks ix false bs {}) w).1 = .ok t :=
    (counted_once hcount).1 (fun _ => hrefuse) (by decide)
  exact ⟨hcount, hexists, hall rfl, hrows, hrefused rfl⟩

end BlockIndex
