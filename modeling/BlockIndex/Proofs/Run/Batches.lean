import BlockIndex.Proofs.Run.Counts
import Mathlib.Data.Finset.Insert

/-! Storing in groups of any size gives what storing one by one gives, while the deadline is not
reached, the provider computes each vector from its text and the store refuses by the block alone.
`Ledger.account` goes through the blocks without groups.  A block that waits is later taken into the
ledger as if it had been taken at once, because what is done in between commutes with taking it
(`take_skip`, `take_miss`) and its identity is not looked up again (`holds_foldl_take`). -/

namespace BlockIndex

/-- Looking up or saving a block is refused at each call or at none, and no mark is refused. -/
structure Faults.PerBlock (f : Faults) : Prop where
  holds : ∀ i j b, (f i (.holds b)).isSome = (f j (.holds b)).isSome
  save : ∀ i j b, (f i (.save b)).isSome = (f j (.save b)).isSome
  fingerprint : ∀ i file, f i (.fingerprint file) = Option.none
  setFingerprint : ∀ i file text, f i (.setFingerprint file text) = Option.none

/-- Whether a store refuses a call, where the number of the call makes no difference. -/
def Store.declines (s : Store) (f : Faults) (c : StoreCall) : Bool := s.isClosed || (f 0 c).isSome

theorem Store.declines_congr {s s' : Store} (h : s.isClosed = s'.isClosed) (f : Faults)
    (c : StoreCall) : s.declines f c = s'.declines f c := by
  rw [declines, h, declines]

/-- A store with marks on files, unless it is closed. -/
def Store.markedAll (s : Store) (files : List String) : Store :=
  if s.isClosed then s else files.foldl Store.marked s

/-! ### One by one -/

/-- What storing has come to: the store, the numbers, and the files with a block that could not be
stored. -/
structure Ledger where
  store : Store
  tally : Tally
  failed : Finset String

namespace Ledger

variable (f : Faults) (g : String → Vector)

def skip (l : Ledger) : Ledger :=
  { l with tally := { l.tally with existing := l.tally.existing + 1 } }

def miss (l : Ledger) (b : Block) : Ledger :=
  { l with tally := l.tally.fail 1, failed := insert b.displayPath l.failed }

def gain (n : Nat) (l : Ledger) : Ledger :=
  { l with tally := { l.tally with generated := l.tally.generated + n } }

/-- A block with its vector is saved or refused. -/
def put (l : Ledger) (b : Block) : Ledger :=
  if l.store.declines f (.save b) then l.miss b
  else
    match l.store.save? b (some (g b.embeddingText)) b.embeddingText with
    | none => l.miss b
    | some (_, s) =>
      { l with store := s, tally := { l.tally with saved := l.tally.saved + 1 } }

/-- A block gets its vector and is saved or refused. -/
def take (l : Ledger) (b : Block) : Ledger := (l.gain 1).put f g b

/-- Each block is looked at and, if it is not stored, taken before the next one is looked at. -/
def account (seen : List Identity) : List Block → Ledger → Except Failure Ledger
  | [], l => .ok l
  | b :: bs, l =>
    if b.identity ∈ seen then account seen bs l.skip
    else if l.store.declines f (.holds b) then account (b.identity :: seen) bs (l.miss b)
    else if ¬b.span.last < StoreCall.limit then .error .tooLarge
    else if l.store.holds b then account (b.identity :: seen) bs l.skip
    else account (b.identity :: seen) bs (l.take f g b)

variable {f g} {l : Ledger} {b c : Block} {bs : List Block} {n : Nat}

theorem put_skip : l.skip.put f g b = (l.put f g b).skip := by
  unfold put skip
  dsimp only
  split
  · rfl
  · split <;> rfl

theorem put_miss : (l.miss c).put f g b = (l.put f g b).miss c := by
  have hmiss : (l.miss c).miss b = (l.miss b).miss c := by
    unfold miss
    rw [Finset.insert_comm]
  unfold put
  rw [show (l.miss c).store = l.store from rfl, hmiss]
  split
  · rfl
  · split
    · rfl
    · simp only [miss, Tally.fail]

theorem put_gain : (l.gain n).put f g b = (l.put f g b).gain n := by
  unfold put gain
  dsimp only
  split
  · rfl
  · split <;> rfl

theorem take_skip : l.skip.take f g b = (l.take f g b).skip := put_skip (l := l.gain 1)

theorem take_miss : (l.miss c).take f g b = (l.take f g b).miss c := put_miss (l := l.gain 1)

theorem gain_gain {m : Nat} : (l.gain m).gain n = l.gain (m + n) := by
  simp only [gain, Nat.add_assoc]

/-- Vectors may come for all blocks before the first of them is saved. -/
theorem foldl_take : bs.foldl (take f g) l = bs.foldl (put f g) (l.gain bs.length) := by
  induction bs generalizing l with
  | nil => rfl
  | cons b bs ih => rw [List.foldl_cons, ih, List.foldl_cons, take, ← put_gain, gain_gain,
      List.length_cons, Nat.add_comm]

theorem foldl_take_congr {α : Type} (view : Ledger → α)
    (h : ∀ l, ∀ b ∈ bs, view (l.take f g b) = view l) : view (bs.foldl (take f g) l) = view l := by
  induction bs generalizing l with
  | nil => rfl
  | cons b bs ih =>
    rw [List.foldl_cons, ih fun l' b' hb' => h l' b' (List.mem_cons_of_mem b hb')]
    exact h l b List.mem_cons_self

/-- Taking a block adds a row for it or leaves the store as it is. -/
theorem store_take : (l.take f g b).store = l.store ∨ ∃ r : Row, r.block.identity = b.identity ∧
    (l.take f g b).store =
      { l.store with rows := l.store.rows ++ [r], lastId := l.store.lastId + 1 } := by
  unfold take put
  split
  · exact .inl rfl
  · cases hs : (l.gain 1).store.save? b (some (g b.embeddingText)) b.embeddingText with
    | none => exact .inl rfl
    | some r =>
      obtain ⟨-, -, hr⟩ := Store.save?_eq_some.mp hs
      exact .inr ⟨_, Store.identity_newRow, hr⟩

theorem isClosed_take : (l.take f g b).store.isClosed = l.store.isClosed := by
  obtain h | ⟨r, -, h⟩ := store_take (l := l) (f := f) (g := g) (b := b) <;> rw [h]

theorem isClosed_foldl_take : (bs.foldl (take f g) l).store.isClosed = l.store.isClosed :=
  foldl_take_congr (·.store.isClosed) fun _ _ _ => isClosed_take

/-- Taking blocks of other identities changes no answer about a block. -/
theorem holds_foldl_take (hbs : ∀ b ∈ bs, b.identity ≠ c.identity) :
    (bs.foldl (take f g) l).store.holds c = l.store.holds c := by
  refine foldl_take_congr (·.store.holds c) fun l b hb => ?_
  obtain h | ⟨r, hr, h⟩ := store_take (l := l) (f := f) (g := g) (b := b)
  · rw [h]
  · rw [h]
    simp [Store.holds, hr, hbs b hb]

/-- The store in which the files with a block that could not be stored are marked. -/
noncomputable def settled (l : Ledger) : Store :=
  l.store.markedAll (Run.sortedOnce l.failed.toList)

section Account

variable {seen : List Identity}

theorem account_seen (h : b.identity ∈ seen) :
    account f g seen (b :: bs) l = account f g seen bs l.skip := if_pos h

theorem account_declined (h : b.identity ∉ seen) (hd : l.store.declines f (.holds b) = true) :
    account f g seen (b :: bs) l = account f g (b.identity :: seen) bs (l.miss b) := by
  rw [account, if_neg h, if_pos hd]

theorem account_large (h : b.identity ∉ seen) (hd : l.store.declines f (.holds b) = false)
    (hb : ¬b.span.last < StoreCall.limit) :
    account f g seen (b :: bs) l = .error .tooLarge := by
  rw [account, if_neg h, hd, if_neg Bool.false_ne_true, if_pos hb]

theorem account_found (h : b.identity ∉ seen) (hd : l.store.declines f (.holds b) = false)
    (hb : b.span.last < StoreCall.limit) :
    account f g seen (b :: bs) l =
      account f g (b.identity :: seen) bs (if l.store.holds b then l.skip else l.take f g b) := by
  rw [account, if_neg h, hd, if_neg Bool.false_ne_true, if_neg (not_not_intro hb)]
  split <;> rfl

end Account

end Ledger

/-! ### In groups -/

namespace Run

open Ledger

variable {f : Faults} {g : String → Vector} {v : View} {b : Block} {bs : List Block} {p : Progress}
  {provider : Provider} {deadline : Int}

theorem wp_call_of_steady {α : Type} {Q : Except Failure α → View → Prop} {c : StoreCall}
    {act : Store → Except StoreError (α × Store)}
    (steady : ∀ i, (f i c).isSome = (f 0 c).isSome)
    (refused : v.store.declines f c = true → ∀ e, Q (.error (.store e)) v)
    (large : v.store.declines f c = false → c.fits = false → Q (.error .tooLarge) v)
    (failed : v.store.declines f c = false → ∀ e, act v.store = .error e → Q (.error (.store e)) v)
    (done : v.store.declines f c = false → c.fits = true → ∀ a s, act v.store = .ok (a, s) →
      Q (.ok a) { v with store := s }) :
    wp f (call c act) Q v := by
  rintro w rfl rfl
  have hcall := steady w.calls
  rw [outcome_call]
  cases hf : w.faults w.calls c with
  | some text =>
    have hd : w.store.declines w.faults c = true := by simp [Store.declines, ← hcall, hf]
    exact ⟨rfl, refused hd _⟩
  | none =>
    simp only
    split
    · next hclosed =>
      have hd : w.store.declines w.faults c = true := by simp [Store.declines, hclosed]
      exact ⟨rfl, refused hd _⟩
    · next hopen =>
      have hd : w.store.declines w.faults c = false := by
        simp [Store.declines, ← hcall, hf, hopen]
      split
      · exact ⟨rfl, large hd (by simpa using ‹(!c.fits) = true›)⟩
      · cases ha : act w.store with
        | error e => exact ⟨rfl, failed hd e ha⟩
        | ok r => exact ⟨rfl, done hd (by simpa using ‹¬(!c.fits) = true›) r.1 r.2 ha⟩

theorem wp_ask_of_steady {α : Type} {Q : Except Failure α → View → Prop} {c : StoreCall}
    {look : Store → α} (steady : ∀ i, (f i c).isSome = (f 0 c).isSome)
    (refused : v.store.declines f c = true → ∀ e, Q (.error (.store e)) v)
    (large : v.store.declines f c = false → c.fits = false → Q (.error .tooLarge) v)
    (done : v.store.declines f c = false → c.fits = true → Q (.ok (look v.store)) v) :
    wp f (ask c look) Q v := by
  refine wp_call_of_steady steady refused large (fun _ e h => nomatch h) fun hd hfits a s hs => ?_
  cases hs
  exact done hd hfits

theorem wp_holds_of_perBlock {Q : Except Failure Bool → View → Prop} (hf : f.PerBlock)
    (refused : v.store.declines f (.holds b) = true → ∀ e, Q (.error (.store e)) v)
    (large : v.store.declines f (.holds b) = false → ¬b.span.last < StoreCall.limit →
      Q (.error .tooLarge) v)
    (done : v.store.declines f (.holds b) = false → b.span.last < StoreCall.limit →
      Q (.ok (v.store.holds b)) v) :
    wp f (holds b) Q v :=
  wp_ask_of_steady (fun i => hf.holds i 0 b) refused
    (fun hd h => large hd (of_decide_eq_false h)) fun hd h => done hd (of_decide_eq_true h)

namespace Progress

/-- What storing has come to. -/
def ledger (p : Progress) (s : Store) : Ledger := ⟨s, p.tally, p.failed.toFinset⟩

theorem ledger_miss {s : Store} : (p.miss b).ledger s = (p.ledger s).miss b := by
  have hfailed : (p.failed ++ [b.displayPath]).toFinset =
      insert b.displayPath p.failed.toFinset := by
    ext file
    simp [or_comm]
  simp only [ledger, miss, fail, Ledger.miss, hfailed]

variable (f g) in
/-- What storing comes to when the blocks that wait are taken. -/
def taken (p : Progress) (s : Store) : Ledger := p.waiting.foldl (take f g) (p.ledger s)

section Taken

variable {s : Store}

theorem taken_of_waiting (h : p.waiting = []) : p.taken f g s = p.ledger s := by
  rw [taken, h, List.foldl_nil]

theorem taken_skip : p.skip.taken f g s = (p.taken f g s).skip := by
  show p.waiting.foldl (take f g) (p.ledger s).skip = _
  exact List.foldl_hom Ledger.skip fun _ _ => take_skip

theorem taken_miss : (p.miss b).taken f g s = (p.taken f g s).miss b := by
  rw [taken, ledger_miss]
  exact List.foldl_hom (Ledger.miss · b) fun _ _ => take_miss

theorem taken_await : (p.await b).taken f g s = (p.taken f g s).take f g b := List.foldl_concat ..

theorem isClosed_taken : (p.taken f g s).store.isClosed = s.isClosed := isClosed_foldl_take

theorem declines_taken {c : StoreCall} : (p.taken f g s).store.declines f c = s.declines f c :=
  Store.declines_congr isClosed_taken f c

theorem holds_taken (h : ∀ b' ∈ p.waiting, b'.identity ≠ b.identity) :
    (p.taken f g s).store.holds b = s.holds b := holds_foldl_take h

end Taken

/-- Storing has come to a ledger; what was seen is as before and no block waits. -/
structure Reaches (p : Progress) (s : Store) (seen : List Identity) (l : Ledger) : Prop where
  seen : p.seen = seen
  waiting : p.waiting = []
  ledger : p.ledger s = l

end Progress

theorem wp_saveOne_put {Q : Except Failure Progress → View → Prop} (hf : f.PerBlock)
    (hb : b.span.last < StoreCall.limit) (hp : p.waiting = [])
    (h : ∀ p' s, p'.Reaches s p.seen ((p.ledger v.store).put f g b) →
      Q (.ok p') { v with store := s }) :
    wp f (saveOne b (some (g b.embeddingText)) p) Q v := by
  have hmiss : (p.ledger v.store).put f g b = (p.ledger v.store).miss b →
      ∀ e : StoreError, wp f (warn ("⚠️ " ++ e.message) >>= fun _ => pure (p.miss b)) Q v := by
    intro hput e
    refine wp_bind (wp_warn (wp_pure (h _ _ ⟨rfl, hp, ?_⟩)))
    rw [hput]
    exact Progress.ledger_miss
  have hput : (p.ledger v.store).put f g b = if v.store.declines f (.save b) then
      (p.ledger v.store).miss b else match
        v.store.save? b (some (g b.embeddingText)) b.embeddingText with
      | none => (p.ledger v.store).miss b
      | some (_, s) => p.stored.ledger s := rfl
  refine wp_bind (wp_attempt (wp_call_of_steady (fun i => hf.save i 0 b) (fun hd e => ?_)
    (fun _ hl => absurd hb (of_decide_eq_false hl)) (fun hd e he => ?_) fun hd _ id s hs => ?_))
  · exact hmiss (by rw [hput, if_pos hd]) e
  · cases hsave : v.store.save? b (some (g b.embeddingText)) b.embeddingText with
    | none => exact hmiss (by simp only [hput, hd, hsave]; rfl) e
    | some r =>
      rw [hsave] at he
      cases he
  · cases hsave : v.store.save? b (some (g b.embeddingText)) b.embeddingText with
    | none =>
      rw [hsave] at hs
      cases hs
    | some r =>
      rw [hsave] at hs
      cases hs
      refine wp_pure (h p.stored s ⟨rfl, hp, ?_⟩)
      simp only [hput, hd, hsave]
      rfl

theorem wp_saveGroup_put {Q : Except Failure Progress → View → Prop} (hf : f.PerBlock)
    (hbs : ∀ b ∈ bs, b.span.last < StoreCall.limit) (hp : p.waiting = [])
    (h : ∀ p' s, p'.Reaches s p.seen (bs.foldl (put f g) (p.ledger v.store)) →
      Q (.ok p') { v with store := s }) :
    wp f (saveGroup (bs.zip ((bs.map (·.embeddingText)).map g)) p) Q v := by
  induction bs generalizing p v Q with
  | nil => exact wp_pure (h p v.store ⟨rfl, hp, rfl⟩)
  | cons b bs ih =>
    refine wp_bind (wp_saveOne_put hf (hbs b List.mem_cons_self) hp fun p' s hp' => ?_)
    refine ih (fun b' hb' => hbs b' (List.mem_cons_of_mem b hb')) hp'.waiting fun p'' s' hp'' => ?_
    refine h p'' s' ⟨hp''.seen.trans hp'.seen, hp''.waiting, ?_⟩
    rw [hp''.ledger, List.foldl_cons, ← hp'.ledger]

theorem wp_flush_take {Q : Except Failure (Option Progress) → View → Prop} (hf : f.PerBlock)
    (hg : provider.Computes g) (hp : ∀ b ∈ p.waiting, b.span.last < StoreCall.limit)
    (late : Q (.ok none) v)
    (done : ∀ p' v', p'.Reaches v'.store p.seen (p.taken f g v.store) → Q (.ok (some p')) v') :
    wp f (flush provider deadline p) Q v := by
  refine wp_bind (wp_request (c := ⟨provider, deadline, 0⟩) (fun _ => wp_pure late)
    (fun _ e he => ?_) (fun e he => ?_) fun _ vs hvs => ?_)
  · cases (hg _ _ _).symm.trans he
  · cases (hg _ _ _).symm.trans he
  · cases (hg _ _ _).symm.trans hvs
    refine wp_bind (wp_saveGroup_put hf hp rfl fun p' s hp' => wp_pure (done _ _ ?_))
    refine ⟨hp'.seen, hp'.waiting, ?_⟩
    rw [hp'.ledger, Progress.taken, foldl_take]
    simp [Progress.ledger, gain, Supply.after]

/-- If what is left cannot be looked at because of a line number, accounting fails for it too. -/
theorem wp_unstored_account {Q : Except Failure (List Block) → View → Prop} (hf : f.PerBlock)
    {seen : List Identity}
    (large : (∀ l : Ledger, l.store.isClosed = v.store.isClosed →
      account f g seen bs l = .error .tooLarge) → Q (.error .tooLarge) v)
    (done : ∀ rest, Q (.ok rest) v) :
    wp f (unstored seen bs) Q v := by
  induction bs generalizing seen Q with
  | nil => exact wp_pure (done [])
  | cons b bs ih =>
    unfold unstored
    split
    · next hseen =>
      refine ih (fun h => large fun l hl => ?_) done
      exact (account_seen (by simpa using hseen)).trans (h l.skip hl)
    · next hseen =>
      have hseen : b.identity ∉ seen := by simpa using hseen
      have hdecl {l : Ledger} (hl : l.store.isClosed = v.store.isClosed) :
          l.store.declines f (.holds b) = v.store.declines f (.holds b) :=
        Store.declines_congr hl f _
      refine wp_bind (wp_attempt (wp_holds_of_perBlock hf (fun hd e => ?_) (fun hd hb => ?_)
        fun hd hb => ?_))
      · refine wp_bind (wp_warn (wp_bind (ih (fun h => large fun l hl => ?_) fun rest =>
          wp_pure (done _))))
        exact (account_declined hseen ((hdecl hl).trans hd)).trans (h (l.miss b) hl)
      · exact large fun l hl => account_large hseen ((hdecl hl).trans hd) hb
      · have hnext : (∀ l : Ledger, l.store.isClosed = v.store.isClosed →
            account f g (b.identity :: seen) bs l = .error .tooLarge) →
            Q (.error .tooLarge) v := by
          refine fun h => large fun l hl => ?_
          rw [account_found hseen ((hdecl hl).trans hd) hb]
          split
          · exact h l.skip hl
          · exact h (l.take f g b) (isClosed_take.trans hl)
        cases v.store.holds b with
        | true => exact ih hnext done
        | false => exact wp_bind (ih hnext fun rest => wp_pure (done _))

/-- Storing in groups comes to what accounting comes to, unless the deadline passes.  The waiting
blocks count as taken. -/
theorem wp_storeCombined_account {ix : Indexer} {Q : Except Failure Progress → View → Prop}
    (hf : f.PerBlock) (hg : provider.Computes g)
    (hwait : ∀ b ∈ p.waiting, b.identity ∈ p.seen ∧ b.span.last < StoreCall.limit)
    (late : ∀ p' v', p'.tally.timedOut = true → Q (.ok p') v')
    (failed : ∀ e v', account f g p.seen bs (p.taken f g v.store) = .error e → Q (.error e) v')
    (done : ∀ p' v', account f g p.seen bs (p.taken f g v.store) = .ok (p'.ledger v'.store) →
      Q (.ok p') v') :
    wp f (storeCombined ix provider deadline bs p) Q v := by
  induction bs generalizing p v with
  | nil =>
    unfold storeCombined
    split
    · next hw => exact wp_pure (done p v (congrArg _ (p.taken_of_waiting (by simpa using hw))))
    · refine wp_bind (wp_flush_take hf hg (fun b hb => (hwait b hb).2) ?_ fun p' v' hp' => ?_)
      · exact wp_bind (wp_warn (wp_pure (late _ _ rfl)))
      · exact wp_pure (done p' v' (congrArg _ hp'.ledger.symm))
  | cons b bs ih =>
    have next : ∀ (p' : Progress) {v' : View},
        (∀ b ∈ p'.waiting, b.identity ∈ p'.seen ∧ b.span.last < StoreCall.limit) →
        account f g p.seen (b :: bs) (p.taken f g v.store) =
          account f g p'.seen bs (p'.taken f g v'.store) →
        wp f (storeCombined ix provider deadline bs p') Q v' := by
      intro p' v' hw h
      rw [h] at failed done
      exact ih hw failed done
    unfold storeCombined
    split
    · next hseen =>
      refine next p.skip hwait ?_
      rw [account_seen (by simpa using hseen), Progress.taken_skip]
      rfl
    · next hseen =>
      have hseen : b.identity ∉ p.seen := by simpa using hseen
      have hwait' : ∀ b' ∈ p.waiting,
          b'.identity ∈ b.identity :: p.seen ∧ b'.span.last < StoreCall.limit := fun b' hb' =>
        ⟨List.mem_cons_of_mem _ (hwait b' hb').1, (hwait b' hb').2⟩
      refine wp_bind (wp_attempt (wp_holds_of_perBlock hf (fun hd e => ?_) (fun hd hb => ?_)
        fun hd hb => ?_))
      · refine wp_bind (wp_warn (next ((p.see b).miss b) hwait' ?_))
        rw [account_declined hseen (p.declines_taken.trans hd), Progress.taken_miss]
        rfl
      · exact failed _ _ (account_large hseen (p.declines_taken.trans hd) hb)
      · have hfound : account f g p.seen (b :: bs) (p.taken f g v.store) =
            account f g (b.identity :: p.seen) bs (if v.store.holds b
              then (p.taken f g v.store).skip else (p.taken f g v.store).take f g b) := by
          have hother : ∀ b' ∈ p.waiting, b'.identity ≠ b.identity := fun b' hb' he =>
            hseen (he ▸ (hwait b' hb').1)
          rw [account_found hseen (p.declines_taken.trans hd) hb, p.holds_taken hother]
        cases hh : v.store.holds b with
        | true =>
          refine next (p.see b).skip hwait' ?_
          rw [hfound, hh, if_pos rfl, Progress.taken_skip]
          rfl
        | false =>
          have hjoin : account f g p.seen (b :: bs) (p.taken f g v.store) =
              account f g ((p.see b).await b).seen bs (((p.see b).await b).taken f g v.store) := by
            rw [hfound, hh, if_neg Bool.false_ne_true, Progress.taken_await]
            rfl
          have hw : ∀ b' ∈ ((p.see b).await b).waiting,
              b'.identity ∈ b.identity :: p.seen ∧ b'.span.last < StoreCall.limit := by
            simp only [Progress.await, Progress.see, List.mem_append, List.mem_singleton]
            rintro b' (hb' | rfl)
            · exact hwait' b' hb'
            · exact ⟨List.mem_cons_self, hb⟩
          show wp f (if ((p.see b).await b).waiting.length < ix.groupSize then _ else _) Q v
          split
          · exact next _ hw hjoin
          · have hfit := fun b' hb' => (hw b' hb').2
            refine wp_bind (wp_flush_take hf hg hfit ?_ fun p' v' hp' => ?_)
            · refine wp_bind (wp_unstored_account (g := g) hf (fun h => ?_) fun rest => ?_)
              · exact failed _ _ (hjoin.trans (h _ Progress.isClosed_taken))
              · exact wp_bind (wp_warn (wp_pure (late _ _ rfl)))
            · refine next p' (by simp [hp'.waiting]) ?_
              rw [hjoin, p'.taken_of_waiting hp'.waiting, hp'.seen, hp'.ledger]
              rfl

theorem wp_markForRetry_of_perBlock {files : List String}
    {Q : Except Failure (List String) → View → Prop} (hf : f.PerBlock)
    (h : ∀ gone, Q (.ok gone) { v with store := v.store.markedAll (sortedOnce files) }) :
    wp f (markForRetry files) Q v := by
  unfold Store.markedAll at h
  cases hs : v.store.isClosed with
  | false =>
    refine wp_markEach fun gone marks s hm => ?_
    rw [hm.eq_marked_of_unrefused hf.fingerprint hf.setFingerprint hs]
    simpa [hs] using h gone
  | true =>
    simp only [hs, if_true] at h
    have hd : ∀ c, v.store.declines f c = true := fun c => by simp [Store.declines, hs]
    unfold markForRetry
    induction sortedOnce files with
    | nil => exact wp_pure (h [])
    | cons file files ih =>
      refine wp_bind (wp_attempt (wp_bind (wp_ask_of_steady ?_ (fun _ e => ?_) ?_ ?_)))
      · simp [hf.fingerprint]
      · exact wp_bind (wp_warn ih)
      · exact fun hn => absurd ((hd _).symm.trans hn) Bool.noConfusion
      · exact fun hn => absurd ((hd _).symm.trans hn) Bool.noConfusion

theorem nodup_eraseDups : ∀ xs : List String, xs.eraseDups.Nodup
  | [] => List.nodup_nil
  | x :: xs => by
    rw [List.eraseDups_cons, List.nodup_cons]
    exact ⟨by simp, nodup_eraseDups _⟩
  termination_by xs => xs.length
  decreasing_by exact Nat.lt_succ_of_le (List.length_filter_le _ _)

theorem pairwise_sortedOnce (xs : List String) : (sortedOnce xs).Pairwise (· ≤ ·) := by
  have h : (sortedOnce xs).Pairwise fun a b => decide (a ≤ b) = true := by
    refine List.pairwise_mergeSort (fun a b c hab hbc => ?_) (fun a b => ?_) _
    · exact decide_eq_true (String.le_trans (of_decide_eq_true hab) (of_decide_eq_true hbc))
    · simpa using String.le_total a b
  exact h.imp of_decide_eq_true

/-- It is of no matter in which order and how often the texts come that are put in order. -/
theorem sortedOnce_congr {xs ys : List String} (h : ∀ x, x ∈ xs ↔ x ∈ ys) :
    sortedOnce xs = sortedOnce ys := by
  have hperm : (sortedOnce xs).Perm (sortedOnce ys) := by
    refine (List.mergeSort_perm ..).trans (.trans ?_ (List.mergeSort_perm ..).symm)
    refine (List.perm_ext_iff_of_nodup (nodup_eraseDups xs) (nodup_eraseDups ys)).mpr ?_
    simpa using h
  exact hperm.eq_of_pairwise (fun a b _ _ => String.le_antisymm) (pairwise_sortedOnce xs)
    (pairwise_sortedOnce ys)

theorem sortedOnce_toList (xs : List String) : sortedOnce xs.toFinset.toList = sortedOnce xs :=
  sortedOnce_congr fun x => by simp

theorem wp_storeBlocks_account {ix : Indexer} {t : Tally} {Q : Except Failure Tally → View → Prop}
    (hp : ix.provider = some provider) (hf : f.PerBlock) (hg : provider.Computes g)
    (late : ∀ t' v', t'.timedOut = true → Q (.ok t') v')
    (failed : ∀ e v', account f g [] bs ⟨v.store, t, ∅⟩ = .error e → Q (.error e) v')
    (done : ∀ l v', account f g [] bs ⟨v.store, t, ∅⟩ = .ok l → v'.store = l.settled →
      Q (.ok l.tally) v') :
    wp f (storeBlocks ix false bs t) Q v := by
  have hmark : ∀ {p : Progress} {v' : View},
      Q (.ok p.tally) { v' with store := v'.store.markedAll (sortedOnce p.failed) } →
        wp f (markForRetry p.failed >>= fun _ => pure p.tally) Q v' := fun h =>
    wp_bind (wp_markForRetry_of_perBlock hf fun _ => wp_pure h)
  unfold storeBlocks
  rw [hp]
  refine wp_bind (wp_clock (wp_bind (wp_storeCombined_account hf hg (by simp) ?_ failed ?_)))
  · exact fun p v' hlate => hmark (late _ _ hlate)
  · refine fun p v' h => hmark (done (p.ledger v'.store) _ h ?_)
    rw [Ledger.settled, Progress.ledger, sortedOnce_toList]

section Whole

variable {ix : Indexer} {w : World} {t : Tally}

/-- Storing that is in time comes to what accounting comes to. -/
theorem storeBlocks_accounts
    (inTime : ∀ t', (outcome (storeBlocks ix false bs t) w).1 = .ok t' → t'.timedOut = false)
    (hp : ix.provider = some provider) (hf : w.faults.PerBlock) (hg : provider.Computes g) :
    (∀ e, account w.faults g [] bs ⟨w.store, t, ∅⟩ = .error e →
      (outcome (storeBlocks ix false bs t) w).1 = .error e) ∧
    ∀ l, account w.faults g [] bs ⟨w.store, t, ∅⟩ = .ok l →
      (outcome (storeBlocks ix false bs t) w).1 = .ok l.tally ∧
        (outcome (storeBlocks ix false bs t) w).2.store = l.settled := by
  have hx : wp w.faults (storeBlocks ix false bs t) (fun r v' =>
      (∃ t', r = .ok t' ∧ t'.timedOut = true) ∨
        (∀ e, account w.faults g [] bs ⟨w.store, t, ∅⟩ = .error e → r = .error e) ∧
          ∀ l, account w.faults g [] bs ⟨w.store, t, ∅⟩ = .ok l →
            r = .ok l.tally ∧ v'.store = l.settled) w.view := by
    refine wp_storeBlocks_account hp hf hg (fun t' v' hlate => .inl ⟨t', rfl, hlate⟩)
      (fun e v' he => .inr ⟨fun e' he' => ?_, fun l hl => ?_⟩)
      (fun l v' hl hs => .inr ⟨fun e he => ?_, fun l' hl' => ?_⟩)
    · cases he.symm.trans he'
      rfl
    · cases he.symm.trans hl
    · cases hl.symm.trans he
    · cases hl.symm.trans hl'
      exact ⟨rfl, hs⟩
  obtain ⟨t', ht, hlate⟩ | h := hx.at_world
  · cases (inTime t' ht).symm.trans hlate
  · exact h

/-- In groups of any size and one by one, storing gives the same numbers and leaves the same store,
with the same files marked; it ends if the line numbers fit the store. -/
theorem batches_agree (hp : ix.provider = some provider) (hf : w.faults.PerBlock)
    (hg : provider.Computes g)
    (inTime : ∀ t', (outcome (storeBlocks ix false bs t) w).1 = .ok t' → t'.timedOut = false)
    (inTime' : ∀ t', (outcome (storeBlocks { ix with batchSize := 1 } false bs t) w).1 = .ok t' →
      t'.timedOut = false) :
    (outcome (storeBlocks ix false bs t) w).1 =
      (outcome (storeBlocks { ix with batchSize := 1 } false bs t) w).1 ∧
    (∀ t', (outcome (storeBlocks ix false bs t) w).1 = .ok t' →
      (outcome (storeBlocks ix false bs t) w).2.store =
        (outcome (storeBlocks { ix with batchSize := 1 } false bs t) w).2.store) ∧
    ((∀ b ∈ bs, b.span.last < StoreCall.limit) →
      ∃ t', (outcome (storeBlocks ix false bs t) w).1 = .ok t') := by
  obtain ⟨failed, done⟩ := storeBlocks_accounts inTime hp hf hg
  obtain ⟨failed', done'⟩ := storeBlocks_accounts inTime' hp hf hg
  refine ⟨?_, fun t' ht => ?_, exists_ok_storeBlocks fun _ => ⟨provider, hp, hg.onlyRefuses⟩⟩
  · cases ha : account w.faults g [] bs ⟨w.store, t, ∅⟩ with
    | error e => exact (failed e ha).trans (failed' e ha).symm
    | ok l => exact (done l ha).1.trans (done' l ha).1.symm
  · cases ha : account w.faults g [] bs ⟨w.store, t, ∅⟩ with
    | error e => cases ht.symm.trans (failed e ha)
    | ok l => exact (done l ha).2.trans (done' l ha).2.symm

end Whole

end Run

namespace Sample

/-- A store that refuses to save one line and to look up another. -/
def hindered : World where
  store := { fingerprints := [("a.txt", "0")] }
  faults := refusing 1 2

theorem hindered_perBlock : hindered.faults.PerBlock where
  holds _ _ _ := rfl
  save _ _ _ := rfl
  fingerprint _ _ := rfl
  setFingerprint _ _ _ := rfl

/-- A block, the same with an empty name in place of none, two lines that the store refuses, the
first block again and one more. -/
def mixed : List Block :=
  [line 0, { line 0 with name := some "" }, line 1, line 2, line 0, line 3]

end Sample

/-- In groups of two the second block is found missing before the first is saved in its place. -/
theorem Run.batches_agree_sample :
    let ix := Sample.storer 2 1800
    let t : Tally := { existing := 1, saved := 2, generated := 4, errors := 3 }
    Sample.hindered.faults.PerBlock ∧
      (outcome (storeBlocks ix false Sample.mixed {}) Sample.hindered).1 = .ok t ∧
      (outcome (storeBlocks { ix with batchSize := 1 } false Sample.mixed {})
        Sample.hindered).1 = .ok t ∧
      (outcome (storeBlocks ix false Sample.mixed {}) Sample.hindered).2.store =
        (outcome (storeBlocks { ix with batchSize := 1 } false Sample.mixed {})
          Sample.hindered).2.store := by
  intro ix t
  have ended : (outcome (storeBlocks ix false Sample.mixed {}) Sample.hindered).1 = .ok t := by
    decide +kernel
  have ended' : (outcome (storeBlocks { ix with batchSize := 1 } false Sample.mixed {})
      Sample.hindered).1 = .ok t := by
    decide +kernel
  have inTime {r : Except Failure Tally} (hr : r = .ok t) :
      ∀ t', r = .ok t' → t'.timedOut = false := by
    subst hr
    rintro t' ⟨⟩
    rfl
  have hp : ix.provider =
      some fun _ texts _ => ⟨1, .ok (texts.map fun text => [.whole text.length])⟩ := rfl
  have h := batches_agree hp Sample.hindered_perBlock (fun _ _ _ => rfl) (inTime ended)
    (inTime ended')
  exact ⟨Sample.hindered_perBlock, ended, ended', h.2.1 t ended⟩

end BlockIndex
