import BlockIndex.Proofs.Embedding.Provider
import BlockIndex.Proofs.Extract.Yield
import BlockIndex.Proofs.Run.Saving

/-! What storing blocks does to a store and what it accounts for.  Only first blocks are saved, each
with a vector that answers its own text (`Stores.keeps`); at the end every block is held or its file
is among the failed ones (`Stores.covers`), and each failure is counted as an error
(`Stores.balanced`). -/

namespace BlockIndex

open Relation

variable {f : Faults} {supply : Option Supply} {since : Nat} {p p' p₁ : Run.Progress}
  {v v' v₁ : View} {group : List (Block × Option Vector)} {b : Block} {vec : Option Vector}

/-- What a block is saved with: nothing without a supply, else a vector that answers its text in one
of the requests since some number of them was made. -/
def Supply.Brings (since : Nat) : Option Supply → View → Block → Option Vector → Prop
  | none, _, _, vec => vec = none
  | some c, v, b, vec => ∃ i x, since ≤ i ∧ vec = some x ∧
      c.provider.Answers v.requests i (b.embeddingText, x)

/-- Saving a block changes neither which blocks were looked at nor which wait. -/
theorem Saved.frame {e : Block × Option Vector} {s s' : Store}
    (h : Saved f e (p, s) () (p', s')) : p'.seen = p.seen ∧ p'.waiting = p.waiting := by
  cases h <;> exact ⟨rfl, rfl⟩

theorem Each.saved_frame {us : List Unit} {t t' : Run.Progress × Store}
    (h : Each (Saved f) group t us t') : t'.1.seen = t.1.seen ∧ t'.1.waiting = t.1.waiting := by
  refine h.keeps (I := fun r => r.1.seen = t.1.seen ∧ r.1.waiting = t.1.waiting)
    (fun e _ s _ s' hs hI => ?_) ⟨rfl, rfl⟩
  obtain ⟨hseen, hwait⟩ := hs.frame
  exact ⟨hseen.trans hI.1, hwait.trans hI.2⟩

namespace Stage

namespace Filling

theorem store_eq (h : Filling p v supply group p₁ v₁) : v₁.store = v.store := by
  cases h <;> rfl

theorem frame (h : Filling p v supply group p₁ v₁) :
    p₁.seen = p.seen ∧ p₁.waiting = [] ∧ p₁.failed = p.failed ∧
      p₁.tally.errors = p.tally.errors ∧ p₁.tally.timedOut = p.tally.timedOut := by
  cases h <;> exact ⟨rfl, rfl, rfl, rfl, rfl⟩

theorem mem_waiting (h : Filling p v supply group p₁ v₁) (hb : (b, vec) ∈ group) :
    b ∈ p.waiting := by
  cases h with
  | bare =>
    obtain ⟨b', hb', he⟩ := List.mem_map.mp hb
    cases he
    exact hb'
  | vectors left reply =>
    obtain ⟨e, he, heq⟩ := List.mem_map.mp hb
    cases heq
    exact (List.of_mem_zip he).1

theorem brings (h : Filling p v supply group p₁ v₁) (hsince : since ≤ v.requests.size)
    (hb : (b, vec) ∈ group) (s : Store) :
    Supply.Brings since supply { v₁ with store := s } b vec := by
  cases h with
  | bare =>
    obtain ⟨b', -, he⟩ := List.mem_map.mp hb
    cases he
    rfl
  | @vectors c vs left reply =>
    obtain ⟨⟨b', x⟩, he, heq⟩ := List.mem_map.mp hb
    cases heq
    have hzip : (b'.embeddingText, x) ∈ p.texts.zip vs := by
      rw [Run.Progress.texts, List.zip_map_left]
      exact List.mem_map.mpr ⟨(b', x), he, rfl⟩
    exact ⟨v.requests.size, x, hsince, rfl, Provider.answers_push reply hzip⟩

theorem requests_le (h : Filling p v supply group p₁ v₁) : v.requests.size ≤ v₁.requests.size := by
  cases h with
  | bare => exact Nat.le_refl _
  | vectors left reply => simp [Supply.after]

/-- With one vector for each text no waiting block is left out. -/
theorem exists_mem (h : Filling p v supply group p₁ v₁)
    (hcount : ∀ c, supply = some c → c.provider.KeepsCount) (hb : b ∈ p.waiting) :
    ∃ vec, (b, vec) ∈ group := by
  cases h with
  | bare => exact ⟨none, List.mem_map.mpr ⟨b, hb, rfl⟩⟩
  | @vectors c vs left reply =>
    have hlen : vs.length = p.waiting.length := by
      rw [hcount c rfl _ _ _ _ reply, Run.Progress.texts, List.length_map]
    obtain ⟨i, hi, rfl⟩ := List.mem_iff_getElem.mp hb
    have hi' : i < vs.length := by omega
    refine ⟨some vs[i], List.mem_map.mpr ⟨(p.waiting[i], vs[i]), ?_, rfl⟩⟩
    exact List.mem_iff_getElem.mpr ⟨i, by rw [List.length_zip]; omega, by simp⟩

end Filling

/-! ### What is saved -/

/-- The blocks that may still be saved. -/
def offered (c : Stage) : List Block := c.progress.waiting ++ firsts c.progress.seen c.todo

/-- No step offers another block. -/
theorem Step.offered_subset {c c' : Stage} (h : Step f supply c c') : c'.offered ⊆ c.offered := by
  cases h with
  | seen h => simp [offered, firsts_cons_of_mem h, Run.Progress.skip]
  | unread h _ =>
    simp [offered, firsts_cons_of_not_mem h, Run.Progress.see, Run.Progress.miss, Run.Progress.fail]
  | held h _ => simp [offered, firsts_cons_of_not_mem h, Run.Progress.see, Run.Progress.skip]
  | wait h _ _ => simp [offered, firsts_cons_of_not_mem h, Run.Progress.see, Run.Progress.await]
  | save _ _ filling saved =>
    obtain ⟨hseen, hwait⟩ := saved.saved_frame
    obtain ⟨hseen₁, hwait₁, -⟩ := filling.frame
    simp only [hseen₁, hwait₁] at hseen hwait
    simp [offered, hseen, hwait]
  | lose _ _ _ _ _ => simp [offered, Run.Progress.lose, Run.Progress.clear, Run.Progress.failAll]

theorem Step.todo_subset {c c' : Stage} (h : Step f supply c c') : c'.todo ⊆ c.todo := by
  cases h with
  | save _ _ _ _ => exact List.Subset.refl _
  | lose _ _ _ _ _ => exact List.Subset.refl _
  | _ => exact List.subset_cons_self _ _

theorem Step.requests_le {c c' : Stage} (h : Step f supply c c') :
    c.view.requests.size ≤ c'.view.requests.size := by
  cases h with
  | save _ _ filling _ => exact filling.requests_le
  | lose _ _ _ _ _ => simp [Supply.after]
  | _ => exact Nat.le_refl _

/-- A property of views that requests keep, and saving any of some blocks with what is brought. -/
structure Kept (since : Nat) (supply : Option Supply) (bs : List Block) (I : View → Prop) :
    Prop where
  asked : ∀ c v texts, supply = some c → I v → I (c.after v texts)
  saved : ∀ b ∈ bs, ∀ vec v id s, Supply.Brings since supply v b vec → I v →
    v.store.save? b vec b.embeddingText = some (id, s) → I { v with store := s }

variable {I : View → Prop} {bs : List Block}

theorem Kept.subset {cs : List Block} (h : Kept since supply bs I) (hs : cs ⊆ bs) :
    Kept since supply cs I :=
  ⟨h.asked, fun b hb => h.saved b (hs hb)⟩

theorem Step.keeps {c c' : Stage} (hI : Kept since supply c.offered I)
    (hsince : since ≤ c.view.requests.size) (h : Step f supply c c') (hc : I c.view) :
    I c'.view := by
  cases h with
  | @save bs p p₁ p₂ v v₁ s group us _ _ filling saved =>
    have hv₁ : I v₁ := by
      cases filling with
      | bare => exact hc
      | vectors _ _ => exact hI.asked _ _ _ rfl hc
    refine saved.keeps (I := fun t => I { v₁ with store := t.2 }) (fun e he t u t' hs ht => ?_) hv₁
    cases hs with
    | @saved b vec q s s' id hsave =>
      have hoff := List.mem_append_left (firsts p.seen bs) (filling.mem_waiting he)
      exact hI.saved b hoff vec { v₁ with store := s } id s' (filling.brings hsince he s) ht hsave
    | missed _ => exact ht
  | lose _ _ hcs _ _ => exact hI.asked _ _ _ hcs hc
  | _ => exact hc

theorem Ends.keeps {c : Stage} {r : Except Failure Run.Progress}
    (hI : Kept since supply bs I) (h : Ends f supply c r v') (hc : I c.view) : I v' := by
  cases h with
  | broken _ _ hcs _ _ => exact hI.asked _ _ _ hcs hc
  | _ => exact hc

/-- What requests and savings keep, storing keeps. -/
theorem Stores.keeps {t : Tally} {r : Except Failure Run.Progress}
    (hI : Kept v.requests.size supply (firsts [] bs) I)
    (h : Stores f supply ⟨bs, { tally := t }, v⟩ r v') (hv : I v) : I v' := by
  obtain ⟨c, hrun, hend⟩ := h
  suffices hc : I c.view ∧ c.offered ⊆ firsts [] bs ∧ v.requests.size ≤ c.view.requests.size from
    hend.keeps hI hc.1
  clear hend
  induction hrun with
  | refl => exact ⟨hv, by simp [offered], Nat.le_refl _⟩
  | tail _ hstep ih =>
    obtain ⟨hc, hoff, hreq⟩ := ih
    exact ⟨hstep.keeps (hI.subset hoff) hreq hc, List.Subset.trans hstep.offered_subset hoff,
      Nat.le_trans hreq hstep.requests_le⟩

/-- What saving first blocks keeps of a store, storing keeps. -/
theorem Stores.keeps_store {t : Tally} {r : Except Failure Run.Progress} {J : Store → Prop}
    (hJ : ∀ b ∈ firsts [] bs, ∀ vec s id s', J s → s.save? b vec b.embeddingText = some (id, s') →
      J s') (h : Stores f supply ⟨bs, { tally := t }, v⟩ r v') (hv : J v.store) : J v'.store :=
  h.keeps (I := fun v => J v.store)
    ⟨fun _ _ _ _ hv => hv, fun b hb vec _ id s _ => hJ b hb vec _ id s⟩ hv

/-- Storing comes to its end if the line numbers fit the store and the provider only refuses. -/
theorem Stores.exists_ok {t : Tally} {r : Except Failure Run.Progress}
    (hrefuse : ∀ c, supply = some c → c.provider.OnlyRefuses)
    (hfit : ∀ b ∈ bs, b.span.last < StoreCall.limit)
    (h : Stores f supply ⟨bs, { tally := t }, v⟩ r v') : ∃ p, r = .ok p := by
  obtain ⟨c, hrun, hend⟩ := h
  have htodo : c.todo ⊆ bs := by
    clear hend
    induction hrun with
    | refl => exact List.Subset.refl _
    | tail _ hstep ih => exact List.Subset.trans hstep.todo_subset ih
  cases hend with
  | done _ => exact ⟨_, rfl⟩
  | late _ _ _ _ _ => exact ⟨_, rfl⟩
  | large hb hlarge => exact absurd (hfit _ (htodo hb)) hlarge
  | broken _ _ hc reply he =>
    obtain ⟨refusal, hr⟩ := hrefuse _ hc _ _ _ _ reply
    exact absurd hr (he refusal)

/-- Storing leaves the fingerprints alone. -/
theorem Stores.fingerprints_eq {t : Tally} {r : Except Failure Run.Progress}
    (h : Stores f supply ⟨bs, { tally := t }, v⟩ r v') :
    v'.store.fingerprints = v.store.fingerprints := by
  refine h.keeps_store (J := fun s => s.fingerprints = v.store.fingerprints)
    (fun b _ vec s id s' hs hsave => ?_) rfl
  obtain ⟨-, -, rfl⟩ := Store.save?_eq_some.mp hsave
  exact hs

end Stage

/-! ### What is accounted for -/

section Accounts

variable {e : Block × Option Vector} {s s' : Store} {us : List Unit}

/-- Saving a block removes no row and forgets no failure. -/
theorem Saved.mono (h : Saved f e (p, s) () (p', s')) :
    s.rows ⊆ s'.rows ∧ p.failed ⊆ p'.failed := by
  cases h with
  | saved h =>
    obtain ⟨-, -, rfl⟩ := Store.save?_eq_some.mp h
    exact ⟨List.subset_append_left _ _, List.Subset.refl _⟩
  | missed _ => exact ⟨List.Subset.refl _, List.subset_append_left _ _⟩

/-- A block is held after it was saved, or its file is among the failed ones. -/
theorem Saved.held_or_failed (h : Saved f e (p, s) () (p', s')) :
    s'.holds e.1 = true ∨ e.1.displayPath ∈ p'.failed := by
  cases h with
  | saved h =>
    obtain ⟨-, -, rfl⟩ := Store.save?_eq_some.mp h
    exact .inl (Store.holds_iff.mpr ⟨_, List.mem_append_right _ (List.mem_singleton_self _), rfl⟩)
  | missed _ => exact .inr (by simp [Run.Progress.miss, Run.Progress.fail])

theorem Store.holds_mono (h : s.rows ⊆ s'.rows) (hb : s.holds b = true) : s'.holds b = true := by
  obtain ⟨r, hr, hi⟩ := Store.holds_iff.mp hb
  exact Store.holds_iff.mpr ⟨r, h hr, hi⟩

theorem Store.holds_congr {d : Block} (h : d.identity = b.identity) : s.holds d = s.holds b := by
  unfold Store.holds
  rw [h]

theorem Each.saved_mono (h : Each (Saved f) group (p, s) us (p', s')) :
    s.rows ⊆ s'.rows ∧ p.failed ⊆ p'.failed := by
  refine h.keeps (I := fun t => s.rows ⊆ t.2.rows ∧ p.failed ⊆ t.1.failed)
    (fun e _ t _ t' hs ht => ?_) ⟨List.Subset.refl _, List.Subset.refl _⟩
  exact ⟨List.Subset.trans ht.1 hs.mono.1, List.Subset.trans ht.2 hs.mono.2⟩

theorem Each.held_or_failed (h : Each (Saved f) group (p, s) us (p', s')) (he : e ∈ group) :
    s'.holds e.1 = true ∨ e.1.displayPath ∈ p'.failed := by
  obtain ⟨u, hu⟩ := h.exists_mem_zip he
  refine h.forall_mem (P := fun e _ t => t.2.holds e.1 = true ∨ e.1.displayPath ∈ t.1.failed)
    (fun e t u t' hs => hs.held_or_failed) (fun _ _ t _ t' hs e' _ ht => ?_) _ hu
  exact ht.imp (Store.holds_mono hs.mono.1) fun hf => hs.mono.2 hf

theorem Run.Progress.not_mem_see {a : Block} {i : Identity} (ha : a.identity ≠ i)
    (h : i ∉ p.seen) : i ∉ (p.see a).seen :=
  fun hi => (List.mem_cons.mp hi).elim (fun e => ha e.symm) h

/-- Only first blocks are left. -/
theorem Rest.subset_firsts {seen : List Identity} {as rest : List Block}
    (h : Rest f s seen as rest) : rest ⊆ firsts seen as := by
  induction h with
  | nil => exact List.Subset.refl _
  | seen hs _ ih => rwa [firsts_cons_of_mem hs]
  | held hs _ _ ih =>
    rw [firsts_cons_of_not_mem hs]
    exact List.subset_cons_of_subset _ ih
  | missing hs _ _ ih =>
    rw [firsts_cons_of_not_mem hs]
    exact List.cons_subset_cons _ ih

/-- Of the blocks that are left each is known to be stored, or one like it is among them. -/
theorem Rest.held_or_mem {seen : List Identity} {as rest : List Block} {d : Block}
    (h : Rest f s seen as rest) (hd : d ∈ as) (hi : d.identity = b.identity)
    (hseen : b.identity ∉ seen) :
    s.holds b = true ∨ ∃ d ∈ rest, d.identity = b.identity := by
  induction h with
  | nil => cases hd
  | seen hs _ ih =>
    rcases List.mem_cons.mp hd with rfl | hd
    · exact absurd (hi ▸ hs) hseen
    · exact ih hd hseen
  | @held seen a as rest _ hheld _ ih =>
    by_cases ha : a.identity = b.identity
    · exact .inl (by rwa [← Store.holds_congr ha])
    · have hd := (List.mem_cons.mp hd).resolve_left fun e => ha (e ▸ hi)
      have hseen' : b.identity ∉ a.identity :: seen := by simp [Ne.symm ha, hseen]
      exact ih hd hseen'
  | @missing seen a as rest _ _ _ ih =>
    by_cases ha : a.identity = b.identity
    · exact .inr ⟨a, List.mem_cons_self, ha⟩
    · have hd := (List.mem_cons.mp hd).resolve_left fun e => ha (e ▸ hi)
      have hseen' : b.identity ∉ a.identity :: seen := by simp [Ne.symm ha, hseen]
      exact (ih hd hseen').imp_right fun ⟨c, hc, he⟩ => ⟨c, List.mem_cons_of_mem _ hc, he⟩

/-- What has become of a block of a list while storing is under way. -/
inductive Stage.Accounts (bs : List Block) (c : Stage) (b : Block) : Prop
  | held (h : c.view.store.holds b = true)
  | failed {d : Block} (hd : d ∈ bs) (hi : d.identity = b.identity)
      (h : d.displayPath ∈ c.progress.failed)
  | waiting {d : Block} (hd : d ∈ c.progress.waiting) (hi : d.identity = b.identity)
  | todo {d : Block} (hd : d ∈ c.todo) (hi : d.identity = b.identity)
      (h : b.identity ∉ c.progress.seen)

namespace Stage

variable {bs : List Block}

theorem Step.mono {c c' : Stage} (h : Step f supply c c') :
    c.view.store.rows ⊆ c'.view.store.rows ∧ c.progress.failed ⊆ c'.progress.failed := by
  cases h with
  | unread _ _ => exact ⟨List.Subset.refl _, List.subset_append_left _ _⟩
  | save _ _ filling saved =>
    have hmono := saved.saved_mono
    rwa [filling.store_eq, filling.frame.2.2.1] at hmono
  | lose _ _ _ _ _ => exact ⟨List.Subset.refl _, List.subset_append_left _ _⟩
  | _ => exact ⟨List.Subset.refl _, List.Subset.refl _⟩

/-- A waiting block waits on, or its group is saved or lost. -/
theorem Step.accounts_waiting {c c' : Stage} {d : Block}
    (hcount : ∀ k, supply = some k → k.provider.KeepsCount) (hoff : c.offered ⊆ bs)
    (h : Step f supply c c') (hd : d ∈ c.progress.waiting) (hi : d.identity = b.identity) :
    Accounts bs c' b := by
  cases h with
  | wait _ _ _ => exact .waiting (List.mem_append_left _ hd) hi
  | save _ _ filling saved =>
    obtain ⟨vec, he⟩ := filling.exists_mem hcount hd
    rcases saved.held_or_failed he with hheld | hfail
    · exact .held (by rwa [← Store.holds_congr hi])
    · exact .failed (hoff (List.mem_append_left _ hd)) hi hfail
  | lose _ _ _ _ _ =>
    exact .failed (hoff (List.mem_append_left _ hd)) hi
      (List.mem_append_right _ (List.mem_map_of_mem hd))
  | _ => exact .waiting hd hi

/-- A block that is still to look at is looked at, or stays to be looked at. -/
theorem Step.accounts_todo {c c' : Stage} {d : Block} (hoff : c.offered ⊆ bs)
    (h : Step f supply c c') (hd : d ∈ c.todo) (hi : d.identity = b.identity)
    (hseen : b.identity ∉ c.progress.seen) : Accounts bs c' b := by
  cases h with
  | seen h =>
    rcases List.mem_cons.mp hd with rfl | hd
    · exact absurd (hi ▸ h) hseen
    · exact .todo hd hi hseen
  | @unread a as p _ hnew _ =>
    by_cases ha : a.identity = b.identity
    · have hmem : a ∈ firsts p.seen (a :: as) := by
        rw [firsts_cons_of_not_mem hnew]
        exact List.mem_cons_self
      exact .failed (hoff (List.mem_append_right _ hmem)) ha
        (List.mem_append_right _ (List.mem_singleton_self _))
    · have hd := (List.mem_cons.mp hd).resolve_left fun e => ha (e ▸ hi)
      exact .todo hd hi (Run.Progress.not_mem_see ha hseen)
  | @held a as _ _ _ hheld =>
    by_cases ha : a.identity = b.identity
    · exact .held (by rwa [← Store.holds_congr ha])
    · have hd := (List.mem_cons.mp hd).resolve_left fun e => ha (e ▸ hi)
      exact .todo hd hi (Run.Progress.not_mem_see ha hseen)
  | @wait a as _ _ _ _ _ =>
    by_cases ha : a.identity = b.identity
    · exact .waiting (List.mem_append_right _ (List.mem_singleton_self _)) ha
    · have hd := (List.mem_cons.mp hd).resolve_left fun e => ha (e ▸ hi)
      exact .todo hd hi (Run.Progress.not_mem_see ha hseen)
  | save _ _ filling saved =>
    exact .todo hd hi (by rwa [saved.saved_frame.1, filling.frame.1])
  | lose _ _ _ _ _ => exact .todo hd hi hseen

/-- No step loses sight of a block. -/
theorem Step.accounts {c c' : Stage} (hcount : ∀ k, supply = some k → k.provider.KeepsCount)
    (hoff : c.offered ⊆ bs) (h : Step f supply c c') (hb : Accounts bs c b) :
    Accounts bs c' b := by
  cases hb with
  | held hheld => exact .held (Store.holds_mono h.mono.1 hheld)
  | failed hd hi hfail => exact .failed hd hi (h.mono.2 hfail)
  | waiting hd hi => exact h.accounts_waiting hcount hoff hd hi
  | todo hd hi hseen => exact h.accounts_todo hoff hd hi hseen

/-- Where storing comes to its end every block is held, or the file of one like it has failed. -/
theorem Ends.held_or_failed {c : Stage} (hoff : c.offered ⊆ bs)
    (h : Ends f supply c (.ok p) v') (hb : Accounts bs c b) :
    v'.store.holds b = true ∨ ∃ d ∈ bs, d.identity = b.identity ∧ d.displayPath ∈ p.failed := by
  cases h with
  | done hw =>
    cases hb with
    | held hheld => exact .inl hheld
    | failed hd hi hfail => exact .inr ⟨_, hd, hi, hfail⟩
    | waiting hd _ => exact absurd hd (by simp [hw])
    | todo hd _ _ => cases hd
  | @late as rest q v k hw full hc left hrest =>
    have habandon : ∀ {d : Block}, d ∈ q.waiting ++ rest →
        d.displayPath ∈ (q.abandon (q.waiting ++ rest)).failed :=
      fun hd => List.mem_append_right _ (List.mem_map_of_mem hd)
    cases hb with
    | held hheld => exact .inl hheld
    | failed hd hi hfail => exact .inr ⟨_, hd, hi, List.mem_append_left _ hfail⟩
    | waiting hd hi =>
      exact .inr ⟨_, hoff (List.mem_append_left _ hd), hi, habandon (List.mem_append_left _ hd)⟩
    | todo hd hi hseen =>
      refine (hrest.held_or_mem hd hi hseen).imp_right fun ⟨d', hd', hi'⟩ => ?_
      exact ⟨d', hoff (List.mem_append_right _ (hrest.subset_firsts hd')), hi',
        habandon (List.mem_append_right _ hd')⟩

/-- When storing comes to its end every block is held, or the file of the first one like it has
failed. -/
theorem Stores.held_or_failed {t : Tally} (hcount : ∀ k, supply = some k → k.provider.KeepsCount)
    (h : Stores f supply ⟨bs, { tally := t }, v⟩ (.ok p) v') (hb : b ∈ bs) :
    v'.store.holds b = true ∨
      ∃ d ∈ firsts [] bs, d.identity = b.identity ∧ d.displayPath ∈ p.failed := by
  obtain ⟨c, hrun, hend⟩ := h
  suffices hc : c.offered ⊆ firsts [] bs ∧ Accounts (firsts [] bs) c b from
    hend.held_or_failed hc.1 hc.2
  clear hend
  induction hrun with
  | refl => exact ⟨by simp [offered], .todo hb rfl (by simp)⟩
  | tail _ hstep ih =>
    obtain ⟨hoff, hacc⟩ := ih
    exact ⟨List.Subset.trans hstep.offered_subset hoff, hstep.accounts hcount hoff hacc⟩

end Stage

/-! ### What is counted -/

/-- The errors are those from before and one for each failure; the time is not over. -/
structure Run.Progress.Balanced (t : Tally) (p : Run.Progress) : Prop where
  errors : p.tally.errors = t.errors + p.failed.length
  timedOut : p.tally.timedOut = t.timedOut

variable {t : Tally}

theorem Saved.balanced (h : Saved f e (p, s) () (p', s')) (hp : p.Balanced t) : p'.Balanced t := by
  cases h with
  | saved _ => exact ⟨hp.errors, hp.timedOut⟩
  | @missed b _ _ _ _ =>
    refine ⟨?_, hp.timedOut⟩
    show p.tally.errors + 1 = t.errors + (p.failed ++ [b.displayPath]).length
    rw [hp.errors, List.length_append, List.length_singleton, Nat.add_assoc]

namespace Stage

theorem Step.balanced {c c' : Stage} (h : Step f supply c c') (hc : c.progress.Balanced t) :
    c'.progress.Balanced t := by
  cases h with
  | seen _ => exact ⟨hc.errors, hc.timedOut⟩
  | held _ _ => exact ⟨hc.errors, hc.timedOut⟩
  | wait _ _ _ => exact ⟨hc.errors, hc.timedOut⟩
  | @unread b _ p _ _ _ =>
    refine ⟨?_, hc.timedOut⟩
    show p.tally.errors + 1 = t.errors + (p.failed ++ [b.displayPath]).length
    rw [hc.errors, List.length_append, List.length_singleton, Nat.add_assoc]
  | @save _ p p₁ _ _ _ _ _ _ _ _ filling saved =>
    obtain ⟨-, -, hfailed, herrors, htime⟩ := filling.frame
    refine saved.keeps (I := fun r => r.1.Balanced t) (fun e _ r _ r' hs hr => hs.balanced hr) ?_
    exact ⟨by rw [herrors, hfailed]; exact hc.errors, by rw [htime]; exact hc.timedOut⟩
  | @lose _ p _ _ _ _ _ _ _ _ =>
    refine ⟨?_, hc.timedOut⟩
    show p.tally.errors + p.waiting.length =
      t.errors + (p.failed ++ p.waiting.map (·.displayPath)).length
    rw [hc.errors, List.length_append, List.length_map, Nat.add_assoc]

/-- When storing comes to its end in time each failure was counted as an error.  Without a supply it
always does. -/
theorem Stores.balanced (h : Stores f supply ⟨bs, { tally := t }, v⟩ (.ok p) v')
    (htime : supply ≠ none → p.tally.timedOut = false) : p.Balanced t := by
  obtain ⟨c, hrun, hend⟩ := h
  have hc : c.progress.Balanced t := by
    clear hend
    induction hrun with
    | refl => exact ⟨rfl, rfl⟩
    | tail _ hstep ih => exact hstep.balanced ih
  cases hend with
  | done _ => exact hc
  | late _ _ hsome _ _ => cases htime (by rw [hsome]; exact fun h => nomatch h)

end Stage

end Accounts

end BlockIndex
