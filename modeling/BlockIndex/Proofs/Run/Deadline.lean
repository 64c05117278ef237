import BlockIndex.Proofs.Run.Backfill
import BlockIndex.Proofs.Run.Project
import Mathlib.Data.List.Flatten

/-! Runs that keep their deadline.  Every request is for at least one text, so a run makes at most
as many requests as there are blocks or rows; if the time that they may take together is less than
what the run is given, it is not out of time. -/

namespace BlockIndex

open Relation

variable {f : Faults} {supply : Option Supply} {c : Supply} {cost : Nat} {v v' : View}
  {t t' : Tally}

theorem Supply.clock_after_le (hcost : c.provider.TakesAtMost cost) (v : View)
    (texts : List String) : (c.after v texts).clock ≤ v.clock + cost := by
  have := hcost v.requests.size texts (Ticks.left c.deadline v.clock)
  simp only [after, reply]
  omega

namespace Stage

/-- The time by which all blocks of a stage are saved. -/
def due (cost : Nat) (c : Stage) : Int :=
  c.view.clock + (cost * (c.progress.waiting.length + c.todo.length) : Nat)

theorem Filling.clock_le {p p₁ : Run.Progress} {v₁ : View} {group : List (Block × Option Vector)}
    (hcost : ∀ k, supply = some k → k.provider.TakesAtMost cost)
    (h : Filling p v supply group p₁ v₁) : v₁.clock ≤ v.clock + cost := by
  cases h with
  | bare => omega
  | vectors _ _ => exact Supply.clock_after_le (hcost _ rfl) _ _

/-- A request is paid for by the group that no longer waits. -/
theorem due_le_of_emptied {bs : List Block} {p p' : Run.Progress} (hp : p.waiting ≠ [])
    (hp' : p'.waiting = []) (hclock : v'.clock ≤ v.clock + cost) :
    due cost ⟨bs, p', v'⟩ ≤ due cost ⟨bs, p, v⟩ := by
  have hlen : 1 + bs.length ≤ p.waiting.length + bs.length :=
    Nat.add_le_add_right (List.length_pos_iff.mpr hp) _
  have hpaid := Nat.mul_le_mul_left cost hlen
  rw [Nat.mul_add, Nat.mul_one] at hpaid
  simp only [due, hp', List.length_nil, Nat.zero_add]
  omega

theorem due_le_of_length_le {bs bs' : List Block} {p p' : Run.Progress}
    (h : p'.waiting.length + bs'.length ≤ p.waiting.length + bs.length) :
    due cost ⟨bs', p', v⟩ ≤ due cost ⟨bs, p, v⟩ :=
  Int.add_le_add_left (Int.ofNat_le.mpr (Nat.mul_le_mul_left cost h)) v.clock

/-- No step puts off the time by which all blocks are saved. -/
theorem Step.due_le {c c' : Stage} (hcost : ∀ k, supply = some k → k.provider.TakesAtMost cost)
    (h : Step f supply c c') : c'.due cost ≤ c.due cost := by
  cases h with
  | seen _ => exact due_le_of_length_le (by simp [Run.Progress.skip])
  | unread _ _ =>
    exact due_le_of_length_le (by simp [Run.Progress.see, Run.Progress.miss, Run.Progress.fail])
  | held _ _ => exact due_le_of_length_le (by simp [Run.Progress.see, Run.Progress.skip])
  | wait _ _ _ =>
    refine due_le_of_length_le ?_
    simp only [Run.Progress.await, Run.Progress.see, List.length_append, List.length_cons,
      List.length_nil]
    omega
  | save waiting _ filling saved =>
    have hclock := filling.clock_le hcost
    exact due_le_of_emptied waiting (saved.saved_frame.2.trans filling.frame.2.1) hclock
  | lose waiting _ hk _ _ =>
    exact due_le_of_emptied waiting rfl (Supply.clock_after_le (hcost _ hk) _ _)

/-- Storing that has time enough for a request for each block ends in time. -/
theorem Stores.in_time {bs : List Block} {p : Run.Progress}
    (hcost : ∀ k, supply = some k → k.provider.TakesAtMost cost)
    (htime : ∀ k, supply = some k → v.clock + (cost * bs.length : Nat) < k.deadline)
    (h : Stores f supply ⟨bs, { tally := t }, v⟩ (.ok p) v') : p.tally.timedOut = t.timedOut := by
  obtain ⟨c, hrun, hend⟩ := h
  have hc : c.progress.Balanced t ∧ c.due cost ≤ v.clock + (cost * bs.length : Nat) := by
    clear hend
    induction hrun with
    | refl => exact ⟨⟨rfl, rfl⟩, by simp [due]⟩
    | tail _ hstep ih => exact ⟨hstep.balanced ih.1, Int.le_trans (hstep.due_le hcost) ih.2⟩
  cases hend with
  | done _ => exact hc.1.timedOut
  | late _ _ hk left _ =>
    have hdue : v'.clock + _ ≤ _ := hc.2
    have hless := htime _ hk
    omega

end Stage

theorem ChangeReport.processed_sublist (files : List String) (ws : List Verdict) :
    (ChangeReport.processed ⟨files.zip ws⟩).Sublist files := by
  refine (List.filter_sublist.map _).trans ?_
  induction files generalizing ws with
  | nil => exact List.Sublist.refl _
  | cons file files ih =>
    cases ws with
    | nil => exact List.nil_sublist _
    | cons w ws => exact (ih ws).cons_cons file

/-- Indexing that has time enough for a request for each block ends in time. -/
theorem Indexed.in_time {ix : Indexer} {deferred : Bool}
    (hcost : ∀ p, ix.provider = some p → p.TakesAtMost cost)
    (htime : v.clock + (cost * (ix.files.flatMap ix.blocksOf).length : Nat) <
      Ticks.deadline v.clock ix.timeout)
    (h : Indexed f ix deferred v (.ok t) v') : t.timedOut = false := by
  cases h with
  | idle _ _ => rfl
  | @stored s s' report p v' marks hd hst _ =>
    obtain ⟨s₁, ws, -, -, rfl⟩ := hd.pruned_judged
    have hcost' : ∀ k, Run.supplyAt ix deferred v.clock = some k → k.provider.TakesAtMost cost :=
      fun k hk => hcost _ (Run.provider_of_supplyAt hk)
    refine hst.in_time hcost' fun k hk => ?_
    cases deferred with
    | true => cases hk
    | false =>
      obtain ⟨p, -, rfl⟩ := Option.map_eq_some_iff.mp hk
      have hlen := ((ChangeReport.processed_sublist ix.files ws).flatMap ix.blocksOf).length_le
      have hcosts := Nat.mul_le_mul_left cost hlen
      show v.clock + _ < Ticks.deadline v.clock ix.timeout
      omega

/-! ### Filling in vectors -/

theorem Each.filled_timedOut {group : List (Row × Vector)} {us : List Unit} {s s' : Store}
    (h : Each (Filled f) group (t, s) us (t', s')) : t'.timedOut = t.timedOut := by
  refine h.keeps (I := fun r => r.1.timedOut = t.timedOut) (fun e _ r _ r' hs hr => ?_) rfl
  cases hs <;> exact hr

theorem Fills.in_time {groups : List (List Row)} {r : Except Failure Tally}
    (hcost : c.provider.TakesAtMost cost) (h : Fills f c groups t v r v')
    (htime : v.clock + (cost * groups.length : Nat) < c.deadline) :
    ∀ t', r = .ok t' → t'.timedOut = t.timedOut := by
  have later {n : Nat} {v : View} {texts : List String}
      (h : v.clock + (cost * (n + 1) : Nat) < c.deadline) :
      (c.after v texts).clock + (cost * n : Nat) < c.deadline := by
    have := Supply.clock_after_le hcost v texts
    rw [Nat.mul_succ] at h
    omega
  induction h with
  | done =>
    rintro _ ⟨⟩
    rfl
  | late left => omega
  | refused _ _ _ ih => exact ih (later htime)
  | broken _ _ => exact fun _ h => nomatch h
  | filled _ _ each _ ih => exact fun t' h => (ih (later htime) t' h).trans each.filled_timedOut
  | large _ _ _ _ _ _ => exact fun _ h => nomatch h

theorem Run.length_groupsFrom_le {α : Type} (size : Nat) (group xs : List α) :
    (groupsFrom size group xs).length ≤ group.length + xs.length := by
  induction xs generalizing group with
  | nil =>
    unfold groupsFrom
    split
    · exact Nat.zero_le _
    · next h => exact List.length_pos_iff.mpr fun he => h (List.isEmpty_iff.mpr he)
  | cons x xs ih =>
    have hnext := ih (group ++ [x])
    have hnew := ih []
    unfold groupsFrom
    split
    · simp at hnext ⊢
      omega
    · simp at hnew ⊢
      omega

/-- Filling in vectors that has time enough for a request for each row ends in time. -/
theorem Backfilled.in_time {ix : Indexer} (hcost : ∀ p, ix.provider = some p → p.TakesAtMost cost)
    (htime : v.clock + (cost * v.store.pending.length : Nat) <
      Ticks.deadline v.clock ix.timeout)
    (h : Backfilled f ix v (.ok t) v') : t.timedOut = false := by
  cases h with
  | idle _ => rfl
  | @filled p t v' hp hf =>
    have hlen := Run.length_groupsFrom_le ix.groupSize [] v.store.pending
    rw [List.length_nil, Nat.zero_add] at hlen
    have hcosts := Nat.mul_le_mul_left cost hlen
    refine hf.in_time (hcost p hp) ?_ t rfl
    show v.clock + (cost * (Run.groupsFrom _ _ _).length : Nat) < Ticks.deadline v.clock ix.timeout
    omega

end BlockIndex
