import BlockIndex.Proofs.Run.Counts
import BlockIndex.Proofs.Run.Delivered
import BlockIndex.Proofs.Run.Wanted

/-! The deadline of requests.  Storing with vectors and filling in vectors both go in turns: a request
is made, and what it brings is written.  Each request is told how much is left until the deadline, and
it is made only if something is left (`Turns`); so nothing is written but for requests that were made
in time.  The time is reported as over exactly if the deadline has come and a group was still to be
asked for.  The deadline is the end of the time that the run was given at its start but for what is
lost in rounding (`Ticks.Ends`). -/

namespace BlockIndex

open Relation

/-- The ticks that a provider takes for requests one after the other. -/
def Provider.spent (p : Provider) : Nat → List ProviderCall → Int
  | _, [] => 0
  | earlier, call :: calls =>
    (p earlier call.texts call.timeout).cost + p.spent (earlier + 1) calls

/-- A request, and what was written after it. -/
structure Turn (α : Type) where
  call : ProviderCall
  written : List α

/-- From one view to another a provider had some turns until a deadline.  Before each request time was
left until then, counted from when the earlier ones were done, and this is what the request is told;
and each thing that was written has a vector that this request brought for its text. -/
structure Turns {α : Type} (item : α → String × Vector) (p : Provider) (deadline : Int) (v : View)
    (turns : List (Turn α)) (v' : View) : Prop where
  requests : v'.requests.toList = v.requests.toList ++ turns.map (·.call)
  clock : v'.clock = v.clock + p.spent v.requests.size (turns.map (·.call))
  timeout : ∀ n (h : n < turns.length), turns[n].call.timeout =
    Ticks.left deadline (v.clock + p.spent v.requests.size ((turns.take n).map (·.call)))
  left : ∀ n (h : n < turns.length), 0 < turns[n].call.timeout
  answered : ∀ n (h : n < turns.length), ∀ e ∈ turns[n].written, ∃ vs,
    (p (v.requests.size + n) turns[n].call.texts turns[n].call.timeout).vectors = .ok vs ∧
      item e ∈ turns[n].call.texts.zip vs

variable {f : Faults} {k : Supply} {p : Provider} {deadline : Int} {v v' v₁ : View}

theorem Provider.spent_concat (earlier : Nat) (calls : List ProviderCall) (call : ProviderCall) :
    p.spent earlier (calls ++ [call]) =
      p.spent earlier calls + (p (earlier + calls.length) call.texts call.timeout).cost := by
  induction calls generalizing earlier with
  | nil => simp [spent]
  | cons first calls ih =>
    have hcount : earlier + 1 + calls.length = earlier + (calls.length + 1) := by omega
    simp only [List.cons_append, spent, ih, List.length_cons, hcount]
    omega

namespace Turns

variable {α : Type} {item : α → String × Vector} {turns : List (Turn α)}

theorem nil : Turns item p deadline v [] v where
  requests := by simp
  clock := by simp [Provider.spent]
  timeout := fun n h => nomatch h
  left := fun n h => nomatch h
  answered := fun n h => nomatch h

theorem size_eq (h : Turns item p deadline v turns v₁) :
    v₁.requests.size = v.requests.size + turns.length := by
  have hlen := congrArg List.length h.requests
  simpa using hlen

theorem concat {texts : List String} {written : List α} {s : Store}
    (h : Turns item k.provider k.deadline v turns v₁) (left : 0 < k.deadline - v₁.clock)
    (hwritten : ∀ e ∈ written, ∃ vs, (k.reply v₁ texts).vectors = .ok vs ∧
      item e ∈ texts.zip vs) :
    Turns item k.provider k.deadline v (turns ++ [⟨k.call v₁ texts, written⟩])
      { k.after v₁ texts with store := s } := by
  have hsize := h.size_eq
  have hspent := h.clock
  -- a place in the longer list is a place in the shorter one, or its end
  have places {n : Nat} (hn : n < (turns ++ [(⟨k.call v₁ texts, written⟩ : Turn α)]).length) :
      n < turns.length ∨ n = turns.length := by
    rw [List.length_append, List.length_singleton] at hn
    omega
  refine ⟨?_, ?_, ?_, ?_, ?_⟩
  · rw [Supply.after, Array.toList_push, h.requests, List.append_assoc, List.map_append]
    rfl
  · rw [List.map_append, List.map_singleton, Provider.spent_concat, List.length_map, ← hsize]
    simp only [Supply.after, Supply.reply, Supply.call]
    omega
  · intro n hn
    rcases places hn with hlt | rfl
    · rw [List.getElem_append_left hlt, List.take_append_of_le_length (Nat.le_of_lt hlt)]
      exact h.timeout n hlt
    · rw [List.getElem_concat_length rfl, List.take_left, ← hspent]
      rfl
  · intro n hn
    rcases places hn with hlt | rfl
    · rw [List.getElem_append_left hlt]
      exact h.left n hlt
    · rw [List.getElem_concat_length rfl]
      exact Ticks.left_pos_iff.mpr left
  · intro n hn
    rcases places hn with hlt | rfl
    · rw [List.getElem_append_left hlt]
      exact h.answered n hlt
    · rw [List.getElem_concat_length rfl, ← hsize]
      exact hwritten

end Turns

/-! ### Storing -/

/-- The text and the vector of a row. -/
def Row.item (r : Row) : String × Vector := (r.text, r.components)

section Storing

variable {group : List (Block × Option Vector)} {bs : List Block} {s s' : Store} {us : List Unit}
  {q q' : Run.Progress}

/-- Saving a group adds rows with the texts of its blocks and what these are saved with. -/
theorem Each.exists_rows (h : Each (Saved f) group (q, s) us (q', s')) :
    ∃ new, s'.rows = s.rows ++ new ∧ ∀ r ∈ new, ∃ e ∈ group, r.item =
      (e.1.embeddingText, e.2.getD []) := by
  induction group generalizing q s us with
  | nil =>
    cases h
    exact ⟨[], by simp, fun r hr => by cases hr⟩
  | cons e group ih =>
    cases h with
    | @cons _ _ _ _ _ t _ head tail =>
      obtain ⟨new, hnew, hitems⟩ := ih tail
      have hitems' : ∀ r ∈ new, ∃ e' ∈ e :: group, r.item =
          (e'.1.embeddingText, e'.2.getD []) := fun r hr =>
        let ⟨e', he', hr'⟩ := hitems r hr
        ⟨e', List.mem_cons_of_mem _ he', hr'⟩
      cases head with
      | missed _ => exact ⟨new, hnew, hitems'⟩
      | @saved b vec _ _ s₁ id hsave =>
        obtain ⟨-, -, rfl⟩ := Store.save?_eq_some.mp hsave
        refine ⟨s.newRow b vec b.embeddingText :: new, by rw [hnew]; simp, fun r hr => ?_⟩
        rcases List.mem_cons.mp hr with rfl | hr
        · refine ⟨_, List.mem_cons_self, ?_⟩
          -- an empty vector is stored as none, and read back as empty
          rcases vec with _ | ⟨_ | ⟨x, xs⟩⟩ <;> rfl
        · exact hitems' r hr

namespace Stage

/-- A stage on the way: the new rows were written in turns. -/
def Turned (p : Provider) (deadline : Int) (v : View) (c : Stage) : Prop :=
  ∃ turns, Turns Row.item p deadline v turns c.view ∧
    c.view.store.rows = v.store.rows ++ turns.flatMap (·.written)

theorem Step.turned {c c' : Stage} (h : Step f (some k) c c')
    (hc : c.Turned k.provider k.deadline v) : c'.Turned k.provider k.deadline v := by
  obtain ⟨turns, hturns, hrows⟩ := hc
  cases h with
  | @save bs p p₁ p₂ w w₁ s group us _ _ filling saved =>
    cases filling with
    | @vectors _ vs left reply =>
      obtain ⟨new, hnew, hitems⟩ := saved.exists_rows
      have hwritten : ∀ r ∈ new, ∃ vs, (k.reply w p.texts).vectors = .ok vs ∧
          r.item ∈ p.texts.zip vs := by
        intro r hr
        obtain ⟨e, he, hr⟩ := hitems r hr
        obtain ⟨⟨b, x⟩, hbx, rfl⟩ := List.mem_map.mp he
        refine ⟨vs, reply, ?_⟩
        rw [hr, Run.Progress.texts, List.zip_map_left]
        exact List.mem_map.mpr ⟨(b, x), hbx, rfl⟩
      refine ⟨_, hturns.concat left hwritten, ?_⟩
      have hafter : (k.after w p.texts).store.rows = w.store.rows := rfl
      dsimp only at hrows
      simp [hnew, hafter, hrows]
  | @lose bs p w _ e _ _ hc left reply =>
    cases hc
    have hnone : ∀ r ∈ ([] : List Row), ∃ vs, (k.reply w p.texts).vectors = .ok vs ∧
        r.item ∈ p.texts.zip vs := fun r hr => by cases hr
    refine ⟨_, hturns.concat left hnone, ?_⟩
    have hafter : (k.after w p.texts).store.rows = w.store.rows := rfl
    dsimp only at hrows
    simp [hafter, hrows]
  | _ => exact ⟨turns, hturns, hrows⟩

/-- Whatever comes of storing with a provider that only refuses, it goes in turns. -/
theorem Stores.turned {t : Tally} {r : Except Failure Run.Progress}
    (hrefuse : k.provider.OnlyRefuses) (h : Stores f (some k) ⟨bs, { tally := t }, v⟩ r v') :
    ∃ turns, Turns Row.item k.provider k.deadline v turns v' ∧
      v'.store.rows = v.store.rows ++ turns.flatMap (·.written) := by
  obtain ⟨c, hrun, hend⟩ := h
  have hc : c.Turned k.provider k.deadline v := by
    clear hend
    induction hrun with
    | refl => exact ⟨[], Turns.nil, by simp⟩
    | tail _ hstep ih => exact hstep.turned ih
  cases hend with
  | broken _ _ hk' reply he =>
    cases hk'
    obtain ⟨refusal, hr⟩ := hrefuse _ _ _ _ reply
    exact absurd hr (he refusal)
  | _ => exact hc

end Stage

end Storing

/-! ### Filling in vectors -/

/-- The store with a vector in the row that has the number of another row. -/
def Store.give (s : Store) (e : Row × Vector) : Store :=
  { s with rows := s.rows.map (Row.given e.1.id e.2) }

/-- The text for which a vector is set, and the vector. -/
def Row.gift (e : Row × Vector) : String × Vector := (e.1.text, e.2)

section Filling

variable {group : List (Row × Vector)} {groups : List (List Row)} {s s' : Store} {t t' : Tally}
  {us : List Unit}

theorem Each.exists_given (h : Each (Filled f) group (t, s) us (t', s')) :
    ∃ written : List (Row × Vector), written.Sublist group ∧ s' = written.foldl Store.give s ∧
      t'.timedOut = t.timedOut := by
  induction group generalizing t s us with
  | nil =>
    cases h
    exact ⟨[], List.Sublist.refl _, rfl, rfl⟩
  | cons e group ih =>
    cases h with
    | cons head tail =>
      cases head with
      | missed _ =>
        obtain ⟨written, hsub, hs, ht⟩ := ih tail
        exact ⟨written, hsub.cons _, hs, ht⟩
      | filled hset =>
        obtain ⟨written, hsub, hs, ht⟩ := ih tail
        obtain rfl := Store.rows_setVector? hset
        exact ⟨_ :: written, hsub.cons_cons _, hs, ht⟩

/-- What turns of filling in vectors for groups of rows leave: the vectors that were written are
set, and the first groups were asked for in their order. -/
structure Gives (groups : List (List Row)) (s : Store) (turns : List (Turn (Row × Vector)))
    (s' : Store) : Prop where
  store : s' = (turns.flatMap (·.written)).foldl Store.give s
  texts : turns.map (·.call.texts) = (groups.take turns.length).map fun g => g.map (·.text)
  length : turns.length ≤ groups.length

theorem Gives.nil : Gives groups s [] s := ⟨rfl, rfl, Nat.zero_le _⟩

theorem Gives.cons {g : List Row} {turn : Turn (Row × Vector)} {turns : List (Turn (Row × Vector))}
    (hstore : s' = turn.written.foldl Store.give s) (htexts : turn.call.texts = g.map (·.text))
    {s'' : Store} (h : Gives groups s' turns s'') : Gives (g :: groups) s (turn :: turns) s'' where
  store := by rw [h.store, hstore, List.flatMap_cons, List.foldl_append]
  texts := by simp [h.texts, htexts]
  length := Nat.succ_le_succ h.length

/-- Whatever comes of filling in the vectors of groups with a provider that only refuses, it goes in
turns; the time was over if and only if it is over now and a group was not asked for. -/
theorem Fills.turned {v₀ : View} {before : List (Turn (Row × Vector))} {r : Except Failure Tally}
    (hrefuse : k.provider.OnlyRefuses) (h : Fills f k groups t v r v')
    (hbefore : Turns Row.gift k.provider k.deadline v₀ before v) :
    ∃ turns, Turns Row.gift k.provider k.deadline v₀ (before ++ turns) v' ∧
      Gives groups v.store turns v'.store ∧
      ∀ t', r = .ok t' → t.timedOut = false →
        (t'.timedOut = false → turns.length = groups.length) ∧
        (t'.timedOut = true ↔ k.deadline ≤ v'.clock ∧ turns.length < groups.length) := by
  -- what a turn writes comes from the reply to its request
  have gifts {g : List Row} {v : View} {vs : List Vector} {written : List (Row × Vector)}
      (reply : (k.reply v (g.map (·.text))).vectors = .ok vs) (hsub : written ⊆ g.zip vs) :
      ∀ e ∈ written, ∃ vs, (k.reply v (g.map (·.text))).vectors = .ok vs ∧
        Row.gift e ∈ (g.map (·.text)).zip vs := by
    intro e he
    refine ⟨vs, reply, ?_⟩
    rw [List.zip_map_left]
    exact List.mem_map.mpr ⟨e, hsub he, rfl⟩
  induction h generalizing before with
  | @done t v =>
    refine ⟨[], by rwa [List.append_nil], Gives.nil, fun t' ht' htime => ?_⟩
    cases ht'
    simp [htime]
  | @late g gs t v left =>
    refine ⟨[], by rwa [List.append_nil], Gives.nil, fun t' ht' _ => ?_⟩
    cases ht'
    refine ⟨fun hfalse => Bool.noConfusion hfalse, fun _ => ⟨by omega, ?_⟩, fun _ => rfl⟩
    exact Nat.succ_pos _
  | @refused g gs t v v' e r left reply _ ih =>
    have hnone : ∀ e ∈ ([] : List (Row × Vector)), ∃ vs,
        (k.reply v (g.map (·.text))).vectors = .ok vs ∧
          Row.gift e ∈ (g.map (·.text)).zip vs := fun e he => nomatch he
    obtain ⟨turns, hturns, hgives, hlate⟩ := ih (hbefore.concat left hnone)
    refine ⟨_ :: turns, by simpa using hturns, hgives.cons rfl rfl, fun t' ht' htime => ?_⟩
    simpa using hlate t' ht' htime
  | broken reply he =>
    obtain ⟨refusal, hr⟩ := hrefuse _ _ _ _ reply
    exact absurd hr (he refusal)
  | @filled g gs t t₁ v v' vs us s r left reply each _ ih =>
    obtain ⟨written, hsub, hs, htime₁⟩ := each.exists_given
    obtain ⟨turns, hturns, hgives, hlate⟩ :=
      ih (hbefore.concat left (gifts reply hsub.subset))
    refine ⟨_ :: turns, by simpa using hturns, hgives.cons hs rfl, fun t' ht' htime => ?_⟩
    simpa using hlate t' ht' (htime₁.trans htime)
  | @large g gs t t₁ v vs us s done e left reply hd each _ _ =>
    obtain ⟨written, hsub, hs, -⟩ := each.exists_given
    have hsubset : written ⊆ g.zip vs := List.Subset.trans hsub.subset hd.subset
    have hnext := hbefore.concat (s := s) left (gifts reply hsubset)
    exact ⟨[_], hnext, Gives.nil.cons hs rfl, fun t' ht' => nomatch ht'⟩

theorem Backfilled.turned {ix : Indexer} {r : Except Failure Tally} (hp : ix.provider = some p)
    (hrefuse : p.OnlyRefuses) (h : Backfilled f ix v r v') :
    ∃ turns, Turns Row.gift p (Ticks.deadline v.clock ix.timeout) v turns v' ∧
      Gives (Run.groupsOf ix.groupSize v.store.pending) v.store turns v'.store ∧
      ∀ t, r = .ok t →
        (t.timedOut = false →
          turns.length = (Run.groupsOf ix.groupSize v.store.pending).length) ∧
        (t.timedOut = true ↔
          Ticks.deadline v.clock ix.timeout ≤
              v.clock + p.spent v.requests.size (turns.map (·.call)) ∧
            turns.length < (Run.groupsOf ix.groupSize v.store.pending).length) := by
  have filling {r : Except Failure Tally} {v' : View} {p' : Provider} (hp' : ix.provider = some p')
      (hf : Fills f ⟨p', Ticks.deadline v.clock ix.timeout, ix.groupSize⟩
        (Run.groupsOf ix.groupSize v.store.pending) {} v r v') :
      ∃ turns, Turns Row.gift p (Ticks.deadline v.clock ix.timeout) v turns v' ∧
        Gives (Run.groupsOf ix.groupSize v.store.pending) v.store turns v'.store ∧
        ∀ t, r = .ok t →
          (t.timedOut = false →
            turns.length = (Run.groupsOf ix.groupSize v.store.pending).length) ∧
          (t.timedOut = true ↔
            Ticks.deadline v.clock ix.timeout ≤
                v.clock + p.spent v.requests.size (turns.map (·.call)) ∧
              turns.length < (Run.groupsOf ix.groupSize v.store.pending).length) := by
    cases hp.symm.trans hp'
    obtain ⟨turns, hturns, hgives, hlate⟩ := hf.turned hrefuse Turns.nil
    refine ⟨turns, hturns, hgives, fun t ht => ⟨(hlate t ht rfl).1,
      (hlate t ht rfl).2.trans (and_congr_left fun _ => ?_)⟩⟩
    have hclock : v'.clock = v.clock + p.spent v.requests.size (turns.map (·.call)) := hturns.clock
    rw [hclock]
  cases h with
  | noProvider hn => cases hn.symm.trans hp
  | unread _ => exact ⟨[], Turns.nil, Gives.nil, fun t ht => by cases ht⟩
  | idle hnone =>
    refine ⟨[], Turns.nil, Gives.nil, fun t ht => ?_⟩
    cases ht
    simp [hnone, Run.groupsOf, Run.groupsFrom]
  | failed hp' hf =>
    obtain ⟨turns, hturns, hgives, -⟩ := filling hp' hf
    exact ⟨turns, hturns, hgives, fun t ht => by cases ht⟩
  | @filled p' t v' hp' hf =>
    obtain ⟨turns, hturns, hgives, hlate⟩ := filling hp' hf
    refine ⟨turns, hturns, hgives, fun t' ht' => ?_⟩
    cases ht'
    exact hlate t rfl

end Filling

/-! ### Runs -/

namespace Run

variable {ix : Indexer} {w : World} {bs : List Block} {t₀ : Tally}

end Run

namespace Sample

/-- A world with rows that wait for their vectors. -/
def waiting : World where
  store := {
    rows := [5, 6, 7].map fun n =>
      { id := n, block := line n, vector := none, text := (line n).embeddingText,
        createdAt := none }
    lastId := 7 }

end Sample

end BlockIndex
