import BlockIndex.Proofs.Run.Saving
import BlockIndex.Run.Backfill

/-! What filling in vectors can do to a world.  The rows that waited at the start are taken in
groups; for each group a request is made, and the vectors that it brings are set one after the
other. `wp_backfill` says that every outcome is one of `Backfilled`. -/

namespace BlockIndex

variable {f : Faults} {v v' : View}

/-- What may become of setting the vector of a row. -/
inductive Filled (f : Faults) : Row × Vector → Tally × Store → Unit → Tally × Store → Prop
  | filled {r : Row} {x : Vector} {t : Tally} {s s' : Store} (h : s.setVector? r.id x = some s') :
      Filled f (r, x) (t, s) () (t, s')
  | missed {r : Row} {x : Vector} {t : Tally} {s : Store}
      (h : s.Refuses f (.setVector r.id) ∨ s.setVector? r.id x = none) :
      Filled f (r, x) (t, s) () (t.fail 1, s)

/-- The numbers after vectors came. -/
def Tally.deliver (t : Tally) (n : Nat) : Tally := { t with generated := t.generated + n }

/-- What may come of filling in the vectors of groups of rows. -/
inductive Fills (f : Faults) (c : Supply) :
    List (List Row) → Tally → View → Except Failure Tally → View → Prop
  | done {t : Tally} {v : View} : Fills f c [] t v (.ok t) v
  | late {g : List Row} {gs : List (List Row)} {t : Tally} {v : View}
      (left : c.deadline - v.clock ≤ 0) :
      Fills f c (g :: gs) t v (.ok { t with timedOut := true }) v
  | refused {g : List Row} {gs : List (List Row)} {t : Tally} {v v' : View} {e : ProviderError}
      {r : Except Failure Tally} (left : 0 < c.deadline - v.clock)
      (reply : (c.reply v (g.map (·.text))).vectors = .error (.provider e))
      (rest : Fills f c gs (t.fail g.length) (c.after v (g.map (·.text))) r v') :
      Fills f c (g :: gs) t v r v'
  /-- The provider fails in a way that is not foreseen. -/
  | broken {g : List Row} {gs : List (List Row)} {t : Tally} {v : View} {e : ServiceError}
      (reply : (c.reply v (g.map (·.text))).vectors = .error e) (he : ∀ pe, e ≠ .provider pe) :
      Fills f c (g :: gs) t v (.error (.service e)) (c.after v (g.map (·.text)))
  | filled {g : List Row} {gs : List (List Row)} {t t' : Tally} {v v' : View} {vs : List Vector}
      {us : List Unit} {s : Store} {r : Except Failure Tally} (left : 0 < c.deadline - v.clock)
      (reply : (c.reply v (g.map (·.text))).vectors = .ok vs)
      (each : Each (Filled f) (g.zip vs) (t.deliver vs.length, v.store) us (t', s))
      (rest : Fills f c gs t' { c.after v (g.map (·.text)) with store := s } r v') :
      Fills f c (g :: gs) t v r v'
  /-- The number of a row does not fit the store. -/
  | large {g : List Row} {gs : List (List Row)} {t t' : Tally} {v : View} {vs : List Vector}
      {us : List Unit} {s : Store} {done : List (Row × Vector)} {e : Row × Vector}
      (left : 0 < c.deadline - v.clock) (reply : (c.reply v (g.map (·.text))).vectors = .ok vs)
      (hd : done <+: g.zip vs)
      (each : Each (Filled f) done (t.deliver vs.length, v.store) us (t', s)) (he : e ∈ g.zip vs)
      (hl : ¬e.1.id < StoreCall.limit) :
      Fills f c (g :: gs) t v (.error .tooLarge) { c.after v (g.map (·.text)) with store := s }

/-- What may come of filling in the vectors of a store. -/
inductive Backfilled (f : Faults) (ix : Indexer) (v : View) : Except Failure Tally → View → Prop
  | noProvider (h : ix.provider = none) :
      Backfilled f ix v (.error (.setup .noProviderForPending)) v
  | unread {e : StoreError} (h : v.store.Refuses f .pending) :
      Backfilled f ix v (.error (.store e)) v
  | idle (h : v.store.pending = []) : Backfilled f ix v (.ok {}) v
  | failed {p : Provider} {e : Failure} {v' : View} (hp : ix.provider = some p)
      (fills : Fills f ⟨p, Ticks.deadline v.clock ix.timeout, ix.groupSize⟩
        (Run.groupsOf ix.groupSize v.store.pending) {} v (.error e) v') :
      Backfilled f ix v (.error e) v'
  | filled {p : Provider} {t : Tally} {v' : View} (hp : ix.provider = some p)
      (fills : Fills f ⟨p, Ticks.deadline v.clock ix.timeout, ix.groupSize⟩
        (Run.groupsOf ix.groupSize v.store.pending) {} v (.ok t) v') :
      Backfilled f ix v (.ok { t with elapsed := some (Ticks.round (v'.clock - v.clock)) }) v'

namespace Run

/-- The groups together hold the elements of the open group and those to come. -/
theorem flatten_groupsFrom {α : Type} (size : Nat) (group xs : List α) :
    (groupsFrom size group xs).flatten = group ++ xs := by
  induction xs generalizing group with
  | nil =>
    unfold groupsFrom
    split
    · next h => simp [List.isEmpty_iff.mp h]
    · simp
  | cons x xs ih =>
    unfold groupsFrom
    split
    · simp [ih]
    · simp [ih]

@[simp] theorem flatten_groupsOf {α : Type} (size : Nat) (xs : List α) :
    (groupsOf size xs).flatten = xs :=
  flatten_groupsFrom size [] xs

theorem wp_fillGroup {group : List (Row × Vector)} {t : Tally}
    {Q : Except Failure Tally → View → Prop}
    (large : ∀ done us t' s, done <+: group → Each (Filled f) done (t, v.store) us (t', s) →
      ∀ e ∈ group, ¬e.1.id < StoreCall.limit → Q (.error .tooLarge) { v with store := s })
    (h : ∀ us t' s, Each (Filled f) group (t, v.store) us (t', s) →
      Q (.ok t') { v with store := s }) : wp f (fillGroup group t) Q v := by
  induction group generalizing t v Q with
  | nil => exact wp_pure (h _ _ _ .nil)
  | cons e group ih =>
    obtain ⟨r, x⟩ := e
    refine wp_bind (wp_attempt (wp_setVector (fun hr e => ?_) (fun hl => ?_) fun s hs => ?_))
    · refine wp_bind (wp_warn (ih (fun done us t' s hd he e hm hl => ?_) fun us t' s he => ?_))
      · exact large _ _ t' s (List.cons_prefix_cons.mpr ⟨rfl, hd⟩) (.cons (.missed hr) he) e
          (List.mem_cons_of_mem _ hm) hl
      · exact h _ t' s (.cons (.missed hr) he)
    · exact large [] [] t v.store List.nil_prefix .nil (r, x) List.mem_cons_self fun hlt =>
        hl ⟨by omega, by exact_mod_cast hlt⟩
    · refine ih (fun done us t' s' hd he e hm hl => ?_) fun us t' s' he => ?_
      · exact large _ _ t' s' (List.cons_prefix_cons.mpr ⟨rfl, hd⟩) (.cons (.filled hs) he) e
          (List.mem_cons_of_mem _ hm) hl
      · exact h _ t' s' (.cons (.filled hs) he)

theorem wp_fillGroups {ix : Indexer} {c : Supply} {groups : List (List Row)} {t : Tally}
    {Q : Except Failure Tally → View → Prop} (h : ∀ r v', Fills f c groups t v r v' → Q r v') :
    wp f (fillGroups ix c.provider c.deadline groups t) Q v := by
  induction groups generalizing t v Q with
  | nil => exact wp_pure (h _ _ .done)
  | cons g gs ih =>
    refine wp_bind (wp_request (fun hl => ?_) (fun left e hr => ?_) (fun e hr he => ?_)
      fun left vs hr => ?_)
    · exact wp_bind (wp_warn (wp_pure (h _ _ (.late hl))))
    · exact ih fun r v' hf => h r v' (.refused left hr hf)
    · exact h _ _ (.broken hr he)
    · refine wp_bind (wp_fillGroup (fun done us t' s hd he e hm hl => ?_) fun us t' s he => ?_)
      · exact h _ _ (.large left hr hd he hm hl)
      · exact ih fun r v' hf => h r v' (.filled left hr he hf)

theorem wp_backfill {ix : Indexer} {Q : Except Failure Tally → View → Prop}
    (h : ∀ r v', Backfilled f ix v r v' → Q r v') : wp f (backfill ix) Q v := by
  unfold backfill
  cases hp : ix.provider with
  | none => exact wp_throw (h _ _ (.noProvider hp))
  | some p =>
    refine wp_bind (wp_clock (wp_bind (wp_pending (fun hr e => h _ _ (.unread hr)) ?_)))
    show wp f (if v.store.pending.isEmpty = true then _ else _) Q v
    split
    · next he => exact wp_bind (wp_info (wp_pure (h _ _ (.idle (List.isEmpty_iff.mp he)))))
    · refine wp_bind (wp_info (wp_bind (wp_clock (wp_bind ?_))))
      refine wp_fillGroups (c := ⟨p, Ticks.deadline v.clock ix.timeout, ix.groupSize⟩) fun r v' hf => ?_
      cases r with
      | error e => exact h _ _ (.failed hp hf)
      | ok t =>
        have hx := Backfilled.filled hp hf
        exact wp_bind (wp_clock (wp_bind (wp_logAll (wp_pure (h _ _ hx)))))

/-- Whatever comes of filling in vectors is one of the known outcomes. -/
theorem backfilled_outcome (ix : Indexer) (w : World) :
    Backfilled w.faults ix w.view (outcome (backfill ix) w).1 (outcome (backfill ix) w).2.view :=
  wp.at_world (wp_backfill fun _ _ h => h)

end Run

end BlockIndex
