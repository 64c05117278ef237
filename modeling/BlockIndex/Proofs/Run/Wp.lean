import BlockIndex.Run.Request

/-! Preconditions of runs.  `wp f x Q v` says that the run `x`, in every world with the refusals `f`
that shows `v`, ends with an outcome that satisfies `Q` and leaves the refusals as they are.  A view
shows what later steps depend on; the log and the count of calls are not part of it.  There is one
rule for each thing that a run can do. -/

namespace BlockIndex

/-- What a world shows of itself. -/
structure View where
  store : Store
  clock : Int
  requests : Array ProviderCall

def World.view (w : World) : View := ⟨w.store, w.clock, w.requests⟩

/-- The store of a world is a given one, but for the time that is noted for new rows, and refuses no
call. -/
structure World.Serves (w : World) (s : Store) : Prop where
  faults : w.faults = Faults.none
  store : ∃ time, w.store = { s with now := time }

theorem World.Serves.isOpen {w : World} {s : Store} (h : w.Serves s) (hs : s.isClosed = false) :
    w.store.isClosed = false := by
  obtain ⟨time, hw⟩ := h.store
  rw [hw]
  exact hs

/-- A store may refuse a call when it is closed or when there is a refusal for the call. -/
def Store.Refuses (s : Store) (f : Faults) (c : StoreCall) : Prop :=
  s.isClosed = true ∨ ∃ i text, f i c = some text

theorem Store.not_refuses_of {s : Store} {f : Faults} {c : StoreCall} (h : s.isClosed = false)
    (hf : ∀ i, f i c = none) : ¬s.Refuses f c := by
  rintro (hc | ⟨i, text, ht⟩)
  · rw [h] at hc
    cases hc
  · rw [hf] at ht
    cases ht

theorem Store.not_refuses {s : Store} {c : StoreCall} (h : s.isClosed = false) :
    ¬s.Refuses Faults.none c :=
  Store.not_refuses_of h fun _ => rfl

namespace Run

variable {α β : Type}

/-- What a run gives from a world, and the world after it. -/
def outcome (x : Run α) (w : World) : Except Failure α × World := x.run.run w

theorem outcome_bind (x : Run α) (g : α → Run β) (w : World) :
    outcome (x >>= g) w = match outcome x w with
      | (.ok a, w') => outcome (g a) w'
      | (.error e, w') => (.error e, w') := by
  simp only [outcome, ExceptT.run_bind, StateT.run_bind]
  cases h : x.run.run w with
  | mk r w' => cases r <;> rfl

theorem outcome_map (g : α → β) (x : Run α) (w : World) :
    outcome (g <$> x) w = ((outcome x w).1.map g, (outcome x w).2) := by
  rw [map_eq_pure_bind, outcome_bind]
  cases outcome x w with
  | mk r w' => cases r <;> rfl

theorem outcome_attempt (x : Run α) (w : World) :
    outcome (attempt x) w = match outcome x w with
      | (.ok a, w') => (.ok (.ok a), w')
      | (.error (.store e), w') => (.ok (.error e), w')
      | (.error e, w') => (.error e, w') := by
  simp only [outcome, attempt, ExceptT.run_mk, StateT.run_bind]
  cases h : x.run.run w with
  | mk r w' =>
    cases r with
    | ok a => rfl
    | error e => cases e <;> rfl

theorem outcome_call (c : StoreCall) (act : Store → Except StoreError (α × Store)) (w : World) :
    outcome (call c act) w =
      let w' := { w with calls := w.calls + 1 }
      let refused := { w' with refused := w.refused.push c }
      match w.faults w.calls c with
      | some text => (.error (.store (.refused text)), refused)
      | none =>
        if w.store.isClosed then (.error (.store (.closed c)), refused)
        else if !c.fits then (.error .tooLarge, w')
        else match act w.store with
          | .error e => (.error (.store e), refused)
          | .ok (a, s) => (.ok a, { w' with store := s }) := by
  unfold outcome call
  show (match w.faults w.calls c with | some _ => _ | none => _ : Run α).run.run
    { w with calls := w.calls + 1 } = _
  cases w.faults w.calls c with
  | some text => rfl
  | none =>
    simp only
    split
    · rfl
    · split
      · rfl
      · cases act w.store <;> rfl

/-- In every world with the refusals `f` that shows `v`, the outcome of `x` satisfies `Q`. -/
def wp (f : Faults) (x : Run α) (Q : Except Failure α → View → Prop) (v : View) : Prop :=
  ∀ w : World, w.faults = f → w.view = v →
    (outcome x w).2.faults = f ∧ Q (outcome x w).1 (outcome x w).2.view

/-- What has to hold after a part whose result the run `g` goes on with. -/
def andThen (f : Faults) (g : α → Run β) (Q : Except Failure β → View → Prop) :
    Except Failure α → View → Prop
  | .ok a, v => wp f (g a) Q v
  | .error e, v => Q (.error e) v

/-- What has to hold after a part whose refusals are caught. -/
def caught (Q : Except Failure (Except StoreError α) → View → Prop) :
    Except Failure α → View → Prop
  | .ok a, v => Q (.ok (.ok a)) v
  | .error (.store e), v => Q (.ok (.error e)) v
  | .error e, v => Q (.error e) v

variable {f : Faults} {v : View} {Q : Except Failure α → View → Prop}

/-- The precondition of a run says what comes of it in a world. -/
theorem wp.at_world {x : Run α} {w : World} (h : wp w.faults x Q w.view) :
    Q (outcome x w).1 (outcome x w).2.view :=
  (h w rfl rfl).2

theorem wp.mono {x : Run α} {Q' : Except Failure α → View → Prop} (h : wp f x Q v)
    (hQ : ∀ r v', Q r v' → Q' r v') : wp f x Q' v :=
  fun w hf hv => ⟨(h w hf hv).1, hQ _ _ (h w hf hv).2⟩

theorem wp_pure {a : α} (h : Q (.ok a) v) : wp f (pure a) Q v := by
  rintro w rfl rfl
  exact ⟨rfl, h⟩

theorem wp_throw {e : Failure} (h : Q (.error e) v) : wp f (throw e) Q v := by
  rintro w rfl rfl
  exact ⟨rfl, h⟩

theorem wp_bind {x : Run α} {g : α → Run β} {Q : Except Failure β → View → Prop}
    (h : wp f x (andThen f g Q) v) : wp f (x >>= g) Q v := by
  intro w hf hv
  obtain ⟨hf', hQ⟩ := h w hf hv
  rw [outcome_bind]
  cases hx : outcome x w with
  | mk r w' =>
    rw [hx] at hf' hQ
    cases r with
    | ok a => exact hQ w' hf' rfl
    | error e => exact ⟨hf', hQ⟩

theorem wp_attempt {x : Run α} {Q : Except Failure (Except StoreError α) → View → Prop}
    (h : wp f x (caught Q) v) : wp f (attempt x) Q v := by
  intro w hf hv
  obtain ⟨hf', hQ⟩ := h w hf hv
  rw [outcome_attempt]
  cases hx : outcome x w with
  | mk r w' =>
    rw [hx] at hf' hQ
    cases r with
    | ok a => exact ⟨hf', hQ⟩
    | error e => cases e <;> exact ⟨hf', hQ⟩

/-! ### Logging and the clock -/

section Quiet

variable {Q : Except Failure Unit → View → Prop}

theorem wp_log {l : LogLine} (h : Q (.ok ()) v) : wp f (log l) Q v := by
  rintro w rfl rfl
  exact ⟨rfl, h⟩

theorem wp_debug {text : String} (h : Q (.ok ()) v) : wp f (debug text) Q v := wp_log h

theorem wp_info {text : String} (h : Q (.ok ()) v) : wp f (info text) Q v := wp_log h

theorem wp_warn {text : String} (h : Q (.ok ()) v) : wp f (warn text) Q v := wp_log h

/-- A log line for each element of a list. -/
theorem wp_forM_log {line : β → Run Unit}
    (hline : ∀ {x : β} {Q : Except Failure Unit → View → Prop}, Q (.ok ()) v → wp f (line x) Q v)
    (xs : List β) (h : Q (.ok ()) v) : wp f (xs.forM line) Q v := by
  induction xs with
  | nil => exact wp_pure h
  | cons x xs ih => exact wp_bind (hline ih)

theorem wp_logAll {ls : List LogLine} (h : Q (.ok ()) v) : wp f (logAll ls) Q v :=
  wp_forM_log wp_log ls h

end Quiet

theorem wp_clock {Q : Except Failure Int → View → Prop} (h : Q (.ok v.clock) v) :
    wp f clock Q v := by
  rintro w rfl rfl
  exact ⟨rfl, h⟩

/-! ### Calls to the store -/

/-- A call is refused, does not fit, fails in the store's own terms, or changes the store. -/
theorem wp_call {c : StoreCall} {act : Store → Except StoreError (α × Store)}
    (refused : v.store.Refuses f c → ∀ e, Q (.error (.store e)) v)
    (large : c.fits = false → Q (.error .tooLarge) v)
    (failed : ∀ e, act v.store = .error e → Q (.error (.store e)) v)
    (done : c.fits = true → ∀ a s, act v.store = .ok (a, s) → Q (.ok a) { v with store := s }) :
    wp f (call c act) Q v := by
  rintro w rfl rfl
  rw [outcome_call]
  cases hf : w.faults w.calls c with
  | some text => exact ⟨rfl, refused (.inr ⟨_, _, hf⟩) _⟩
  | none =>
    simp only
    split
    · exact ⟨rfl, refused (.inl ‹_›) _⟩
    · split
      · exact ⟨rfl, large (by simpa using ‹(!c.fits) = true›)⟩
      · cases ha : act w.store with
        | error e => exact ⟨rfl, failed e ha⟩
        | ok r => exact ⟨rfl, done (by simpa using ‹¬(!c.fits) = true›) r.1 r.2 ha⟩

theorem wp_ask {c : StoreCall} {g : Store → α}
    (refused : v.store.Refuses f c → ∀ e, Q (.error (.store e)) v)
    (large : c.fits = false → Q (.error .tooLarge) v)
    (done : c.fits = true → Q (.ok (g v.store)) v) : wp f (ask c g) Q v := by
  refine wp_call refused large (fun e h => nomatch h) fun hc a s h => ?_
  cases h
  exact done hc

/-- What is read of a store that refuses no call. -/
theorem outcome_ask {c : StoreCall} {g : Store → α} {w : World}
    (hw : w.faults = Faults.none) (hopen : w.store.isClosed = false) (hfits : c.fits = true) :
    (outcome (ask c g) w).1 = .ok (g w.store) := by
  have hrun : wp w.faults (ask c g) (fun r _ => r = .ok (g w.store)) w.view := by
    apply wp_ask
    · exact fun hr => absurd (hw ▸ hr) (Store.not_refuses hopen)
    · exact fun hl => absurd (hl.symm.trans hfits) Bool.false_ne_true
    · exact fun _ => rfl
  exact hrun.at_world

theorem wp_fingerprint {path : String} {Q : Except Failure (Option String) → View → Prop}
    (refused : v.store.Refuses f (.fingerprint path) → ∀ e, Q (.error (.store e)) v)
    (done : Q (.ok (v.store.fingerprint? path)) v) : wp f (fingerprint path) Q v :=
  wp_ask refused (fun h => nomatch h) fun _ => done

theorem wp_tracked {Q : Except Failure (List String) → View → Prop}
    (refused : v.store.Refuses f .tracked → ∀ e, Q (.error (.store e)) v)
    (done : Q (.ok v.store.tracked) v) : wp f tracked Q v :=
  wp_ask refused (fun h => nomatch h) fun _ => done

theorem wp_pending {Q : Except Failure (List Row) → View → Prop}
    (refused : v.store.Refuses f .pending → ∀ e, Q (.error (.store e)) v)
    (done : Q (.ok v.store.pending) v) : wp f pending Q v :=
  wp_ask refused (fun h => nomatch h) fun _ => done

theorem wp_holds {b : Block} {Q : Except Failure Bool → View → Prop}
    (refused : v.store.Refuses f (.holds b) → ∀ e, Q (.error (.store e)) v)
    (large : ¬b.span.last < StoreCall.limit → Q (.error .tooLarge) v)
    (done : b.span.last < StoreCall.limit → Q (.ok (v.store.holds b)) v) : wp f (holds b) Q v :=
  wp_ask refused (fun h => large (of_decide_eq_false h)) fun h => done (of_decide_eq_true h)

section Change

variable {Q : Except Failure Unit → View → Prop}

theorem wp_setFingerprint {path text : String}
    (refused : v.store.Refuses f (.setFingerprint path text) → ∀ e, Q (.error (.store e)) v)
    (done : Q (.ok ()) { v with store := v.store.setFingerprint path text }) :
    wp f (setFingerprint path text) Q v := by
  refine wp_call refused (fun h => nomatch h) (fun e h => nomatch h) fun _ a s h => ?_
  cases h
  exact done

theorem wp_dropFingerprint {path : String}
    (refused : v.store.Refuses f (.dropFingerprint path) → ∀ e, Q (.error (.store e)) v)
    (done : Q (.ok ()) { v with store := v.store.dropFingerprint path }) :
    wp f (dropFingerprint path) Q v := by
  refine wp_call refused (fun h => nomatch h) (fun e h => nomatch h) fun _ a s h => ?_
  cases h
  exact done

/-- Setting a vector fails also when there is no such row. -/
theorem wp_setVector {id : Int} {vec : Vector}
    (refused : v.store.Refuses f (.setVector id) ∨ v.store.setVector? id vec = none →
      ∀ e, Q (.error (.store e)) v)
    (large : ¬(-StoreCall.limit ≤ id ∧ id < StoreCall.limit) → Q (.error .tooLarge) v)
    (done : ∀ s, v.store.setVector? id vec = some s → Q (.ok ()) { v with store := s }) :
    wp f (setVector id vec) Q v := by
  refine wp_call (fun h => refused (.inl h)) (fun h => ?_) (fun e h => ?_) fun _ a s h => ?_
  · refine large fun hid => ?_
    simp only [StoreCall.fits, Bool.and_eq_false_iff, decide_eq_false_iff_not] at h
    omega
  · split at h
    · cases h
    · exact refused (.inr ‹_›) e
  · split at h
    · cases h
      exact done _ ‹_›
    · cases h

end Change

theorem wp_deleteBlocks {path : String} {Q : Except Failure Nat → View → Prop}
    (refused : v.store.Refuses f (.deleteBlocks path) → ∀ e, Q (.error (.store e)) v)
    (done : ∀ n, Q (.ok n) { v with store := v.store.deleteBlocks path }) :
    wp f (deleteBlocks path) Q v := by
  refine wp_call refused (fun h => nomatch h) (fun e h => nomatch h) fun _ a s h => ?_
  cases h
  exact done _

/-- Saving a block fails also when its place is taken. -/
theorem wp_save {b : Block} {vec : Option Vector} {text : String}
    {Q : Except Failure Nat → View → Prop}
    (refused : v.store.Refuses f (.save b) ∨ v.store.save? b vec text = none →
      ∀ e, Q (.error (.store e)) v)
    (large : ¬b.span.last < StoreCall.limit → Q (.error .tooLarge) v)
    (done : ∀ id s, v.store.save? b vec text = some (id, s) → Q (.ok id) { v with store := s }) :
    wp f (save b vec text) Q v := by
  refine wp_call (fun h => refused (.inl h)) (fun h => large (of_decide_eq_false h))
    (fun e h => ?_) fun _ a s h => ?_
  · split at h
    · cases h
    · exact refused (.inr ‹_›) e
  · split at h
    · cases h
      exact done _ _ ‹_›
    · cases h

end Run

end BlockIndex
