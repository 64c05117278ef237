import BlockIndex.Proofs.Run.Wp
import BlockIndex.Proofs.Store.Basic

/-! Changes that are asked of a store.  A change either has its effect, which is a function of the
store, or it fails and leaves the store as it is. -/

namespace BlockIndex

open Run

/-- A change that is asked of a store. -/
inductive Edit where
  | save (b : Block) (vector : Option Vector) (text : String)
  | setVector (id : Int) (v : Vector)
  | deleteBlocks (path : String)
  | setFingerprint (path text : String)
  | dropFingerprint (path : String)
  deriving DecidableEq, Repr

namespace Edit

/-- What a change gives: the number of a new row or how many rows were removed, if anything. -/
inductive Answer where
  | row (id : Nat)
  | removed (count : Nat)
  | done
  deriving DecidableEq, Repr

def run : Edit → Run Answer
  | save b vector text => do return .row (← Run.save b vector text)
  | setVector id v => do Run.setVector id v; return .done
  | deleteBlocks path => do return .removed (← Run.deleteBlocks path)
  | setFingerprint path text => do Run.setFingerprint path text; return .done
  | dropFingerprint path => do Run.dropFingerprint path; return .done

def call : Edit → StoreCall
  | save b _ _ => .save b
  | setVector id _ => .setVector id
  | deleteBlocks path => .deleteBlocks path
  | setFingerprint path text => .setFingerprint path text
  | dropFingerprint path => .dropFingerprint path

/-- What a change gives and the store after it, unless the store cannot take it. -/
def effect? : Edit → Store → Option (Answer × Store)
  | save b vector text, s => (s.save? b vector text).map fun r => (.row r.1, r.2)
  | setVector id v, s => (s.setVector? id v).map fun s => (.done, s)
  | deleteBlocks path, s => some (.removed (s.rowsOf path).length, s.deleteBlocks path)
  | setFingerprint path text, s => some (.done, s.setFingerprint path text)
  | dropFingerprint path, s => some (.done, s.dropFingerprint path)

section Effect

variable {s s' : Store} {a : Answer}

theorem effect?_save {b : Block} {vector : Option Vector} {text : String} :
    (save b vector text).effect? s = some (a, s') ↔ s.isTaken b = false ∧ a = .row (s.lastId + 1) ∧
      s' = { s with rows := s.rows ++ [s.newRow b vector text], lastId := s.lastId + 1 } := by
  rw [effect?, Option.map_eq_some_iff]
  constructor
  · rintro ⟨⟨id, s₁⟩, hs, heq⟩
    cases heq
    obtain ⟨hfree, rfl, rfl⟩ := Store.save?_eq_some.mp hs
    exact ⟨hfree, rfl, rfl⟩
  · rintro ⟨hfree, rfl, rfl⟩
    exact ⟨_, Store.save?_eq_some.mpr ⟨hfree, rfl, rfl⟩, rfl⟩

theorem effect?_setVector {id : Int} {v : Vector} :
    (setVector id v).effect? s = some (a, s') ↔ (∃ r ∈ s.rows, (r.id : Int) = id) ∧ a = .done ∧
      s' = { s with rows := s.rows.map fun r =>
              if (r.id : Int) = id then { r with vector := some v } else r } := by
  have hany : (s.rows.any fun r => (r.id : Int) == id) = true ↔ ∃ r ∈ s.rows, (r.id : Int) = id := by
    simp
  rw [effect?, Store.setVector?, ← hany]
  cases s.rows.any fun r => (r.id : Int) == id with
  | true =>
    rw [if_pos rfl, Option.map_some, Option.some.injEq, Prod.mk.injEq]
    simp [eq_comm]
  | false => simp

end Effect

/-- A change is refused, does not fit, cannot be taken, or has its effect. -/
theorem wp_run {f : Faults} {v : View} {e : Edit} {Q : Except Failure Answer → View → Prop}
    (refused : v.store.Refuses f e.call → ∀ err, Q (.error (.store err)) v)
    (large : e.call.fits = false → Q (.error .tooLarge) v)
    (failed : e.effect? v.store = none → ∀ err, Q (.error (.store err)) v)
    (done : ∀ a s, e.effect? v.store = some (a, s) → Q (.ok a) { v with store := s }) :
    wp f e.run Q v := by
  cases e with
  | save b vector text =>
    refine wp_bind (wp_save (fun h err => ?_) (fun h => large (decide_eq_false h))
      fun id s hs => wp_pure (done _ _ (by simp [effect?, hs])))
    rcases h with h | h
    · exact refused h err
    · exact failed (by simp [effect?, h]) err
  | setVector id x =>
    refine wp_bind (wp_setVector (fun h err => ?_) (fun h => large ?_)
      fun s hs => wp_pure (done _ _ (by simp [effect?, hs])))
    · rcases h with h | h
      · exact refused h err
      · exact failed (by simp [effect?, h]) err
    · simpa [call, StoreCall.fits] using h
  | deleteBlocks path =>
    refine wp_bind (wp_call refused large (fun err h => by cases h) fun _ n s h => wp_pure ?_)
    cases h
    exact done _ _ rfl
  | setFingerprint path text =>
    exact wp_bind (wp_setFingerprint refused (wp_pure (done _ _ rfl)))
  | dropFingerprint path =>
    exact wp_bind (wp_dropFingerprint refused (wp_pure (done _ _ rfl)))

/-- A change either has its effect or, when it fails, none. -/
theorem outcome_run (e : Edit) (w : World) :
    (∃ a, (outcome e.run w).1 = .ok a ∧
      e.effect? w.store = some (a, (outcome e.run w).2.store)) ∨
    ∃ err, (outcome e.run w).1 = .error err ∧ (outcome e.run w).2.store = w.store := by
  have hrun : wp w.faults e.run (fun r v =>
      (∃ a, r = .ok a ∧ e.effect? w.store = some (a, v.store)) ∨
        ∃ err, r = .error err ∧ v.store = w.store) w.view := by
    apply wp_run
    · exact fun _ err => .inr ⟨_, rfl, rfl⟩
    · exact fun _ => .inr ⟨_, rfl, rfl⟩
    · exact fun _ err => .inr ⟨_, rfl, rfl⟩
    · exact fun a s h => .inl ⟨a, rfl, h⟩
  exact hrun.at_world

theorem of_setVector_done {w : World} {id : Int} {v : Vector} {a : Answer}
    (h : (outcome (setVector id v).run w).1 = .ok a) :
    (∃ r ∈ w.store.rows, (r.id : Int) = id) ∧ (outcome (setVector id v).run w).2.store =
      { w.store with rows := w.store.rows.map fun r =>
          if (r.id : Int) = id then { r with vector := some v } else r } := by
  rcases outcome_run (setVector id v) w with ⟨a', -, heff⟩ | ⟨err, herr, -⟩
  · obtain ⟨hrow, -, hs⟩ := effect?_setVector.mp heff
    exact ⟨hrow, hs⟩
  · cases h.symm.trans herr

/-- In a store that refuses no call a change has its effect, if it has one. -/
theorem outcome_of_effect {e : Edit} {w : World} {a : Answer} {s' : Store}
    (hw : w.faults = Faults.none)
    (hopen : w.store.isClosed = false) (hfits : e.call.fits = true)
    (h : e.effect? w.store = some (a, s')) :
    (outcome e.run w).1 = .ok a ∧ (outcome e.run w).2.store = s' := by
  have hrun : wp w.faults e.run (fun r v => r = .ok a ∧ v.store = s') w.view := by
    apply wp_run
    · exact fun hr => absurd (hw ▸ hr) (Store.not_refuses hopen)
    · exact fun hl => absurd (hl.symm.trans hfits) Bool.false_ne_true
    · exact fun hn => by cases hn.symm.trans h
    · intro a' s'' h'
      cases h.symm.trans h'
      exact ⟨rfl, rfl⟩
  exact hrun.at_world

theorem outcome_of_effect_eq_none {e : Edit} {w : World} (hfits : e.call.fits = true)
    (h : e.effect? w.store = none) : ∃ err, (outcome e.run w).1 = .error (.store err) := by
  have hrun : wp w.faults e.run (fun r _ => ∃ err, r = .error (.store err)) w.view := by
    apply wp_run
    · exact fun _ err => ⟨err, rfl⟩
    · exact fun hl => absurd (hl.symm.trans hfits) Bool.false_ne_true
    · exact fun _ err => ⟨err, rfl⟩
    · exact fun a s hs => nomatch h.symm.trans hs
  exact hrun.at_world

end Edit

end BlockIndex
