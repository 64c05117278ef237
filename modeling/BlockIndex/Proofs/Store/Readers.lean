import BlockIndex.Proofs.Store.Journal
import BlockIndex.Store.Statistics

/-! Readers of a store.  Two of them look at whether a row has a vector at all, and the record of a
row says whether it has one that is not empty.  They agree as long as no row has an empty vector.
Saving a block with an empty vector stores none, but setting an empty vector stores it. -/

namespace BlockIndex

open Run

/-- All that is read of a world says the same of which rows have a vector. -/
def World.ReadersAgree (w : World) : Prop :=
  ∃ rows n, (outcome Run.rows w).1 = .ok rows ∧
    (outcome pending w).1 = .ok (rows.filter fun r => !r.hasVector) ∧
    (outcome vectors w).1 = .ok ((rows.filter (·.hasVector)).map (·.components)) ∧
    (outcome statistics w).1 = .ok n ∧ n.withVector = (rows.filter (·.hasVector)).length ∧
    n.withoutVector = (rows.filter fun r => !r.hasVector).length

namespace Store

variable {s : Store}

theorem filterMap_vector {rows : List Row} (h : ∀ r ∈ rows, r.vector ≠ some []) :
    rows.filterMap (·.vector) = (rows.filter (·.hasVector)).map (·.components) := by
  induction rows with
  | nil => rfl
  | cons r rows ih =>
    rw [List.forall_mem_cons] at h
    cases hv : r.vector with
    | none =>
      have hnot : r.hasVector = false := by simp [Row.hasVector, Row.components, hv]
      rw [List.filterMap_cons_none hv, List.filter_cons_of_neg (by simp [hnot]), ih h.2]
    | some v =>
      have hne : v ≠ [] := fun hnil => h.1 (hnil ▸ hv)
      have hhas : r.hasVector = true := by simp [Row.hasVector, Row.components, hv, hne]
      rw [List.filterMap_cons_some hv, List.filter_cons_of_pos hhas, List.map_cons, ih h.2]
      simp [Row.components, hv]

theorem isPending_eq_not_hasVector {r : Row} (h : r.vector ≠ some []) :
    r.isPending = !r.hasVector := by
  unfold Row.isPending Row.hasVector Row.components
  cases hv : r.vector with
  | none => rfl
  | some v =>
    cases v with
    | nil => exact absurd hv h
    | cons x xs => rfl

end Store

/-- The readers agree exactly if no row has an empty vector. -/
theorem World.readersAgree_iff_rows {w : World} (hw : w.faults = Faults.none)
    (hopen : w.store.isClosed = false) :
    w.ReadersAgree ↔ ∀ r ∈ w.store.rows, r.vector ≠ some [] := by
  have hrows : (outcome Run.rows w).1 = .ok w.store.rows := outcome_ask hw hopen rfl
  have hpending : (outcome pending w).1 = .ok w.store.pending := outcome_ask hw hopen rfl
  have hvectors : (outcome vectors w).1 = .ok w.store.vectors := outcome_ask hw hopen rfl
  have hstatistics : (outcome statistics w).1 = .ok w.store.statistics := outcome_ask hw hopen rfl
  constructor
  · rintro ⟨rows, -, hread, hwait, -⟩ r hr hempty
    rw [hrows] at hread
    cases hread
    rw [hpending] at hwait
    -- the row shows no vector, so it should be among those that wait for one
    have hmem : r ∈ w.store.pending := by
      rw [Except.ok.inj hwait]
      exact List.mem_filter.mpr ⟨hr, by simp [Row.hasVector, Row.components, hempty]⟩
    have hnone := (List.mem_filter.mp hmem).2
    rw [Row.isPending, hempty] at hnone
    cases hnone
  · intro h
    refine ⟨_, _, hrows, ?_, ?_, hstatistics, ?_, ?_⟩
    · rw [hpending, Store.pending]
      exact congrArg _ (List.filter_congr fun r hr => Store.isPending_eq_not_hasVector (h r hr))
    · rw [hvectors, Store.vectors, Store.filterMap_vector h]
    · rw [Store.statistics, Store.vectors, Store.filterMap_vector h, List.length_map]
    · show w.store.rows.length - w.store.vectors.length = _
      have hsplit := w.store.rows.length_eq_length_filter_add (·.hasVector)
      rw [Store.vectors, Store.filterMap_vector h, List.length_map]
      omega

namespace Store.Journal

variable {past : List Entry} {s : Store}

/-- A row has an empty vector exactly if that was the last one set.  A vector is never set in a row
with a number that was not given yet, so a new row starts without. -/
theorem vector_iff (h : s.Journal past) :
    (∀ id v, lastVector past id = some v → id ≤ s.lastId) ∧
      ∀ r ∈ s.rows, r.vector = some [] ↔ lastVector past r.id = some [] := by
  apply h.keeps (I := fun past s => (∀ id v, lastVector past id = some v → id ≤ s.lastId) ∧
    ∀ r ∈ s.rows, r.vector = some [] ↔ lastVector past r.id = some [])
  · exact ⟨fun _ _ hv => (nomatch hv), fun _ hr => nomatch hr⟩
  · intro past s e err time _ hs
    have hlast : lastVector (past ++ [⟨e, .error err, time⟩]) = lastVector past := by
      funext id
      rw [lastVector_append, lastVector_singleton]
      cases e <;> rfl
    rw [hlast]
    exact hs
  · intro past s e a s' time h ⟨hle, hrows⟩ heff
    have hlast : ∀ id, lastVector (past ++ [⟨e, .ok a, time⟩]) id =
        (Entry.vectorFor? ⟨e, .ok a, time⟩ id).or (lastVector past id) := by
      intro id
      rw [lastVector_append, lastVector_singleton]
    simp only [hlast]
    cases e with
    | save b vector text =>
      obtain ⟨-, rfl, rfl⟩ := Edit.effect?_save.mp heff
      refine ⟨fun id v hv => Nat.le_succ_of_le (hle id v hv), fun r hr => ?_⟩
      rcases List.mem_append.mp hr with hr | hr
      · exact hrows r hr
      · obtain rfl := List.mem_singleton.mp hr
        have hnew : vector.filter (fun v => !v.isEmpty) ≠ some [] := by
          intro hempty
          simp [Option.filter_eq_some_iff] at hempty
        have hnone : lastVector past (s.lastId + 1) ≠ some [] := by
          intro hempty
          have hbound := hle _ _ hempty
          omega
        exact ⟨fun hv => absurd hv hnew, fun hv => absurd hv hnone⟩
    | setVector id v =>
      obtain ⟨⟨r₀, hr₀, hid₀⟩, rfl, rfl⟩ := Edit.effect?_setVector.mp heff
      have hbound : r₀.id ≤ s.lastId := h.le_lastId r₀ hr₀
      constructor
      · intro id' v' hv'
        by_cases hid : (id' : Int) = id
        · show id' ≤ s.lastId
          omega
        · exact hle id' v' (by simpa [Entry.vectorFor?, hid] using hv')
      · intro r' hr'
        obtain ⟨r, hr, rfl⟩ := List.mem_map.mp hr'
        by_cases hid : (r.id : Int) = id
        · simp [Entry.vectorFor?, hid]
        · simpa [Entry.vectorFor?, hid] using hrows r hr
    | deleteBlocks path =>
      cases heff
      exact ⟨hle, fun r hr => hrows r (List.mem_filter.mp hr).1⟩
    | setFingerprint path text =>
      cases heff
      exact ⟨hle, hrows⟩
    | dropFingerprint path =>
      cases heff
      exact ⟨hle, hrows⟩

/-- After any changes the readers agree exactly if no row that is left had an empty vector set
last. -/
theorem readersAgree_iff {w : World} (h : s.Journal past) (hw : w.Serves s) :
    w.ReadersAgree ↔ ∀ r ∈ kept past, lastVector past r.id ≠ some [] := by
  rw [World.readersAgree_iff_rows hw.faults (h.isOpen_of_serves hw), h.rows_of_serves hw, ← h.rows_eq]
  exact forall₂_congr fun r hr => not_congr (h.vector_iff.2 r hr)

end Store.Journal

theorem Store.Journal.readersAgree_iff_sample :
    let s := (Edit.history [.save Sample.bareBlock none "", .setVector 1 [.whole 7]]).2
    s.vectors = [[.whole 7]] ∧ World.ReadersAgree { store := s } := by
  intro s
  refine ⟨by decide +kernel, ?_⟩
  have hw : World.Serves { store := s } s := ⟨rfl, s.now, rfl⟩
  apply ((Edit.journal_history _).readersAgree_iff hw).mpr
  decide +kernel

/-- A row in which an empty vector was set waits for none and has none to show. -/
theorem World.readers_disagree :
    let s := (Edit.history [.save Sample.bareBlock none "", .setVector 1 []]).2
    let w : World := { store := s }
    (outcome pending w).1 = .ok [] ∧ (outcome vectors w).1 = .ok [[]] ∧
      ∃ r, (outcome Run.rows w).1 = .ok [r] ∧ r.hasVector = false ∧ ¬w.ReadersAgree := by
  intro s w
  refine ⟨rfl, rfl, _, rfl, rfl, ?_⟩
  rintro ⟨rows, -, hrows, hpending, -⟩
  cases hrows
  cases hpending

end BlockIndex
