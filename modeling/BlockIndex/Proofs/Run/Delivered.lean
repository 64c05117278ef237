import BlockIndex.Proofs.Embedding.Provider
import BlockIndex.Proofs.Run.Backfill

/-! Filling in vectors without hindrance.  When the store refuses no call and the provider gives all
vectors in time, every row that waits gets the vector of its text (`Store.filled`), however the rows
are grouped. -/

namespace BlockIndex

/-- A row with the vector of its text if it waits for one. -/
def Row.filled (g : String → Vector) (r : Row) : Row :=
  if r.isPending then { r with vector := some (g r.text) } else r

/-- The store with all vectors for which rows wait. -/
def Store.filled (g : String → Vector) (s : Store) : Store :=
  { s with rows := s.rows.map (Row.filled g) }

/-- A row after the vectors of some rows were set one after the other. -/
def Row.delivered (g : String → Vector) (rs : List Row) (a : Row) : Row :=
  rs.foldl (fun a r => a.given r.id (g r.text)) a

/-- The store after the vectors of some rows were set one after the other. -/
def Store.delivered (g : String → Vector) (rs : List Row) (s : Store) : Store :=
  { s with rows := s.rows.map (Row.delivered g rs) }

variable {g : String → Vector} {s s' : Store} {rs : List Row} {c : Supply}
  {groups : List (List Row)} {ix : Indexer} {t t' : Tally} {v v' : View}

/-! ### Vectors one after the other -/

theorem Store.delivered_nil : s.delivered g [] = s := by
  show { s with rows := s.rows.map fun a => a } = s
  rw [List.map_id'']
  exact fun _ => rfl

theorem Store.delivered_cons (r : Row) :
    s.delivered g (r :: rs) =
      Store.delivered g rs { s with rows := s.rows.map (Row.given r.id (g r.text)) } := by
  simp only [delivered, List.map_map]
  rfl

theorem Store.delivered_append (rs' : List Row) :
    s.delivered g (rs ++ rs') = (s.delivered g rs).delivered g rs' := by
  simp only [delivered, List.map_map]
  congr 2
  funext a
  exact List.foldl_append

/-- A row is left alone by the vectors of rows with other numbers. -/
theorem Row.delivered_of_ne {a : Row} (h : ∀ r ∈ rs, r.id ≠ a.id) : a.delivered g rs = a := by
  induction rs with
  | nil => rfl
  | cons r rs ih =>
    have hr : a.given r.id (g r.text) = a := Row.given_of_ne (h r List.mem_cons_self).symm
    show (a.given r.id (g r.text)).delivered g rs = a
    rw [hr, ih fun r' hr' => h r' (List.mem_cons_of_mem r hr')]

/-- A row whose number others have only with its text gets the vector of the text. -/
theorem Row.delivered_of_mem {a : Row} (h : ∀ r ∈ rs, r.id = a.id → r.text = a.text)
    (hmem : ∃ r ∈ rs, r.id = a.id) : a.delivered g rs = { a with vector := some (g a.text) } := by
  induction rs generalizing a with
  | nil =>
    obtain ⟨r, hr, -⟩ := hmem
    cases hr
  | cons r rs ih =>
    have hrest := fun r' hr' => h r' (List.mem_cons_of_mem r hr')
    show (a.given r.id (g r.text)).delivered g rs = _
    by_cases hid : r.id = a.id
    · have hgiven : a.given r.id (g r.text) = { a with vector := some (g a.text) } := by
        rw [Row.given, if_pos hid.symm, h r List.mem_cons_self hid]
      rw [hgiven]
      by_cases hmore : ∃ r ∈ rs, r.id = a.id
      · exact ih hrest hmore
      · exact delivered_of_ne fun r' hr' he => hmore ⟨r', hr', he⟩
    · rw [Row.given_of_ne (Ne.symm hid)]
      obtain ⟨r', hr', hid'⟩ := hmem
      have hr' := (List.mem_cons.mp hr').resolve_left fun he => hid (he ▸ hid')
      exact ih hrest ⟨r', hr', hid'⟩

/-- After the vectors of the rows that wait no row waits. -/
theorem Store.delivered_pending (hids : ∀ a ∈ s.rows, ∀ r ∈ s.rows, r.id = a.id → r = a) :
    s.delivered g s.pending = s.filled g := by
  have hpending {r : Row} (hr : r ∈ s.pending) : r ∈ s.rows := (List.mem_filter.mp hr).1
  unfold delivered filled
  congr 1
  refine List.map_congr_left fun a ha => ?_
  unfold Row.filled
  split
  · next hwait =>
    refine Row.delivered_of_mem (fun r hr hid => ?_) ⟨a, List.mem_filter.mpr ⟨ha, hwait⟩, rfl⟩
    rw [hids a ha r (hpending hr) hid]
  · next hwait =>
    refine Row.delivered_of_ne fun r hr hid => hwait ?_
    rw [← hids a ha r (hpending hr) hid]
    exact (List.mem_filter.mp hr).2

/-! ### Runs -/

/-- Without refusals setting a vector gives it to the row of its number, if there is one. -/
theorem Filled.eq_given {r : Row} {x : Vector} (hs : s.isClosed = false)
    (h : Filled Faults.none (r, x) (t, s) () (t', s')) :
    s' = { s with rows := s.rows.map (Row.given r.id x) } := by
  cases h with
  | filled h => exact Store.rows_setVector? h
  | missed h =>
    have hnone := Store.ne_of_setVector?_eq_none (h.resolve_left (Store.not_refuses hs))
    have hmap : s.rows.map (Row.given r.id x) = s.rows.map id :=
      List.map_congr_left fun a ha => Row.given_of_ne (hnone a ha)
    rw [hmap, List.map_id]

theorem Each.eq_delivered {us : List Unit} (hs : s.isClosed = false)
    (h : Each (Filled Faults.none) (rs.zip ((rs.map (·.text)).map g)) (t, s) us (t', s')) :
    s' = s.delivered g rs := by
  induction rs generalizing t s us with
  | nil =>
    cases h
    exact Store.delivered_nil.symm
  | cons r rs ih =>
    cases h with
    | @cons _ _ _ _ _ u _ head tail =>
      obtain ⟨t₁, s₁⟩ := u
      obtain rfl := head.eq_given hs
      rw [Store.delivered_cons]
      exact ih hs tail

/-- Without hindrance the rows of all groups get the vectors of their texts. -/
theorem Fills.eq_delivered {r : Except Failure Tally} (hg : c.provider.Computes g)
    (h : Fills Faults.none c groups t v r v') (hs : v.store.isClosed = false) (hr : r = .ok t')
    (htime : t'.timedOut = false) : v'.store = v.store.delivered g groups.flatten := by
  induction h with
  | done => exact Store.delivered_nil.symm
  | late _ =>
    cases hr
    cases htime
  | refused _ reply _ _ =>
    rw [Supply.reply, hg] at reply
    cases reply
  | broken _ _ => cases hr
  | @filled group groups t t₁ v v' vs us s₁ r _ reply each _ ih =>
    rw [Supply.reply, hg] at reply
    cases reply
    obtain rfl := each.eq_delivered hs
    rw [List.flatten_cons, Store.delivered_append]
    exact ih hs hr
  | large _ _ _ _ _ _ => cases hr

/-- Filling in vectors ends if the provider only refuses and the numbers of the rows fit the store.
-/
theorem Fills.exists_ok {f : Faults} {r : Except Failure Tally} (hrefuse : c.provider.OnlyRefuses)
    (hfit : ∀ row ∈ groups.flatten, row.id < StoreCall.limit) (h : Fills f c groups t v r v') :
    ∃ t, r = .ok t := by
  induction h with
  | done => exact ⟨_, rfl⟩
  | late _ => exact ⟨_, rfl⟩
  | refused _ _ _ ih => exact ih fun row hrow => hfit row (by simp [List.mem_flatten.mp hrow])
  | broken reply he =>
    obtain ⟨refusal, hr⟩ := hrefuse _ _ _ _ reply
    exact absurd hr (he refusal)
  | filled _ _ _ _ ih => exact ih fun row hrow => hfit row (by simp [List.mem_flatten.mp hrow])
  | large _ _ _ _ he hl =>
    exact absurd (hfit _ (by simp [(List.of_mem_zip he).1])) hl

section Provider

variable {p : Provider} (hp : ix.provider = some p) (hg : p.Computes g)
include hp hg

theorem Backfilled.exists_ok {r : Except Failure Tally} (hs : v.store.isClosed = false)
    (hfit : ∀ row ∈ v.store.rows, row.id < StoreCall.limit) (h : Backfilled Faults.none ix v r v') :
    ∃ t, r = .ok t := by
  cases h with
  | noProvider hnone =>
    rw [hp] at hnone
    cases hnone
  | unread hrefuse => exact absurd hrefuse (Store.not_refuses hs)
  | idle _ => exact ⟨_, rfl⟩
  | failed hp' hf =>
    rw [hp] at hp'
    cases hp'
    refine absurd (hf.exists_ok hg.onlyRefuses fun row hrow => ?_) fun ⟨_, ht⟩ => nomatch ht
    rw [Run.flatten_groupsOf] at hrow
    exact hfit row (List.mem_filter.mp hrow).1
  | filled _ _ => exact ⟨_, rfl⟩

/-- Without hindrance filling in vectors gives all vectors for which rows wait. -/
theorem Backfilled.eq_filled (hs : v.store.isClosed = false)
    (hids : ∀ a ∈ v.store.rows, ∀ r ∈ v.store.rows, r.id = a.id → r = a)
    (htime : t.timedOut = false) (h : Backfilled Faults.none ix v (.ok t) v') :
    v'.store = v.store.filled g := by
  rw [← Store.delivered_pending hids]
  cases h with
  | idle hnone => rw [hnone, Store.delivered_nil]
  | @filled p t v' hp' hf =>
    rw [hp] at hp'
    cases hp'
    rw [hf.eq_delivered hg hs rfl htime, Run.flatten_groupsOf]

/-- Without refusals and with a provider that gives all vectors filling in vectors ends, and if it
was in time no row waits. -/
theorem Run.outcome_backfill {w : World} (hw : w.faults = Faults.none)
    (hopen : w.store.isClosed = false)
    (hids : ∀ a ∈ w.store.rows, ∀ r ∈ w.store.rows, r.id = a.id → r = a)
    (hfit : ∀ r ∈ w.store.rows, r.id < StoreCall.limit) :
    ∃ t, (outcome (backfill ix) w).1 = .ok t ∧
      (t.timedOut = false → (outcome (backfill ix) w).2.store = w.store.filled g) := by
  have hx := backfilled_outcome ix w
  rw [hw] at hx
  obtain ⟨t, ht⟩ := hx.exists_ok hp hg hopen hfit
  rw [ht] at hx
  exact ⟨t, ht, fun htime => hx.eq_filled hp hg hopen hids htime⟩

end Provider

end BlockIndex
