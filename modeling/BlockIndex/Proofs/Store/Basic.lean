import BlockIndex.Store.Basic

/-! What each operation of the store changes and what it leaves alone: the fingerprint of each file,
the rows, and which blocks are held. -/

namespace BlockIndex

namespace Store

variable {s : Store} {path q text : String} {b c : Block} {vec : Option Vector}

/-! ### Fingerprints -/

theorem lookup_putFingerprint_of_ne (h : q ≠ path) (es : List (String × String)) :
    (putFingerprint path text es).lookup q = es.lookup q := by
  have hq : (q == path) = false := by simpa using h
  induction es with
  | nil => simp [putFingerprint, List.lookup_cons, hq]
  | cons e es ih =>
    obtain ⟨p, t⟩ := e
    simp only [putFingerprint]
    split
    · next hp => simp [List.lookup_cons, hq, show (q == p) = false from by simpa [hp] using h]
    · split
      · simp [List.lookup_cons, hq]
      · simp [List.lookup_cons, ih]

theorem fingerprint?_setFingerprint_of_ne (h : q ≠ path) :
    (s.setFingerprint path text).fingerprint? q = s.fingerprint? q :=
  lookup_putFingerprint_of_ne h s.fingerprints

theorem fingerprint?_congr {s s' : Store} (h : s.fingerprints = s'.fingerprints) (q : String) :
    s.fingerprint? q = s'.fingerprint? q := by
  rw [fingerprint?, h, fingerprint?]

theorem lookup_filter_ne (es : List (String × String)) :
    (es.filter fun e => e.1 != path).lookup q = if q = path then none else es.lookup q := by
  induction es with
  | nil => simp
  | cons e es ih =>
    obtain ⟨p, t⟩ := e
    by_cases hp : p = path
    · subst hp
      simp only [List.filter, bne_self_eq_false, ih, List.lookup_cons]
      split
      · rfl
      · next hq => rw [show (q == p) = false by simpa using hq]
    · simp only [List.filter, show (p != path) = true by simpa using hp, List.lookup_cons, ih]
      by_cases hq : q = p
      · simp [hq, hp]
      · simp [show (q == p) = false by simpa using hq]

theorem fingerprint?_dropFingerprint :
    (s.dropFingerprint path).fingerprint? q = if q = path then none else s.fingerprint? q :=
  lookup_filter_ne s.fingerprints

@[simp] theorem fingerprint?_deleteBlocks :
    (s.deleteBlocks path).fingerprint? q = s.fingerprint? q := rfl

/-- The tracked files are those that have a fingerprint. -/
theorem mem_tracked : path ∈ s.tracked ↔ ∃ t, s.fingerprint? path = some t := by
  unfold tracked fingerprint?
  induction s.fingerprints with
  | nil => simp
  | cons e es ih =>
    obtain ⟨p, t⟩ := e
    by_cases h : path = p
    · simp [h]
    · have : (path == p) = false := by simpa using h
      simp [h, List.lookup_cons, this, ih]

/-! ### Rows -/

@[simp] theorem rows_setFingerprint : (s.setFingerprint path text).rows = s.rows := rfl

@[simp] theorem rows_dropFingerprint : (s.dropFingerprint path).rows = s.rows := rfl

theorem mem_rows_deleteBlocks {r : Row} :
    r ∈ (s.deleteBlocks path).rows ↔ r ∈ s.rows ∧ r.block.relativePath ≠ some path := by
  simp [deleteBlocks]

/-- A block is held if some row has its identity. -/
theorem holds_iff : s.holds b = true ↔ ∃ r ∈ s.rows, r.block.identity = b.identity := by
  simp [holds]

/-- What saving a block does, when its place is free. -/
theorem save?_eq_some {id : Nat} {s' : Store} :
    s.save? b vec text = some (id, s') ↔ s.isTaken b = false ∧ id = s.lastId + 1 ∧
      s' = { s with rows := s.rows ++ [s.newRow b vec text], lastId := s.lastId + 1 } := by
  unfold save?
  cases s.isTaken b <;> simp [eq_comm]

@[simp] theorem identity_newRow : (s.newRow b vec text).block.identity = b.identity := rfl

@[simp] theorem text_newRow : (s.newRow b vec text).block.text = b.text := rfl

@[simp] theorem relativePath_newRow :
    (s.newRow b vec text).block.relativePath = some b.displayPath := rfl

end Store

/-! ### Setting a vector -/

namespace Row

/-- A row with a vector if it has the number of the vector. -/
def given (id : Nat) (x : Vector) (r : Row) : Row :=
  if r.id = id then { r with vector := some x } else r

variable {id : Nat} {x : Vector} {r : Row}

theorem given_of_ne (h : r.id ≠ id) : r.given id x = r := if_neg h

@[simp] theorem id_given : (r.given id x).id = r.id := by
  unfold given
  split <;> rfl

@[simp] theorem text_given : (r.given id x).text = r.text := by
  unfold given
  split <;> rfl

@[simp] theorem block_given : (r.given id x).block = r.block := by
  unfold given
  split <;> rfl

end Row

/-- Setting a vector changes the row of its number. -/
theorem Store.rows_setVector? {s s' : Store} {id : Nat} {x : Vector}
    (h : s.setVector? id x = some s') : s' = { s with rows := s.rows.map (Row.given id x) } := by
  unfold setVector? at h
  split at h
  · cases h
    simp only [Int.ofNat_inj]
    rfl
  · cases h

/-- If a vector cannot be set, no row has its number. -/
theorem Store.ne_of_setVector?_eq_none {s : Store} {id : Nat} {x : Vector}
    (h : s.setVector? id x = none) : ∀ r ∈ s.rows, r.id ≠ id := by
  intro r hr hid
  unfold setVector? at h
  rw [if_pos (List.any_eq_true.mpr ⟨r, hr, by simp [hid]⟩)] at h
  cases h

end BlockIndex
