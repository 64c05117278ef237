import Mathlib.Data.List.Basic
import BlockIndex.Proofs.Store.Edit

/-! Journals of a store.  A journal lists the changes that were asked of a store and what came of
each.  What the store holds is read off the journal: a row for each block that was saved and not
removed since, with the vector that was set last.  `Store.Journal` says that a store came about by
the changes of a journal, whatever calls were refused in between. -/

namespace BlockIndex

open Run

/-- A change that was asked of a store at some time, and what came of it. -/
structure Entry where
  edit : Edit
  result : Except Failure Edit.Answer
  time : Option String

namespace Entry

/-- The number that a new row was given. -/
def number? (e : Entry) : Option Nat :=
  match e.result with
  | .ok (.row id) => some id
  | _ => none

/-- The row of a block that was saved. -/
def row? (e : Entry) : Option Row :=
  match e.edit, e.number? with
  | .save b vector text, some id =>
    some { id, block := { b with relativePath := some b.displayPath },
           vector := vector.filter fun v => !v.isEmpty, text, createdAt := e.time }
  | _, _ => none

/-- Whether a row was removed. -/
def removes (e : Entry) (r : Row) : Bool :=
  match e.edit, e.result with
  | .deleteBlocks path, .ok _ => r.block.relativePath == some path
  | _, _ => false

/-- The vector that was set in the row of a number. -/
def vectorFor? (e : Entry) (id : Nat) : Option Vector :=
  match e.edit, e.result with
  | .setVector i v, .ok _ => if (id : Int) = i then some v else none
  | _, _ => none

/-- What a change says of the fingerprint of a file: its text, that there is none, or nothing. -/
def printFor? (e : Entry) (path : String) : Option (Option String) :=
  match e.edit, e.result with
  | .setFingerprint q text, .ok _ => if path = q then some (some text) else none
  | .dropFingerprint q, .ok _ => if path = q then some none else none
  | _, _ => none

end Entry

/-- The vector that was set last in the row of a number. -/
def lastVector (entries : List Entry) (id : Nat) : Option Vector :=
  (entries.filterMap (·.vectorFor? id)).getLast?

/-- The fingerprint of a file that was set last, unless it was removed since. -/
def lastPrint (entries : List Entry) (path : String) : Option String :=
  (entries.filterMap (·.printFor? path)).getLast?.join

/-- What later changes leave of a row: nothing if it was removed, else the row with the vector that
was set last. -/
def Row.after (later : List Entry) (r : Row) : Option Row :=
  if later.any (·.removes r) then none
  else some { r with vector := (lastVector later r.id).or r.vector }

/-- The rows that a journal leaves. -/
def kept : List Entry → List Row
  | [] => []
  | e :: later => (e.row?.bind (Row.after later)).toList ++ kept later

theorem lastVector_append (past later : List Entry) (id : Nat) :
    lastVector (past ++ later) id = (lastVector later id).or (lastVector past id) := by
  unfold lastVector
  rw [List.filterMap_append, List.getLast?_append]

theorem lastVector_singleton (e : Entry) (id : Nat) : lastVector [e] id = e.vectorFor? id := by
  unfold lastVector
  cases h : e.vectorFor? id <;> simp [h]

theorem lastPrint_append_singleton (past : List Entry) (e : Entry) (path : String) :
    lastPrint (past ++ [e]) path = (e.printFor? path).getD (lastPrint past path) := by
  unfold lastPrint
  cases h : e.printFor? path <;> simp [h]

theorem Row.after_append (past later : List Entry) (r : Row) :
    r.after (past ++ later) = (r.after past).bind (Row.after later) := by
  unfold after
  rw [List.any_append]
  cases past.any (·.removes r) with
  | true => simp
  | false =>
    have hremoves : ∀ e : Entry, ∀ v, e.removes { r with vector := v } = e.removes r :=
      fun e v => rfl
    simp only [Bool.false_or, Bool.false_eq_true, if_false, Option.bind_some, hremoves,
      lastVector_append, Option.or_assoc]

/-- One more change leaves what it leaves of the rows, and adds the row of a saved block. -/
theorem kept_append (past : List Entry) (e : Entry) :
    kept (past ++ [e]) = (kept past).filterMap (Row.after [e]) ++ e.row?.toList := by
  have hbind : ∀ (o : Option Row) (g : Row → Option Row),
      o.toList.filterMap g = (o.bind g).toList := by
    intro o g
    cases o with
    | none => rfl
    | some r => cases h : g r <;> simp [h]
  have hlast : e.row?.bind (Row.after []) = e.row? := by
    cases e.row? <;> rfl
  induction past with
  | nil => simp [kept, hlast]
  | cons e' past ih =>
    have hafter : Row.after (past ++ [e]) = fun r => (Row.after past r).bind (Row.after [e]) :=
      funext fun r => r.after_append past [e]
    simp only [List.cons_append, kept, ih, List.filterMap_append, hbind, hafter, Option.bind_assoc,
      List.append_assoc]

theorem Row.after_of_not_edit {e : Entry} {r : Row} (hremoves : e.removes r = false)
    (hvector : e.vectorFor? r.id = none) : r.after [e] = some r := by
  simp [after, lastVector_singleton, hremoves, hvector]

theorem Row.block_of_after {later : List Entry} {r r' : Row} (h : r.after later = some r') :
    r'.id = r.id ∧ r'.block = r.block := by
  unfold after at h
  split at h
  · cases h
  · cases h
    exact ⟨rfl, rfl⟩

theorem Entry.of_row? {e : Entry} {r : Row} (h : e.row? = some r) :
    e.number? = some r.id ∧ ∃ b vector text, e.edit = .save b vector text ∧
      r.block = { b with relativePath := some b.displayPath } := by
  unfold row? at h
  split at h
  · next b vector text id hedit hnum =>
    cases h
    exact ⟨hnum, b, vector, text, hedit, rfl⟩
  · cases h

/-- Each row has the number that its block was given. -/
theorem sublist_kept (past : List Entry) :
    ((kept past).map Row.id).Sublist (past.filterMap Entry.number?) := by
  induction past with
  | nil => exact .slnil
  | cons e later ih =>
    cases hrow : e.row?.bind (Row.after later) with
    | none =>
      have hsub : (later.filterMap Entry.number?).Sublist ((e :: later).filterMap Entry.number?) :=
        (List.sublist_cons_self e later).filterMap _
      simpa [kept, hrow] using ih.trans hsub
    | some r =>
      obtain ⟨r₀, hr₀, hafter⟩ := Option.bind_eq_some_iff.mp hrow
      have hnum : e.number? = some r.id := by
        rw [(Row.block_of_after hafter).1]
        exact (Entry.of_row? hr₀).1
      rw [List.filterMap_cons_some hnum]
      simpa [kept, hrow] using ih

/-- Each row holds a block that was saved, with the path that is shown for it. -/
theorem exists_save_of_mem_kept {past : List Entry} {r : Row} (h : r ∈ kept past) :
    ∃ e ∈ past, ∃ b vector text, e.edit = .save b vector text ∧
      r.block = { b with relativePath := some b.displayPath } := by
  induction past with
  | nil => cases h
  | cons e later ih =>
    rcases List.mem_append.mp h with h | h
    · obtain ⟨r₀, hr₀, hafter⟩ := Option.bind_eq_some_iff.mp (Option.mem_toList.mp h)
      rw [(Row.block_of_after hafter).2]
      exact ⟨e, List.mem_cons_self, (Entry.of_row? hr₀).2⟩
    · obtain ⟨e', he', hsave⟩ := ih h
      exact ⟨e', List.mem_cons_of_mem e he', hsave⟩

/-- What a change that has its effect makes of the rows is what a journal says of it. -/
theorem Edit.rows_of_effect {e : Edit} {s s' : Store} {a : Edit.Answer}
    (h : e.effect? s = some (a, s')) :
    s'.rows = s.rows.filterMap (Row.after [⟨e, .ok a, s.now⟩]) ++
      (Entry.row? ⟨e, .ok a, s.now⟩).toList := by
  -- most changes touch no row that is there
  have hstay : ∀ e : Entry, (∀ r ∈ s.rows, e.removes r = false ∧ e.vectorFor? r.id = none) →
      s.rows.filterMap (Row.after [e]) = s.rows := by
    intro e he
    calc
      s.rows.filterMap (Row.after [e]) = s.rows.filterMap some :=
        List.filterMap_congr fun r hr => Row.after_of_not_edit (he r hr).1 (he r hr).2
      _ = s.rows := List.filterMap_some
  cases e with
  | save b vector text =>
    obtain ⟨-, rfl, rfl⟩ := effect?_save.mp h
    rw [hstay _ fun r _ => ⟨rfl, rfl⟩]
    rfl
  | setVector id v =>
    obtain ⟨-, rfl, rfl⟩ := effect?_setVector.mp h
    show s.rows.map _ = s.rows.filterMap _ ++ []
    rw [List.append_nil, eq_comm, List.filterMap_eq_map_iff_forall_eq_some]
    intro r _
    by_cases hid : (r.id : Int) = id
    · simp [Row.after, lastVector_singleton, Entry.removes, Entry.vectorFor?, hid]
    · simp [Row.after, lastVector_singleton, Entry.removes, Entry.vectorFor?, hid]
  | deleteBlocks path =>
    cases h
    show s.rows.filter _ = s.rows.filterMap _ ++ []
    rw [List.append_nil, ← List.filterMap_eq_filter]
    refine List.filterMap_congr fun r _ => ?_
    by_cases hr : r.block.relativePath = some path
    · simp [Row.after, Entry.removes, Option.guard, hr]
    · simp [Row.after, lastVector_singleton, Entry.removes, Entry.vectorFor?, Option.guard, hr]
  | setFingerprint path text =>
    cases h
    rw [hstay _ fun r _ => ⟨rfl, rfl⟩]
    simp [Entry.row?]
  | dropFingerprint path =>
    cases h
    rw [hstay _ fun r _ => ⟨rfl, rfl⟩]
    simp [Entry.row?]

/-- What a change that has its effect makes of the fingerprints is what a journal says of it. -/
theorem Edit.fingerprint_of_effect {e : Edit} {s s' : Store} {a : Edit.Answer}
    (time : Option String) (path : String) (h : e.effect? s = some (a, s')) :
    s'.fingerprint? path =
      (Entry.printFor? ⟨e, .ok a, time⟩ path).getD (s.fingerprint? path) := by
  cases e with
  | save b vector text =>
    obtain ⟨-, rfl, rfl⟩ := effect?_save.mp h
    rfl
  | setVector id v =>
    obtain ⟨-, rfl, rfl⟩ := effect?_setVector.mp h
    rfl
  | deleteBlocks q =>
    cases h
    rfl
  | setFingerprint q text =>
    cases h
    by_cases hq : path = q
    · simp [Entry.printFor?, hq, Store.fingerprint?_setFingerprint]
    · simp [Entry.printFor?, hq, Store.fingerprint?_setFingerprint_of_ne hq]
  | dropFingerprint q =>
    cases h
    by_cases hq : path = q
    · simp [Entry.printFor?, hq, Store.fingerprint?_dropFingerprint]
    · simp [Entry.printFor?, hq, Store.fingerprint?_dropFingerprint]

/-- A store that came about by the changes of a journal, first to last, from an empty one. -/
inductive Store.Journal : List Entry → Store → Prop
  | empty : Journal [] {}
  | asked {past : List Entry} {s : Store} {w : World} {time : Option String} (e : Edit)
      (h : Journal past s) (hw : w.store = { s with now := time }) :
      Journal (past ++ [⟨e, (outcome e.run w).1, time⟩]) (outcome e.run w).2.store

namespace Store.Journal

variable {past : List Entry} {s : Store}

/-- What the effect of a change keeps, a journal keeps. -/
theorem keeps {I : List Entry → Store → Prop} (h : s.Journal past) (hempty : I [] {})
    (hfailed : ∀ past s e err time, s.Journal past → I past s →
      I (past ++ [⟨e, .error err, time⟩]) { s with now := time })
    (hdone : ∀ past s e a s' time, s.Journal past → I past s →
      Edit.effect? e { s with now := time } = some (a, s') →
        I (past ++ [⟨e, .ok a, time⟩]) s') : I past s := by
  induction h with
  | empty => exact hempty
  | @asked past s w time e h hw ih =>
    rcases e.outcome_run w with ⟨a, ha, hs⟩ | ⟨err, ha, hs⟩
    · rw [ha]
      rw [hw] at hs
      exact hdone past s e a _ time h ih hs
    · rw [ha, hs, hw]
      exact hfailed past s e err time h ih

theorem rows_eq (h : s.Journal past) : s.rows = kept past := by
  apply h.keeps (I := fun past s => s.rows = kept past)
  · rfl
  · intro past s e err time _ hs
    have hafter : Row.after [⟨e, .error err, time⟩] = some := by
      funext r
      apply Row.after_of_not_edit <;> cases e <;> rfl
    have hrow : Entry.row? ⟨e, .error err, time⟩ = none := by cases e <;> rfl
    rw [kept_append, hafter, hrow, List.filterMap_some, ← hs]
    exact (List.append_nil _).symm
  · intro past s e a s' time _ hs heff
    rw [kept_append, Edit.rows_of_effect heff, hs]

theorem fingerprint_eq (h : s.Journal past) (path : String) :
    s.fingerprint? path = lastPrint past path := by
  apply h.keeps (I := fun past s => s.fingerprint? path = lastPrint past path)
  · rfl
  · intro past s e err time _ hs
    have hprint : Entry.printFor? ⟨e, .error err, time⟩ path = none := by cases e <;> rfl
    rw [lastPrint_append_singleton, hprint]
    exact hs
  · intro past s e a s' time _ hs heff
    rw [lastPrint_append_singleton, Edit.fingerprint_of_effect time path heff, ← hs]
    rfl

end Store.Journal

/-! ### Numbers and identities -/

/-- A change gives the next number to a new row, or it gives none. -/
theorem Edit.number_of_effect {e : Edit} {s s' : Store} {a : Edit.Answer} (time : Option String)
    (h : e.effect? s = some (a, s')) :
    (Entry.number? ⟨e, .ok a, time⟩ = some (s.lastId + 1) ∧ s'.lastId = s.lastId + 1) ∨
      Entry.number? ⟨e, .ok a, time⟩ = none ∧ s'.lastId = s.lastId := by
  cases e with
  | save b vector text =>
    obtain ⟨-, rfl, rfl⟩ := effect?_save.mp h
    exact .inl ⟨rfl, rfl⟩
  | setVector id v =>
    obtain ⟨-, rfl, rfl⟩ := effect?_setVector.mp h
    exact .inr ⟨rfl, rfl⟩
  | _ =>
    cases h
    exact .inr ⟨rfl, rfl⟩

/-- No two rows hold blocks of one identity, where a missing name counts as an empty one. -/
def Store.Distinct (s : Store) : Prop :=
  s.rows.Pairwise fun r r' => r.block.identity.folded ≠ r'.block.identity.folded

theorem Edit.distinct_of_effect {e : Edit} {s s' : Store} {a : Edit.Answer}
    (h : e.effect? s = some (a, s')) (hs : s.Distinct) : s'.Distinct := by
  cases e with
  | save b vector text =>
    obtain ⟨hfree, -, rfl⟩ := effect?_save.mp h
    refine List.pairwise_append.mpr ⟨hs, List.pairwise_singleton _ _, fun r hr r' hr' => ?_⟩
    rw [List.mem_singleton.mp hr']
    have hne := List.any_eq_false.mp hfree r hr
    simpa using hne
  | setVector id v =>
    obtain ⟨-, -, rfl⟩ := effect?_setVector.mp h
    refine List.pairwise_map.mpr (hs.imp fun hne => ?_)
    split <;> split <;> exact hne
  | deleteBlocks path =>
    cases h
    exact hs.filter _
  | setFingerprint path text =>
    cases h
    exact hs
  | dropFingerprint path =>
    cases h
    exact hs

namespace Store.Journal

variable {past : List Entry} {s : Store}

theorem isOpen (h : s.Journal past) : s.isClosed = false := by
  apply h.keeps (I := fun _ s => s.isClosed = false)
  · rfl
  · exact fun _ _ _ _ _ _ hs => hs
  · intro past s e a s' time _ hs heff
    cases e with
    | save b vector text =>
      obtain ⟨-, -, rfl⟩ := Edit.effect?_save.mp heff
      exact hs
    | setVector id v =>
      obtain ⟨-, -, rfl⟩ := Edit.effect?_setVector.mp heff
      exact hs
    | _ =>
      cases heff
      exact hs

theorem numbers (h : s.Journal past) : (past.filterMap Entry.number?).Pairwise (· < ·) ∧
    ∀ n ∈ past.filterMap Entry.number?, n ≤ s.lastId := by
  apply h.keeps (I := fun past s => (past.filterMap Entry.number?).Pairwise (· < ·) ∧
    ∀ n ∈ past.filterMap Entry.number?, n ≤ s.lastId)
  · exact ⟨List.Pairwise.nil, fun n hn => nomatch hn⟩
  · intro past s e err time _ hs
    rw [List.filterMap_append, List.filterMap_cons_none rfl, List.filterMap_nil, List.append_nil]
    exact hs
  · intro past s e a s' time _ ⟨hgrow, hle⟩ heff
    rw [List.filterMap_append]
    rcases Edit.number_of_effect time heff with ⟨hnum, hlast⟩ | ⟨hnum, hlast⟩
    · rw [List.filterMap_cons_some hnum, List.filterMap_nil, hlast]
      refine ⟨List.pairwise_append.mpr ⟨hgrow, List.pairwise_singleton _ _, fun n hn m hm => ?_⟩,
        fun n hn => ?_⟩
      · rw [List.mem_singleton.mp hm]
        exact Nat.lt_succ_of_le (hle n hn)
      · rcases List.mem_append.mp hn with hn | hn
        · exact Nat.le_succ_of_le (hle n hn)
        · exact Nat.le_of_eq (List.mem_singleton.mp hn)
    · rw [List.filterMap_cons_none hnum, List.filterMap_nil, List.append_nil, hlast]
      exact ⟨hgrow, hle⟩

theorem le_lastId (h : s.Journal past) : ∀ r ∈ s.rows, r.id ≤ s.lastId := by
  intro r hr
  rw [h.rows_eq] at hr
  exact h.numbers.2 r.id ((sublist_kept past).subset (List.mem_map_of_mem hr))

theorem distinct (h : s.Journal past) : s.Distinct := by
  apply h.keeps (I := fun _ s => s.Distinct)
  · exact List.Pairwise.nil
  · exact fun _ _ _ _ _ _ hs => hs
  · exact fun past s e a s' time _ hs heff => Edit.distinct_of_effect heff hs

theorem isOpen_of_serves {w : World} (h : s.Journal past) (hw : w.Serves s) :
    w.store.isClosed = false :=
  hw.isOpen h.isOpen

theorem rows_of_serves {w : World} (h : s.Journal past) (hw : w.Serves s) :
    w.store.rows = kept past := by
  obtain ⟨time, hstore⟩ := hw.store
  rw [hstore]
  exact h.rows_eq

theorem fingerprint_of_serves {w : World} (h : s.Journal past) (hw : w.Serves s) (path : String) :
    w.store.fingerprint? path = lastPrint past path := by
  obtain ⟨time, hstore⟩ := hw.store
  rw [hstore]
  exact h.fingerprint_eq path

end Store.Journal

namespace Edit

/-- A journal and its store with one more change, for which no call is refused. -/
def record (r : List Entry × Store) (e : Edit) : List Entry × Store :=
  let o := outcome e.run { store := r.2 }
  (r.1 ++ [⟨e, o.1, r.2.now⟩], o.2.store)

/-- The journal of changes that are asked one after the other, and the store that they leave. -/
def history (edits : List Edit) : List Entry × Store := edits.foldl record ([], {})

theorem journal_history (edits : List Edit) : (history edits).2.Journal (history edits).1 := by
  have hfold : ∀ r : List Entry × Store, r.2.Journal r.1 →
      (edits.foldl record r).2.Journal (edits.foldl record r).1 := by
    induction edits with
    | nil => exact fun _ h => h
    | cons e edits ih => exact fun r h => ih _ (h.asked e (w := { store := r.2 }) rfl)
  exact hfold ([], {}) .empty

end Edit

namespace Sample

/-- A block without names and without a path in the tree. -/
def bareBlock : Block where
  path := "a.py"
  kind := .function
  span := ⟨1, 2, Nat.one_pos, Nat.le_succ 1⟩
  text := "pass"

end Sample

end BlockIndex
