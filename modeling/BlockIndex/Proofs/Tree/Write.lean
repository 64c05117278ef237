import BlockIndex.Tree.Disk

/-! Reading back what was written.  Putting a file at the end of a way leaves each directory where
it is, so a path leads after the writing where it led before, and there its content is found. -/

namespace BlockIndex

variable {α : Type}

namespace Tree

variable {t new : Tree α} {name other : String} {way dir : List String}
  {es : List (String × Tree α)}

/-- There is a directory at the end of a way. -/
def LeadsIn (t : Tree α) (way : List String) : Prop := ∃ es, t.find? way = some (.directory es)

theorem lookup_setEntry_self : (setEntry name t es).lookup name = some t := by
  induction es with
  | nil => simp [setEntry]
  | cons e es ih =>
    obtain ⟨key, c⟩ := e
    by_cases hkey : key = name
    · simp [setEntry, hkey]
    · have hne : (name == key) = false := by simpa using Ne.symm hkey
      simp [setEntry, hkey, List.lookup_cons, hne, ih]

theorem lookup_setEntry_of_ne (h : other ≠ name) :
    (setEntry name t es).lookup other = es.lookup other := by
  have hne : (other == name) = false := by simpa using h
  induction es with
  | nil => simp [setEntry, List.lookup_cons, hne]
  | cons e es ih =>
    obtain ⟨key, c⟩ := e
    by_cases hkey : key = name
    · simp [setEntry, List.lookup_cons, hkey, hne]
    · simp [setEntry, List.lookup_cons, hkey, ih]

theorem find?_insert_self : (insert new way t).find? way = some new := by
  induction way generalizing t with
  | nil => rfl
  | cons p ps ih =>
    show ((setEntry p _ t.entries).lookup p).bind _ = some new
    rw [lookup_setEntry_self, Option.bind_some, ih]

/-- What is put where no directory is leaves the directories where they are. -/
theorem LeadsIn.insert (h : t.LeadsIn dir) (hway : ¬t.LeadsIn way) :
    (insert new way t).LeadsIn dir := by
  induction way generalizing t dir with
  | nil =>
    -- the whole tree is replaced, which has no directory then
    cases t with
    | directory es => exact absurd ⟨es, rfl⟩ hway
    | file c =>
      obtain ⟨es, hes⟩ := h
      cases dir <;> cases hes
  | cons p ps ih =>
    cases dir with
    | nil => exact ⟨_, rfl⟩
    | cons q qs =>
      obtain ⟨es, hes⟩ := h
      obtain ⟨c, hc, hqs⟩ := Option.bind_eq_some_iff.mp hes
      by_cases hqp : q = p
      · subst hqp
        have hps : ¬c.LeadsIn ps := by
          rintro ⟨es', hes'⟩
          exact hway ⟨es', Option.bind_eq_some_iff.mpr ⟨c, hc, hes'⟩⟩
        obtain ⟨es', hes'⟩ := ih ⟨es, hqs⟩ hps
        refine ⟨es', Option.bind_eq_some_iff.mpr ⟨_, lookup_setEntry_self, ?_⟩⟩
        rw [hc]
        exact hes'
      · refine ⟨es, Option.bind_eq_some_iff.mpr ⟨c, ?_, hqs⟩⟩
        exact (lookup_setEntry_of_ne hqp).trans hc

end Tree

namespace Disk

variable {d d' : Disk α} {p : Path} {path : String} {content content' : α} {way : List String}

/-- A walk goes through directories, so it ends where it ended before. -/
theorem walk_insert {t new : Tree α} {here parts : List String} {into : List String}
    (h : walk t here parts = .ok way) (hinto : ¬t.LeadsIn into) :
    walk (Tree.insert new into t) here parts = .ok way := by
  induction parts generalizing here with
  | nil => exact h
  | cons q qs ih =>
    unfold walk at h
    split at h
    · next es hes =>
      obtain ⟨es', hes'⟩ : (Tree.insert new into t).LeadsIn here := .insert ⟨es, hes⟩ hinto
      rw [walk, hes']
      exact ih h
    · cases h
    · cases h

/-- What a writing needs of the disk, and what it makes of it. -/
theorem write_eq_ok_iff : d.write p content = .ok d' ↔ ∃ way, d.way p = .ok way ∧
    ¬d.tree.LeadsIn way ∧ ((d.tree.find? way).isSome ∨ d.tree.LeadsIn way.dropLast) ∧
      d' = { d with tree := Tree.insert (.file content) way d.tree } := by
  unfold write
  cases hway : d.way p with
  | error e => simp [Except.bind]
  | ok way =>
    simp only [Except.bind, Except.ok.injEq, exists_eq_left']
    cases hfind : d.tree.find? way with
    | none =>
      simp only [Tree.LeadsIn, hfind, reduceCtorEq, exists_false, not_false_eq_true, true_and,
        Option.isSome_none, Bool.false_eq_true, false_or]
      cases hlast : d.tree.find? way.dropLast with
      | none => simp
      | some c => cases c <;> simp [eq_comm]
    | some c => cases c <;> simp [Tree.LeadsIn, hfind, eq_comm]

theorem read_of_write (h : d.write p content = .ok d') : d'.read p = .ok content := by
  obtain ⟨way, hway, hinto, -, rfl⟩ := write_eq_ok_iff.mp h
  have hway' : ({ d with tree := Tree.insert (.file content) way d.tree } : Disk α).way p =
      .ok way := by
    simp only [Disk.way] at hway ⊢
    split at hway
    · cases hway
    · next hname =>
      rw [if_neg hname]
      exact walk_insert hway hinto
  simp only [read, locate, hway', Except.bind, Tree.find?_insert_self]

/-- Whether a file can be written does not depend on what is written. -/
theorem exists_write (h : d.write p content = .ok d') (content' : α) :
    ∃ d'', d.write p content' = .ok d'' := by
  obtain ⟨way, hway, hinto, hend, -⟩ := write_eq_ok_iff.mp h
  exact ⟨_, write_eq_ok_iff.mpr ⟨way, hway, hinto, hend, rfl⟩⟩

/-- Where something can be written, anything can, and it is read back there. -/
theorem exists_writeAt (h : d.writeAt path content = .ok d') (content' : α) :
    ∃ d'', d.writeAt path content' = .ok d'' ∧
      d''.read (Path.ofString path) = .ok content' := by
  unfold writeAt at h ⊢
  split at h
  · split at h
    · cases h
    · cases hw : d.write (Path.ofString path) content <;> simp [hw, Except.bind] at h
  · cases hl : d.locate (Path.ofString path) <;> simp [hl, Except.bind] at h
  · obtain ⟨d'', hd''⟩ := exists_write h content'
    exact ⟨d'', hd'', read_of_write hd''⟩

end Disk

end BlockIndex
