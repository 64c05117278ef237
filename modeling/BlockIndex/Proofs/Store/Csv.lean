import BlockIndex.Store.Csv

/-! Comma-separated records read back.  The reader is strict: a quoted part is a whole field,
outside of quotes there is no quote and no half of a row end, and the text ends with a row end.  It
gives back the fields of every list of records that was written, whatever characters they hold
(`read?_records`). -/

namespace BlockIndex.Csv

/-- Where a reader stands. -/
inductive Place where
  | start
  | bare
  | quoted
  /-- Behind a quote that ends the quoted part, or is the first of two. -/
  | closed
  /-- Behind the first half of a row end. -/
  | ending
  deriving DecidableEq, Repr

/-- A reader with what it has read of a field, the fields before it and the records before them. -/
structure Reader where
  place : Place := .start
  text : List Char := []
  fields : List String := []
  records : List (List String) := []
  deriving DecidableEq, Repr

namespace Reader

def add (s : Reader) (place : Place) (c : Char) : Reader :=
  { s with place, text := s.text ++ [c] }

def endField (s : Reader) : Reader :=
  { s with place := .start, text := [], fields := s.fields ++ [String.ofList s.text] }

def endRecord (s : Reader) : Reader :=
  { records := s.records ++ [s.endField.fields] }

/-- What may come behind a field. -/
def behindField (s : Reader) : Char → Option Reader
  | ',' => some s.endField
  | '\r' => some { s with place := .ending }
  | _ => none

def stepBare (s : Reader) (c : Char) : Option Reader :=
  if c = '"' ∨ c = '\n' then none else some ((s.behindField c).getD (s.add .bare c))

def step (s : Reader) (c : Char) : Option Reader :=
  match s.place with
  | .start => if c = '"' then some { s with place := .quoted } else s.stepBare c
  | .bare => s.stepBare c
  | .quoted => some (if c = '"' then { s with place := .closed } else s.add .quoted c)
  | .closed => if c = '"' then some (s.add .quoted c) else s.behindField c
  | .ending => if c = '\n' then some s.endRecord else none

/-- The records that were read, if a record could start. -/
def result? (s : Reader) : Option (List (List String)) :=
  if s.place = .start ∧ s.fields = [] then some s.records else none

end Reader

/-- The records of a text, unless it is not made of records. -/
def read? (text : List Char) : Option (List (List String)) :=
  (text.foldlM Reader.step {}).bind Reader.result?

namespace Reader

variable {s : Reader} {t : List Char} {fs : List String} {rs : List (List String)}

theorem foldlM_bare (hplace : s.place = .start ∨ s.place = .bare)
    (ht : t.any needsQuotes = false) :
    t.foldlM step s = some { s with
      place := if t = [] then s.place else .bare, text := s.text ++ t } := by
  induction t generalizing s with
  | nil => simp
  | cons c t ih =>
    rw [List.any_cons, Bool.or_eq_false_iff] at ht
    have hc : c ≠ ',' ∧ c ≠ '"' ∧ c ≠ '\r' ∧ c ≠ '\n' := by
      simpa [needsQuotes, and_assoc] using ht.1
    have hstep : s.step c = some (s.add .bare c) := by
      rcases hplace with h | h <;> simp [step, stepBare, behindField, h, hc]
    rw [List.foldlM_cons, hstep, Option.bind_eq_bind, Option.bind_some, ih (.inr rfl) ht.2]
    cases t <;> simp [add]

theorem foldlM_inQuotes (hplace : s.place = .quoted) :
    (t.flatMap inQuotes).foldlM step s = some { s with text := s.text ++ t } := by
  induction t generalizing s with
  | nil => simp
  | cons c t ih =>
    have hc : (inQuotes c).foldlM step s = some (s.add .quoted c) := by
      by_cases hquote : c = '"'
      · simp [inQuotes, step, hplace, hquote, add]
      · simp [inQuotes, step, hplace, hquote]
    rw [List.flatMap_cons, List.foldlM_append, hc, Option.bind_eq_bind, Option.bind_some, ih rfl]
    simp [add, hplace]

/-- A field is read whole, and then it can end. -/
theorem exists_foldlM_field (t : List Char) (fs : List String) (rs : List (List String)) :
    ∃ p, (p = .start ∨ p = .bare ∨ p = .closed) ∧
      (field t).foldlM step { fields := fs, records := rs } = some ⟨p, t, fs, rs⟩ := by
  unfold field
  split
  · refine ⟨.closed, .inr (.inr rfl), ?_⟩
    rw [List.cons_append, List.foldlM_cons]
    show (_ ++ ['"']).foldlM step ⟨.quoted, [], fs, rs⟩ = _
    rw [List.foldlM_append, foldlM_inQuotes rfl]
    rfl
  · next h =>
    rw [foldlM_bare (.inl rfl) (Bool.eq_false_iff.mpr h)]
    refine ⟨_, ?_, rfl⟩
    split
    · exact .inl rfl
    · exact .inr (.inl rfl)

theorem foldlM_field_comma (t : List Char) (fs : List String) (rs : List (List String)) :
    (field t ++ [',']).foldlM step { fields := fs, records := rs } =
      some { fields := fs ++ [String.ofList t], records := rs } := by
  obtain ⟨p, hp, hfield⟩ := exists_foldlM_field t fs rs
  rw [List.foldlM_append, hfield]
  rcases hp with rfl | rfl | rfl <;> rfl

theorem foldlM_field_rowEnd (t : List Char) (fs : List String) (rs : List (List String)) :
    (field t ++ ['\r', '\n']).foldlM step { fields := fs, records := rs } =
      some { records := rs ++ [fs ++ [String.ofList t]] } := by
  obtain ⟨p, hp, hfield⟩ := exists_foldlM_field t fs rs
  rw [List.foldlM_append, hfield]
  rcases hp with rfl | rfl | rfl <;> rfl

/-- A record is read whole.  The induction is on its fields, with those before them read already. -/
theorem foldlM_record {r : List String} (hr : r ≠ []) (rs : List (List String)) :
    (record r).foldlM step { records := rs } = some { records := rs ++ [r] } := by
  suffices h : ∀ r fs, r ≠ [] → (record r).foldlM step { fields := fs, records := rs } =
      some { records := rs ++ [fs ++ r] } from h r [] hr
  intro r
  induction r with
  | nil => exact fun fs hr => absurd rfl hr
  | cons f r ih =>
    intro fs _
    cases r with
    | nil => rw [record, List.map_singleton, Csv.fields, foldlM_field_rowEnd, String.ofList_toList]
    | cons f' r =>
      have hrecord : record (f :: f' :: r) = field f.toList ++ [','] ++ record (f' :: r) := by
        simp [record, Csv.fields]
      rw [hrecord, List.foldlM_append, foldlM_field_comma, Option.bind_eq_bind, Option.bind_some,
        ih _ (List.cons_ne_nil f' r)]
      simp

theorem foldlM_records {records : List (List String)} (h : [] ∉ records)
    (rs : List (List String)) :
    (records.flatMap record).foldlM step { records := rs } = some { records := rs ++ records } := by
  induction records generalizing rs with
  | nil => simp
  | cons r records ih =>
    rw [List.mem_cons, not_or] at h
    rw [List.flatMap_cons, List.foldlM_append, foldlM_record (Ne.symm h.1), Option.bind_eq_bind,
      Option.bind_some, ih h.2]
    simp

end Reader

/-- Records that have fields are read back as they were written. -/
theorem read?_records {records : List (List String)} (h : [] ∉ records) :
    read? (records.flatMap record) = some records := by
  rw [read?, Reader.foldlM_records h []]
  rfl

/-- The records of rows are read back behind the one with the names of the fields. -/
theorem read?_ofRows (rows : List Row) :
    read? (ofRows rows).toList = some (columns :: rows.map fieldsOf) := by
  have hrecords : (ofRows rows).toList = (columns :: rows.map fieldsOf).flatMap record := by
    rw [ofRows, String.toList_ofList, List.flatMap_cons, List.flatMap_map]
  rw [hrecords, read?_records]
  simp [columns, fieldsOf]

example : read? "a,\"b\"\"c\r\n\"\r\n,\r\n".toList = some [["a", "b\"c\r\n"], ["", ""]] := by decide

/-- A quote in a field without quotes is no record. -/
example : read? "a\"b\r\n".toList = none := by decide

end BlockIndex.Csv
