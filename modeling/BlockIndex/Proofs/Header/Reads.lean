import Mathlib.Logic.Relation
import BlockIndex.Proofs.Header.Edges

/-! What a pattern admits.  `Pattern.Reads` says what a pattern can read, with no order among the
ways to read it and no bound on repetitions.  The matcher finds every way
(`Pattern.mem_readings_iff`), as long as whatever is repeated reads something.  So where all ways
mark one name, the matcher finds that name (`Pattern.Clear.name?_eq_some_iff`). -/

namespace BlockIndex.Header

open Relation (ReflTransGen)

variable {s r : Reading} {step : Reading → List Reading}

/-! ### Repetition -/

theorem mem_foldr_iff {onto : Reading → List Reading → List Reading}
    {leadsTo : Reading → Reading → Prop} {ms last : List Reading}
    (h : ∀ m ∈ ms, ∀ tail, r ∈ onto m tail ↔ leadsTo m r ∨ r ∈ tail) :
    r ∈ ms.foldr onto last ↔ (∃ m ∈ ms, leadsTo m r) ∨ r ∈ last := by
  induction ms with
  | nil => simp
  | cons m ms ih =>
    obtain ⟨hm, hms⟩ := List.forall_mem_cons.mp h
    rw [List.foldr_cons, hm, ih hms]
    simp [or_assoc]

/-- A step that always reads something is repeated at will: there are no more repetitions than
characters. -/
theorem mem_repeatOnto_iff (hstep : ∀ s, ∀ r ∈ step s, r.rest.length < s.rest.length)
    {tail : List Reading} {k : Nat} (hk : s.rest.length ≤ k) :
    r ∈ repeatOnto step k s tail ↔ ReflTransGen (fun s r => r ∈ step s) s r ∨ r ∈ tail := by
  induction k generalizing s tail with
  | zero =>
    have hstuck : ∀ m, m ∉ step s := fun m hm => by
      have := hstep s m hm
      omega
    rw [repeatOnto, List.mem_cons, ReflTransGen.cases_head_iff]
    simp [hstuck, eq_comm]
  | succ k ih =>
    have hfold := fun m hm tail =>
      @ih m tail (Nat.le_of_lt_succ (Nat.lt_of_lt_of_le (hstep s m hm) hk))
    rw [repeatOnto, mem_foldr_iff hfold, List.mem_cons, ReflTransGen.cases_head_iff, ← or_assoc,
      or_comm (a := ∃ m ∈ step s, _), eq_comm]

namespace Pattern

variable {p : Pattern} {line : List Char} {name : String}

/-- Whether whatever a pattern repeats reads something each time. -/
def steady : Pattern → Bool
  | .empty => true
  | .one _ => true
  | .seq p q => p.steady && q.steady
  | .alt p q => p.steady && q.steady
  | .many p => !p.nullable && p.steady
  | .named p => p.steady
  | .notBefore _ => true

/-- Whether each way to read a pattern marks a name. -/
def marksAlways : Pattern → Bool
  | .empty => false
  | .one _ => false
  | .seq p q => q.marksAlways || p.marksAlways && q.nameless
  | .alt p q => p.marksAlways && q.marksAlways
  | .many _ => false
  | .named _ => true
  | .notBefore _ => false

/-- A pattern can read from `s` up to `r`. -/
def Reads : Pattern → Reading → Reading → Prop
  | .empty, s, r => r = s
  | .one accepts, s, r => ∃ c, s.rest = c :: r.rest ∧ accepts c = true ∧ r.name = s.name
  | .seq p q, s, r => ∃ m, p.Reads s m ∧ q.Reads m r
  | .alt p q, s, r => p.Reads s r ∨ q.Reads s r
  | .many p, s, r => ReflTransGen p.Reads s r
  | .named p, s, r =>
    ∃ m w, p.Reads s m ∧ s.rest = w ++ m.rest ∧ r = ⟨some ⟨w, m.rest⟩, m.rest⟩
  | .notBefore stops, s, r => r = s ∧ ∀ c, s.rest.head? = some c → stops c = false

theorem length_lt_of_mem_readings (hp : p.nullable = false) (h : r ∈ p.readings s) :
    r.rest.length < s.rest.length := by
  obtain ⟨w, hw, hfits⟩ := fits_of_mem_readings h
  have hpos : 0 < w.length := List.length_pos_iff.mpr (hfits.filled hp)
  rw [hw, List.length_append]
  omega

theorem mem_readings_one_iff {accepts : Char → Bool} :
    r ∈ (one accepts).readings s ↔ (one accepts).Reads s r := by
  constructor
  · exact mem_readings_one
  · rintro ⟨c, hrest, hc, hname⟩
    have hr : r = ⟨s.name, r.rest⟩ := by rw [← hname]
    rw [readings, hrest]
    simp only [hc, if_true, List.mem_singleton]
    exact hr

theorem mem_readings_named_iff :
    r ∈ (named p).readings s ↔
      ∃ m w, m ∈ p.readings s ∧ s.rest = w ++ m.rest ∧ r = ⟨some ⟨w, m.rest⟩, m.rest⟩ := by
  have htake (w v : List Char) : (w ++ v).take ((w ++ v).length - v.length) = w := by
    rw [List.length_append, Nat.add_sub_cancel, List.take_left]
  rw [readings, List.mem_map]
  constructor
  · rintro ⟨m, hm, rfl⟩
    obtain ⟨w, hw, -⟩ := fits_of_mem_readings hm
    refine ⟨m, w, hm, hw, ?_⟩
    rw [hw, htake]
  · rintro ⟨m, w, hm, hw, rfl⟩
    refine ⟨m, hm, ?_⟩
    rw [hw, htake]

/-- The matcher finds every way to read a pattern, and only those. -/
theorem mem_readings_iff (hp : p.steady = true) : r ∈ p.readings s ↔ p.Reads s r := by
  induction p generalizing s r with
  | empty => exact List.mem_singleton
  | one accepts => exact mem_readings_one_iff
  | seq p q ihp ihq =>
    obtain ⟨hp, hq⟩ := Bool.and_eq_true_iff.mp hp
    rw [readings, List.mem_flatMap, Reads]
    exact exists_congr fun m => and_congr (ihp hp) (ihq hq)
  | alt p q ihp ihq =>
    obtain ⟨hp, hq⟩ := Bool.and_eq_true_iff.mp hp
    rw [readings, List.mem_append, Reads]
    exact or_congr (ihp hp) (ihq hq)
  | many p ih =>
    obtain ⟨hnullable, hp⟩ := Bool.and_eq_true_iff.mp hp
    have hstep : ∀ s, ∀ r ∈ p.readings s, r.rest.length < s.rest.length := fun _ _ h =>
      length_lt_of_mem_readings (by simpa using hnullable) h
    have hreads : (fun s r => r ∈ p.readings s) = p.Reads :=
      funext fun s => funext fun r => propext (ih hp)
    rw [readings, mem_repeatOnto_iff hstep (Nat.le_refl _), Reads, hreads]
    simp
  | named p ih =>
    rw [mem_readings_named_iff, Reads]
    exact exists_congr fun m => exists_congr fun w => and_congr_left fun _ => ih hp
  | notBefore stops =>
    rw [readings, Reads]
    cases s.rest with
    | nil => simp
    | cons c rest => by_cases hc : stops c = true <;> simp [hc]

theorem name_isSome_of_mem_readings (hp : p.marksAlways = true) (h : r ∈ p.readings s) :
    r.name.isSome := by
  induction p generalizing s r with
  | seq p q ihp ihq =>
    obtain ⟨m, hm, hr⟩ := List.mem_flatMap.mp h
    rcases Bool.or_eq_true_iff.mp hp with hq | hp
    · exact ihq hq hr
    · obtain ⟨hp, hq⟩ := Bool.and_eq_true_iff.mp hp
      rw [name_of_mem_readings hq hr]
      exact ihp hp hm
  | alt p q ihp ihq =>
    obtain ⟨hp, hq⟩ := Bool.and_eq_true_iff.mp hp
    exact (List.mem_append.mp h).elim (ihp hp) (ihq hq)
  | named p ih =>
    obtain ⟨m, w, -, -, rfl⟩ := mem_readings_named_iff.mp h
    rfl
  | empty => cases hp
  | one accepts => cases hp
  | many p ih => cases hp
  | notBefore stops => cases hp

/-! ### Names -/

/-- A pattern can read a front of the line and mark the name in it. -/
def Marks (p : Pattern) (line : List Char) (name : String) : Prop :=
  ∃ r n, p.Reads ⟨none, line⟩ r ∧ r.name = some n ∧ String.ofList n.text = name

/-- However a pattern reads a line, the name that it marks is that of the line. -/
structure Clear (p : Pattern) : Prop where
  steady : p.steady = true
  marksAlways : p.marksAlways = true
  unique : ∀ line name name', p.Marks line name → p.Marks line name' → name = name'

theorem marks_of_name? (hp : p.steady = true) (h : p.name? line = some name) :
    p.Marks line name := by
  obtain ⟨n, hn, hname⟩ := Option.map_eq_some_iff.mp h
  obtain ⟨r, hr, hrn⟩ := Option.bind_eq_some_iff.mp hn
  exact ⟨r, n, (mem_readings_iff hp).mp (List.mem_of_mem_head? hr), hrn, hname⟩

/-- A line with a name in it starts as the pattern does. -/
theorem exists_first_of_marks (hp : p.steady = true) (hfilled : p.nullable = false)
    (h : p.Marks line name) : ∃ c, line.head? = some c ∧ p.firsts c = true := by
  obtain ⟨r, -, hr, -⟩ := h
  obtain ⟨w, hw, hfits⟩ := fits_of_mem_readings ((mem_readings_iff hp).mpr hr)
  obtain ⟨c, w, rfl⟩ := List.exists_cons_of_ne_nil (hfits.filled hfilled)
  exact ⟨c, congrArg List.head? hw, hfits.first c rfl⟩

theorem exists_name?_of_reads (hp : p.steady = true) (hmarks : p.marksAlways = true)
    (h : p.Reads ⟨none, line⟩ r) : ∃ name, p.name? line = some name := by
  have hmem : r ∈ p.readings ⟨none, line⟩ := (mem_readings_iff hp).mpr h
  cases hall : p.readings ⟨none, line⟩ with
  | nil =>
    rw [hall] at hmem
    cases hmem
  | cons t ts =>
    have ht : t ∈ p.readings ⟨none, line⟩ := hall ▸ List.mem_cons_self
    obtain ⟨n, hn⟩ := Option.isSome_iff_exists.mp (name_isSome_of_mem_readings hmarks ht)
    refine ⟨String.ofList n.text, ?_⟩
    rw [name?, named?, read?, hall, List.head?_cons, Option.bind_some, hn, Option.map_some]

theorem name?_eq_none_iff (hp : p.steady = true) (hmarks : p.marksAlways = true) :
    p.name? line = none ↔ ∀ name, ¬p.Marks line name := by
  constructor
  · rintro hnone name ⟨r, -, hr, -⟩
    obtain ⟨name', hname'⟩ := exists_name?_of_reads hp hmarks hr
    cases hnone.symm.trans hname'
  · exact fun hno => Option.eq_none_iff_forall_ne_some.mpr fun name hname =>
      hno name (marks_of_name? hp hname)

theorem Clear.name?_eq_some_iff (h : p.Clear) : p.name? line = some name ↔ p.Marks line name := by
  constructor
  · exact marks_of_name? h.steady
  · intro hmarks
    obtain ⟨r, n, hr, -, -⟩ := id hmarks
    obtain ⟨name', hname'⟩ := exists_name?_of_reads h.steady h.marksAlways hr
    rw [hname', h.unique line name' name (marks_of_name? h.steady hname') hmarks]

end Pattern

end BlockIndex.Header
