import BlockIndex.Header.Pattern

/-! What a pattern reads.  The characters that a pattern can read first, last and at all are told by
the pattern alone (`firsts`, `lasts`, `uses`), and what it does read is made of them
(`Pattern.fits_of_mem_readings`).  So the characters on both sides of a name are told by the
patterns before and after it (`Pattern.stands_of_named?`).  A name with no pattern after it is as
long as it can be (`Pattern.longest_of_named?`). -/

namespace BlockIndex.Header

variable {s r : Reading} {line v w : List Char} {c : Char} {n : Named}

/-- What a step keeps is kept by its repetition. -/
theorem repeatOnto_induction {motive : Reading → Prop} {step : Reading → List Reading}
    (hstep : ∀ s, motive s → ∀ r ∈ step s, motive r) {tail : List Reading} {k : Nat}
    (hs : motive s) (htail : ∀ r ∈ tail, motive r) : ∀ r ∈ repeatOnto step k s tail, motive r := by
  induction k generalizing s tail with
  | zero => exact List.forall_mem_cons.mpr ⟨hs, htail⟩
  | succ k ih =>
    have hfold (l : List Reading) (hl : ∀ t ∈ l, motive t) :
        ∀ r ∈ l.foldr (fun r t => repeatOnto step k r t) (s :: tail), motive r := by
      induction l with
      | nil => exact List.forall_mem_cons.mpr ⟨hs, htail⟩
      | cons t l ihl =>
        exact ih (hl t List.mem_cons_self) (ihl fun u hu => hl u (List.mem_cons_of_mem t hu))
    exact hfold (step s) (hstep s hs)

namespace Pattern

variable {p q : Pattern} {pre post ps : List Pattern} {f : Char → Bool}

/-- Whether a pattern can read nothing. -/
def nullable : Pattern → Bool
  | .empty => true
  | .one _ => false
  | .seq p q => p.nullable && q.nullable
  | .alt p q => p.nullable || q.nullable
  | .many _ => true
  | .named p => p.nullable
  | .notBefore _ => true

/-- Whether a character can be the first that a pattern reads. -/
def firsts : Pattern → Char → Bool
  | .empty, _ => false
  | .one accepts, c => accepts c
  | .seq p q, c => p.firsts c || p.nullable && q.firsts c
  | .alt p q, c => p.firsts c || q.firsts c
  | .many p, c => p.firsts c
  | .named p, c => p.firsts c
  | .notBefore _, _ => false

/-- Whether a character can be the last that a pattern reads. -/
def lasts : Pattern → Char → Bool
  | .empty, _ => false
  | .one accepts, c => accepts c
  | .seq p q, c => q.lasts c || q.nullable && p.lasts c
  | .alt p q, c => p.lasts c || q.lasts c
  | .many p, c => p.lasts c
  | .named p, c => p.lasts c
  | .notBefore _, _ => false

/-- Whether a pattern can read a character. -/
def uses : Pattern → Char → Bool
  | .empty, _ => false
  | .one accepts, c => accepts c
  | .seq p q, c => p.uses c || q.uses c
  | .alt p q, c => p.uses c || q.uses c
  | .many p, c => p.uses c
  | .named p, c => p.uses c
  | .notBefore _, _ => false

/-- Whether no part of a pattern is the name. -/
def nameless : Pattern → Bool
  | .empty => true
  | .one _ => true
  | .seq p q => p.nameless && q.nameless
  | .alt p q => p.nameless && q.nameless
  | .many p => p.nameless
  | .named _ => false
  | .notBefore _ => true

/-! ### What is read -/

/-- Characters that a pattern can read, as far as these tests tell. -/
structure Fits (p : Pattern) (w : List Char) : Prop where
  filled : p.nullable = false → w ≠ []
  first : ∀ c, w.head? = some c → p.firsts c = true
  last : ∀ c, w.getLast? = some c → p.lasts c = true
  all : ∀ c ∈ w, p.uses c = true

theorem fits_nil (h : p.nullable = true) : p.Fits [] where
  filled hn := by simp [h] at hn
  first _ hc := by cases hc
  last _ hc := by cases hc
  all _ hc := by cases hc

theorem Fits.nullable_of_nil (h : p.Fits []) : p.nullable = true := by
  cases hn : p.nullable with
  | true => rfl
  | false => exact absurd rfl (h.filled hn)

theorem Fits.mono (h : p.Fits w) (hnullable : p.nullable = true → q.nullable = true)
    (hfirsts : ∀ c, p.firsts c = true → q.firsts c = true)
    (hlasts : ∀ c, p.lasts c = true → q.lasts c = true)
    (huses : ∀ c, p.uses c = true → q.uses c = true) : q.Fits w where
  filled hn hw := by
    subst hw
    rw [hnullable h.nullable_of_nil] at hn
    cases hn
  first c hc := hfirsts c (h.first c hc)
  last c hc := hlasts c (h.last c hc)
  all c hc := huses c (h.all c hc)

theorem Fits.seq (hv : p.Fits v) (hw : q.Fits w) : (Pattern.seq p q).Fits (v ++ w) where
  filled hn h := by
    obtain ⟨rfl, rfl⟩ := List.append_eq_nil_iff.mp h
    simp [nullable, hv.nullable_of_nil, hw.nullable_of_nil] at hn
  first c hc := by
    rw [firsts, Bool.or_eq_true, Bool.and_eq_true]
    cases v with
    | nil => exact .inr ⟨hv.nullable_of_nil, hw.first c hc⟩
    | cons d v => exact .inl (hv.first c hc)
  last c hc := by
    rw [lasts, Bool.or_eq_true, Bool.and_eq_true]
    rw [List.getLast?_append] at hc
    cases hlast : w.getLast? with
    | some d =>
      rw [hlast, Option.some_or] at hc
      exact .inl (hw.last c (hlast.trans hc))
    | none =>
      obtain rfl := List.getLast?_eq_none_iff.mp hlast
      exact .inr ⟨hw.nullable_of_nil, hv.last c hc⟩
  all c hc := by
    rw [uses, Bool.or_eq_true]
    exact (List.mem_append.mp hc).imp (hv.all c) (hw.all c)

theorem Fits.left (h : p.Fits w) : (Pattern.alt p q).Fits w :=
  h.mono (fun h => by simp [nullable, h]) (fun c h => by simp [firsts, h])
    (fun c h => by simp [lasts, h]) (fun c h => by simp [uses, h])

theorem Fits.right (h : q.Fits w) : (Pattern.alt p q).Fits w :=
  h.mono (fun h => by simp [nullable, h]) (fun c h => by simp [firsts, h])
    (fun c h => by simp [lasts, h]) (fun c h => by simp [uses, h])

theorem Fits.more (hv : (Pattern.many p).Fits v) (hw : p.Fits w) :
    (Pattern.many p).Fits (v ++ w) :=
  (hv.seq hw).mono (fun _ => rfl) (by simp [firsts, nullable])
    (by simp only [lasts, Bool.or_eq_true, Bool.and_eq_true]
        exact fun c h => h.elim id And.right)
    (by simp [uses])

theorem mem_readings_one (h : r ∈ (one f).readings s) :
    ∃ c, s.rest = c :: r.rest ∧ f c = true ∧ r.name = s.name := by
  unfold readings at h
  split at h
  · cases h
  · next c rest hrest =>
    split at h
    · next hc =>
      obtain rfl := List.mem_singleton.mp h
      exact ⟨c, hrest, hc, rfl⟩
    · cases h

theorem eq_of_mem_readings_notBefore (h : r ∈ (notBefore f).readings s) : r = s := by
  unfold readings at h
  split at h
  · exact List.mem_singleton.mp h
  · split at h
    · cases h
    · exact List.mem_singleton.mp h

/-- What a pattern reads fits it. -/
theorem fits_of_mem_readings (h : r ∈ p.readings s) : ∃ w, s.rest = w ++ r.rest ∧ p.Fits w := by
  induction p generalizing s r with
  | empty =>
    obtain rfl := List.mem_singleton.mp h
    exact ⟨[], rfl, fits_nil rfl⟩
  | one accepts =>
    obtain ⟨c, hrest, hc, -⟩ := mem_readings_one h
    refine ⟨[c], hrest, by simp, ?_, ?_, ?_⟩ <;> simp [firsts, lasts, uses, hc]
  | seq p q ihp ihq =>
    obtain ⟨m, hm, hr⟩ := List.mem_flatMap.mp h
    obtain ⟨v, hv, hfv⟩ := ihp hm
    obtain ⟨w, hw, hfw⟩ := ihq hr
    exact ⟨v ++ w, by rw [hv, hw, List.append_assoc], hfv.seq hfw⟩
  | alt p q ihp ihq =>
    rcases List.mem_append.mp h with h | h
    · obtain ⟨w, hw, hfits⟩ := ihp h
      exact ⟨w, hw, hfits.left⟩
    · obtain ⟨w, hw, hfits⟩ := ihq h
      exact ⟨w, hw, hfits.right⟩
  | many p ih =>
    refine repeatOnto_induction (motive := fun t => ∃ w, s.rest = w ++ t.rest ∧ (many p).Fits w)
      ?_ ⟨[], rfl, fits_nil rfl⟩ (fun _ ht => by cases ht) r h
    rintro m ⟨v, hv, hfv⟩ t ht
    obtain ⟨w, hw, hfw⟩ := ih ht
    exact ⟨v ++ w, by rw [hv, hw, List.append_assoc], hfv.more hfw⟩
  | named p ih =>
    obtain ⟨t, ht, rfl⟩ := List.mem_map.mp h
    obtain ⟨w, hw, hfits⟩ := ih ht
    exact ⟨w, hw, ⟨hfits.filled, hfits.first, hfits.last, hfits.all⟩⟩
  | notBefore stops =>
    obtain rfl := eq_of_mem_readings_notBefore h
    exact ⟨[], rfl, fits_nil rfl⟩

/-- A pattern without a name leaves the name as it is. -/
theorem name_of_mem_readings (hp : p.nameless = true) (h : r ∈ p.readings s) : r.name = s.name := by
  induction p generalizing s r with
  | empty =>
    obtain rfl := List.mem_singleton.mp h
    rfl
  | one accepts =>
    obtain ⟨_, -, -, hname⟩ := mem_readings_one h
    exact hname
  | seq p q ihp ihq =>
    obtain ⟨hp, hq⟩ := Bool.and_eq_true_iff.mp hp
    obtain ⟨m, hm, hr⟩ := List.mem_flatMap.mp h
    exact (ihq hq hr).trans (ihp hp hm)
  | alt p q ihp ihq =>
    obtain ⟨hp, hq⟩ := Bool.and_eq_true_iff.mp hp
    exact (List.mem_append.mp h).elim (ihp hp) (ihq hq)
  | many p ih =>
    exact repeatOnto_induction (motive := fun t => t.name = s.name)
      (fun m hm t ht => (ih hp ht).trans hm) rfl (fun _ ht => by cases ht) r h
  | named p ih => cases hp
  | notBefore stops => rw [eq_of_mem_readings_notBefore h]

/-! ### Sequences -/

theorem readings_sequence_cons (p : Pattern) (ps : List Pattern) (s : Reading) :
    (sequence (p :: ps)).readings s = (p.readings s).flatMap (sequence ps).readings := by
  cases ps with
  | nil => exact (List.flatMap_singleton' _).symm
  | cons q ps => rfl

theorem readings_sequence_append (ps qs : List Pattern) (s : Reading) :
    (sequence (ps ++ qs)).readings s =
      ((sequence ps).readings s).flatMap (sequence qs).readings := by
  induction ps generalizing s with
  | nil => exact (List.flatMap_singleton _ s).symm
  | cons p ps ih =>
    rw [List.cons_append, readings_sequence_cons, readings_sequence_cons, List.flatMap_assoc]
    exact congrArg (List.flatMap · (p.readings s)) (funext ih)

/-- What a sequence reads is what its front reads and what the rest of it reads after that. -/
theorem exists_of_mem_readings_append
    (h : r ∈ (sequence (pre ++ post)).readings s) :
    ∃ w m, s.rest = w ++ m.rest ∧ (sequence pre).Fits w ∧ r ∈ (sequence post).readings m := by
  rw [readings_sequence_append] at h
  obtain ⟨m, hm, hr⟩ := List.mem_flatMap.mp h
  obtain ⟨w, hw, hfits⟩ := fits_of_mem_readings hm
  exact ⟨w, m, hw, hfits, hr⟩

/-- A literal reads just its own characters. -/
theorem rest_of_mem_readings_literal {t : String} (h : r ∈ (literal t).readings s) :
    s.rest = t.toList ++ r.rest := by
  unfold literal at h
  generalize t.toList = cs at h ⊢
  induction cs generalizing s with
  | nil =>
    obtain rfl := List.mem_singleton.mp h
    rfl
  | cons c cs ih =>
    rw [List.map_cons, readings_sequence_cons] at h
    obtain ⟨m, hm, hr⟩ := List.mem_flatMap.mp h
    obtain ⟨d, hd, hc, -⟩ := mem_readings_one hm
    rw [hd, ih hr, eq_of_beq hc, List.cons_append]

/-- What is read with a literal in the middle is divided by the literal. -/
theorem exists_of_mem_readings_literal (pre : List Pattern) (t : String) (post : List Pattern)
    (h : r ∈ (sequence (pre ++ literal t :: post)).readings s) :
    ∃ v m, s.rest = v ++ t.toList ++ m.rest ∧ (sequence pre).Fits v ∧
      r ∈ (sequence post).readings m := by
  obtain ⟨v, m, hv, hfits, h⟩ := exists_of_mem_readings_append h
  rw [readings_sequence_cons] at h
  obtain ⟨m', hm', h⟩ := List.mem_flatMap.mp h
  refine ⟨v, m', ?_, hfits, h⟩
  rw [hv, rest_of_mem_readings_literal hm', List.append_assoc]

/-- The preferred reading of a sequence ends with a preferred reading of its last part. -/
theorem head_readings_sequence_concat
    (h : ((sequence (ps ++ [p])).readings s).head? = some r) :
    ∃ m ∈ (sequence ps).readings s, (p.readings m).head? = some r := by
  rw [readings_sequence_append, List.head?_flatMap] at h
  exact List.exists_of_findSome?_eq_some h

/-! ### The characters around a name -/

/-- A name between what `pre` reads and what `post` reads. -/
structure Stands (pre : List Pattern) (p : Pattern) (post : List Pattern) (line : List Char)
    (n : Named) : Prop where
  before : ∃ m ∈ (sequence pre).readings ⟨none, line⟩, m.rest = n.text ++ n.after
  text : p.Fits n.text
  after : ∃ w, w <+: n.after ∧ (sequence post).Fits w

/-- The name that is marked in a sequence stands between what comes before it and after it. -/
theorem stands_of_named? (hpost : (sequence post).nameless = true)
    (h : (sequence (pre ++ .named p :: post)).named? line = some n) :
    Stands pre p post line n := by
  obtain ⟨r, hr, hname⟩ := Option.bind_eq_some_iff.mp h
  have hmem := List.mem_of_mem_head? hr
  rw [readings_sequence_append] at hmem
  obtain ⟨m, hm, hmem⟩ := List.mem_flatMap.mp hmem
  rw [readings_sequence_cons] at hmem
  obtain ⟨t, ht, hmem⟩ := List.mem_flatMap.mp hmem
  obtain ⟨u, hu, rfl⟩ := List.mem_map.mp ht
  obtain ⟨v, hv, hfv⟩ := fits_of_mem_readings hu
  obtain ⟨w, hw, hfw⟩ := fits_of_mem_readings hmem
  rw [name_of_mem_readings hpost hmem] at hname
  have htext : m.rest.take (m.rest.length - u.rest.length) = v := by
    rw [hv, List.length_append, Nat.add_sub_cancel, List.take_left]
  rw [htext] at hname
  cases hname
  exact ⟨⟨m, hm, hv⟩, hfv, w, ⟨_, hw.symm⟩, hfw⟩

theorem stops_of_head_repeatOnto {tail : List Reading} {k : Nat} (hk : s.rest.length ≤ k)
    (h : (repeatOnto (one f).readings k s tail).head? = some r) (hc : r.rest.head? = some c) :
    f c = false := by
  induction k generalizing s tail with
  | zero =>
    cases h
    rw [List.length_eq_zero_iff.mp (Nat.le_zero.mp hk)] at hc
    cases hc
  | succ k ih =>
    unfold repeatOnto at h
    cases hrest : s.rest with
    | nil =>
      simp only [readings, hrest, List.foldr_nil, List.head?_cons, Option.some.injEq] at h
      subst h
      rw [hrest] at hc
      cases hc
    | cons d rest =>
      cases hd : f d with
      | true =>
        simp only [readings, hrest, hd, if_true, List.foldr_cons, List.foldr_nil] at h
        rw [hrest] at hk
        exact ih (Nat.le_of_succ_le_succ hk) h
      | false =>
        -- nothing more can be read, so the preferred way is to stop here
        simp only [readings, hrest, hd, Bool.false_eq_true, if_false, List.foldr_nil,
          List.head?_cons, Option.some.injEq] at h
        subst h
        rw [hrest] at hc
        cases hc
        exact hd

/-- A repetition of one class of characters stops only before a character of another class. -/
theorem stops_of_head_readings_many (h : ((many (.one f)).readings s).head? = some r)
    (hc : r.rest.head? = some c) : f c = false :=
  stops_of_head_repeatOnto (Nat.le_refl _) h hc

/-- A name that is read last, one or more characters of a class, is followed by no character of the
class. -/
theorem longest_of_named? (h : (sequence (pre ++ [.named (several (.one f))])).named? line = some n)
    (hc : n.after.head? = some c) : f c = false := by
  obtain ⟨r, hr, hname⟩ := Option.bind_eq_some_iff.mp h
  obtain ⟨m, -, hhead⟩ := head_readings_sequence_concat hr
  rw [readings, List.head?_map] at hhead
  obtain ⟨t, ht, rfl⟩ := Option.map_eq_some_iff.mp hhead
  cases hname
  obtain ⟨u, -, hu⟩ := @head_readings_sequence_concat m t (many (.one f)) [.one f] ht
  exact stops_of_head_readings_many hu hc

end Pattern

end BlockIndex.Header
