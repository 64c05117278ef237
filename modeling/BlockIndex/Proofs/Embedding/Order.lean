import BlockIndex.Proofs.Embedding.Answer

/-! The order of the vectors in an answer.  An item gives its place as a number, and sorting by the
places puts each item at its own (`exists_sortKeyed`).  So the vectors come in the order of the
texts, whatever the order of the items (`embedAll_in_order`). -/

namespace BlockIndex

/-! ### Whole numbers in binary -/

namespace Double

variable {s t : Bool} {m n : Nat} {e f i j unit finer : Int}

/-- A finite number in smaller units. -/
theorem inUnits_mul (s : Bool) (m : Nat) (hfiner : finer ≤ unit) (hunit : unit ≤ e) :
    inUnits s m e finer = inUnits s m e unit * 2 ^ (unit - finer).toNat := by
  have hpow : 2 ^ (e - finer).toNat = 2 ^ (e - unit).toNat * 2 ^ (unit - finer).toNat := by
    rw [← Nat.pow_add]
    congr 1
    omega
  unfold inUnits
  simp only [Nat.pow_eq, hpow]
  split <;> push_cast <;> ring

/-- A finite number is a whole number. -/
def IsWhole (s : Bool) (m : Nat) (e i : Int) : Prop :=
  inUnits s m e (min e 0) = i * 2 ^ (-min e 0).toNat

/-- A whole number in units that are small enough. -/
theorem IsWhole.inUnits_eq (h : IsWhole s m e i) (hunit : unit ≤ min e 0) :
    inUnits s m e unit = i * 2 ^ (-unit).toNat := by
  have hpow : (2 : Int) ^ (-unit).toNat = 2 ^ (-min e 0).toNat * 2 ^ (min e 0 - unit).toNat := by
    rw [← pow_add]
    congr 1
    omega
  rw [inUnits_mul s m hunit (min_le_left e 0), h, hpow, mul_assoc]

theorem mul_two_pow_lt_iff (k : Nat) : i * 2 ^ k < j * 2 ^ k ↔ i < j :=
  mul_lt_mul_iff_of_pos_right (by positivity)

/-- Whole numbers in binary are compared as whole numbers. -/
theorem IsWhole.less_eq (hx : IsWhole s m e i) (hy : IsWhole t n f j) :
    (finite s m e).less (.finite t n f) = decide (i < j) := by
  have hfiner : min (min e f) 0 ≤ min e f := min_le_left _ _
  have hlt : inUnits s m e (min e f) < inUnits t n f (min e f) ↔ i < j := by
    rw [← mul_two_pow_lt_iff (min e f - min (min e f) 0).toNat,
      ← inUnits_mul s m hfiner (min_le_left e f), ← inUnits_mul t n hfiner (min_le_right e f),
      hx.inUnits_eq (by omega), hy.inUnits_eq (by omega), mul_two_pow_lt_iff]
  exact decide_eq_decide.mpr hlt

end Double

namespace Service

open Double (IsWhole)

variable {s : Bool} {m : Nat} {e i j : Int} {a b x : Json} {xs : List Json}
  {ks : List (Json × Json)}

/-! ### Keys -/

theorem realLess_of_isWhole (h : IsWhole s m e i) :
    realLess (.finite s m e) j = decide (i < j) := by
  have hlt : Double.inUnits s m e (min e 0) < j * 2 ^ (-min e 0).toNat ↔ i < j := by
    rw [h, Double.mul_two_pow_lt_iff]
  exact decide_eq_decide.mpr hlt

theorem realGreater_of_isWhole (h : IsWhole s m e i) :
    realGreater (.finite s m e) j = decide (j < i) := by
  have hlt : j * 2 ^ (-min e 0).toNat < Double.inUnits s m e (min e 0) ↔ j < i := by
    rw [h, Double.mul_two_pow_lt_iff]
  exact decide_eq_decide.mpr hlt

/-- A key is a whole number, written as one or in binary; a truth value counts as 0 or 1. -/
inductive IsPlace : Json → Int → Prop
  | whole (i : Int) : IsPlace (.whole i) i
  | bool (b : Bool) : IsPlace (.bool b) b.toNat
  | real {s : Bool} {m : Nat} {e i : Int} (h : IsWhole s m e i) :
    IsPlace (.real (.finite s m e)) i

/-- Keys that are whole numbers are compared as whole numbers. -/
theorem before?_of_isPlace (ha : IsPlace a i) (hb : IsPlace b j) :
    before? a b = some (decide (i < j)) := by
  cases ha with
  | whole i =>
    cases hb with
    | whole j => simp [before?]
    | bool b => simp [before?]
    | real h => simp [before?, realGreater_of_isWhole h]
  | bool c =>
    cases hb with
    | whole j => simp [before?]
    | bool b => cases c <;> cases b <;> simp [before?]
    | real h => simp [before?, realGreater_of_isWhole h]
  | real h =>
    cases hb with
    | whole j => simp [before?, realLess_of_isWhole h]
    | bool b => simp [before?, realLess_of_isWhole h]
    | real h' => simp [before?, h.less_eq h']

/-- The whole number that a key is; zero for any other key. -/
def rank : Json → Int
  | .whole n => n
  | .bool b => b.toNat
  | .real (.finite s m e) => Double.inUnits s m e (min e 0) / 2 ^ (-min e 0).toNat
  | _ => 0

theorem IsPlace.rank_eq (h : IsPlace a i) : rank a = i := by
  cases h with
  | whole i => rfl
  | bool b => rfl
  | @real s m e i h =>
    rw [rank, h]
    exact Int.mul_ediv_cancel i (by positivity)

/-- The order in which keyed items are kept while they are sorted: the greatest key first. -/
abbrev Later (k l : Json × Json) : Prop := rank l.1 ≤ rank k.1

/-- Keyed items all of whose keys are whole numbers. -/
def Ranked (ks : List (Json × Json)) : Prop := ∀ k ∈ ks, IsPlace k.1 (rank k.1)

theorem insertKeyed_eq {k : Json × Json} (hk : IsPlace k.1 (rank k.1)) (hks : Ranked ks) :
    insertKeyed k ks = some (ks.orderedInsert Later k) := by
  induction ks with
  | nil => rfl
  | cons y ks ih =>
    obtain ⟨hy, hks⟩ := List.forall_mem_cons.mp hks
    rw [insertKeyed, before?_of_isPlace hk hy, Option.bind_eq_bind, Option.bind_some, ih hks,
      List.orderedInsert_cons]
    by_cases hlt : rank k.1 < rank y.1
    · rw [if_pos (decide_eq_true hlt), if_neg (Int.not_le.mpr hlt)]
      rfl
    · rw [if_neg (by simpa using hlt), if_pos (Int.not_lt.mp hlt)]

theorem foldlM_insertKeyed {done : List (Json × Json)} (hdone : Ranked done) (hks : Ranked ks) :
    ks.foldlM (fun done k => insertKeyed k done) done =
      some (ks.foldl (fun done k => done.orderedInsert Later k) done) := by
  induction ks generalizing done with
  | nil => rfl
  | cons k ks ih =>
    obtain ⟨hk, hks⟩ := List.forall_mem_cons.mp hks
    rw [List.foldlM_cons, insertKeyed_eq hk hdone, List.foldl_cons]
    refine ih (fun y hy => ?_) hks
    rcases List.mem_cons.mp ((List.perm_orderedInsert _ k done).mem_iff.mp hy) with rfl | hy
    · exact hk
    · exact hdone y hy

/-- Items whose keys are whole numbers can be ordered, and then their keys increase. -/
theorem exists_sortKeyed (hks : Ranked ks) :
    ∃ sorted, sortKeyed ks = some sorted ∧ sorted.Perm ks ∧
      (sorted.map fun k => rank k.1).Pairwise (· ≤ ·) := by
  have hsort : sortKeyed ks =
      some (ks.reverse.insertionSort Later).reverse := by
    have hnone : Ranked [] := fun _ hk => by cases hk
    rw [sortKeyed, foldlM_insertKeyed hnone hks, List.insertionSort, List.foldr_reverse]
    rfl
  refine ⟨_, hsort, ?_, ?_⟩
  · exact (List.reverse_perm _).trans ((List.perm_insertionSort _ _).trans (List.reverse_perm _))
  · rw [List.map_reverse, List.pairwise_reverse,
      List.map_insertionSort _ (fun i j => j ≤ i) _ _ fun _ _ _ _ => Iff.rfl]
    exact List.pairwise_insertionSort (fun i j : Int => j ≤ i) _

/-! ### Items -/

/-- An item that gives a place, and a vector of numbers, at least one. -/
def Gives (x : Json) (answer : Nat × List Double) : Prop :=
  ∃ ms key es, x = .object ms ∧ ms.lookup "index" = some key ∧ IsPlace key answer.1 ∧
    ms.lookup "embedding" = some (.array es) ∧ es ≠ [] ∧
    List.Forall₂ (fun e d => number e = .ok d) es answer.2

theorem mapM_eq_ok_iff {α β : Type} {g : α → Except ServiceError β} {xs : List α} {ys : List β} :
    xs.mapM g = .ok ys ↔ List.Forall₂ (fun x y => g x = .ok y) xs ys := by
  constructor
  · intro h
    induction xs generalizing ys with
    | nil =>
      cases h
      exact .nil
    | cons x xs ih =>
      rw [List.mapM_cons] at h
      obtain ⟨y, hy, h⟩ := bind_eq_ok h
      obtain ⟨ys', hys, h⟩ := bind_eq_ok h
      cases h
      exact .cons hy (ih hys)
  · intro h
    induction h with
    | nil => rfl
    | cons hy _ ih =>
      rw [List.mapM_cons, hy, ih]
      rfl

variable {answer : Nat × List Double} {answers : List (Nat × List Double)}

theorem Gives.vector_eq (h : Gives x answer) : vector x = .ok (Vector.ofDoubles answer.2) := by
  obtain ⟨ms, -, es, rfl, -, -, hes, hne, hnumbers⟩ := h
  have hfilled : (Json.array es).isEmpty = false := List.isEmpty_eq_false_iff.mpr hne
  simp only [vector_object, hes, Option.getD_some, hfilled, Bool.false_eq_true, if_false, parts?,
    mapM_eq_ok_iff.mpr hnumbers, Except.map]

theorem Gives.exists_place (h : Gives x answer) :
    ∃ key, place x = .ok key ∧ IsPlace key answer.1 := by
  obtain ⟨ms, key, -, rfl, hkey, hplace, -⟩ := h
  refine ⟨key, ?_, hplace⟩
  rw [place, hkey, Option.getD_some]

/-- A keyed item gives an answer. -/
def Keyed (k : Json × Json) (answer : Nat × List Double) : Prop :=
  IsPlace k.1 answer.1 ∧ vector k.2 = .ok (Vector.ofDoubles answer.2)

theorem exists_keys (h : List.Forall₂ Gives xs answers) :
    ∃ keys, xs.mapM place = .ok keys ∧ List.Forall₂ Keyed (keys.zip xs) answers := by
  induction h with
  | nil => exact ⟨[], rfl, .nil⟩
  | cons hx _ ih =>
    obtain ⟨key, hkey, hplace⟩ := hx.exists_place
    obtain ⟨keys, hkeys, hkeyed⟩ := ih
    refine ⟨key :: keys, ?_, .cons ⟨hplace, hx.vector_eq⟩ hkeyed⟩
    rw [List.mapM_cons, hkey, hkeys]
    rfl

theorem ranked_of_keyed (h : List.Forall₂ Keyed ks answers) : Ranked ks := by
  intro k hk
  induction h with
  | nil => cases hk
  | cons hkeyed _ ih =>
    rcases List.mem_cons.mp hk with rfl | hk
    · rw [hkeyed.1.rank_eq]
      exact hkeyed.1
    · exact ih hk

theorem map_rank_of_keyed (h : List.Forall₂ Keyed ks answers) :
    ks.map (fun k => rank k.1) = answers.map fun a => (a.1 : Int) := by
  induction h with
  | nil => rfl
  | cons hkeyed _ ih => rw [List.map_cons, List.map_cons, hkeyed.1.rank_eq, ih]

theorem mapM_vector_of_keyed (h : List.Forall₂ Keyed ks answers) :
    ks.mapM (fun k => vector k.2) = .ok (answers.map fun a => Vector.ofDoubles a.2) :=
  mapM_eq_ok_iff.mpr (List.forall₂_map_right_iff.mpr (h.imp fun _ _ hkeyed => hkeyed.2))

/-- Items whose places are those of the texts are read in the order of their places. -/
theorem exists_sorted_of_gives {count : Nat} (h : List.Forall₂ Gives xs answers)
    (hplaces : (answers.map (·.1)).Perm (List.range count)) :
    ∃ (keys : List Json) (sorted : List (Json × Json)) (inPlace : List (Nat × List Double)),
      xs.mapM place = .ok keys ∧ sortKeyed (keys.zip xs) = some sorted ∧
        sorted.mapM (fun k => vector k.2) = .ok (inPlace.map fun a => Vector.ofDoubles a.2) ∧
        inPlace.Perm answers ∧ inPlace.map (·.1) = List.range count := by
  obtain ⟨keys, hkeys, hkeyed⟩ := exists_keys h
  obtain ⟨sorted, hsorted, hperm, hincreasing⟩ := exists_sortKeyed (ranked_of_keyed hkeyed)
  -- sorting the items sorts their answers along with them
  obtain ⟨inPlace, hinPlace, hanswers⟩ := List.perm_comp_forall₂ hperm hkeyed
  refine ⟨keys, sorted, inPlace, hkeys, hsorted, mapM_vector_of_keyed hinPlace, hanswers, ?_⟩
  have hpairwise : (inPlace.map (·.1)).Pairwise (· ≤ ·) := by
    rw [map_rank_of_keyed hinPlace, List.pairwise_map] at hincreasing
    exact List.pairwise_map.mpr (hincreasing.imp Int.ofNat_le.mp)
  exact List.Perm.eq_of_pairwise (fun _ _ _ _ => Nat.le_antisymm) hpairwise
    List.pairwise_le_range ((hanswers.map _).trans hplaces)

/-! ### Answers -/

variable {r : Response} {ms : List (String × Json)} {count : Nat}

theorem members_of_success (hlow : 200 ≤ r.status) (hhigh : r.status < 300)
    (hbody : r.json = .ok (.object ms)) : members (.response r) = .ok ms := by
  simp [members, r.success hlow hhigh, hbody]

theorem items_eq_array (hdata : ms.lookup "data" = some (.array xs)) : items ms = .array xs := by
  cases xs with
  | nil => simp [items, hdata, Json.isEmpty]
  | cons x xs => simp [items, hdata, Json.isEmpty]

/-- Items that give each place once are read in the order of their places. -/
theorem readAll_of_gives {o : Outcome} (hmembers : members o = .ok ms)
    (hdata : ms.lookup "data" = some (.array xs)) (h : List.Forall₂ Gives xs answers)
    (hplaces : (answers.map (·.1)).Perm (List.range count)) :
    ∃ inPlace : List (Nat × List Double),
      readAll count o = .ok (inPlace.map fun a => Vector.ofDoubles a.2) ∧
        inPlace.Perm answers ∧ inPlace.map (·.1) = List.range count := by
  obtain ⟨keys, sorted, inPlace, hkeys, hsorted, hread, hperm, hinPlace⟩ :=
    exists_sorted_of_gives h hplaces
  have hlength : xs.length = count := by
    rw [h.length_eq, ← List.length_map, hplaces.length_eq, List.length_range]
  refine ⟨inPlace, ?_, hperm, hinPlace⟩
  rw [readAll, hmembers]
  simp only [bind, Except.bind, items_eq_array hdata, parts?, hlength, ne_eq, not_true_eq_false,
    if_false, hkeys, hsorted]
  exact hread

theorem readAll_of_length_ne {o : Outcome} (hmembers : members o = .ok ms)
    (hdata : ms.lookup "data" = some (.array xs)) (hne : xs.length ≠ count) :
    readAll count o = .error (.provider (.wrongCount count xs.length)) := by
  rw [readAll, hmembers]
  simp only [bind, Except.bind, items_eq_array hdata, parts?, if_pos hne]

theorem getElem?_of_map_fst_eq_range {α : Type} {inPlace : List (Nat × α)}
    (h : inPlace.map (·.1) = List.range count) {p : Nat × α} (hp : p ∈ inPlace) :
    inPlace[p.1]? = some p := by
  obtain ⟨i, hi, rfl⟩ := List.mem_iff_getElem.mp hp
  have hfst : (inPlace.map (·.1))[i]? = (List.range count)[i]? := by rw [h]
  have hlength : inPlace.length = count := by
    rw [← List.length_map, h, List.length_range]
  rw [List.getElem?_map, List.getElem?_eq_getElem hi, List.getElem?_range (hlength ▸ hi)] at hfst
  have hplace : inPlace[i].1 = i := Option.some.inj hfst
  rw [hplace, List.getElem?_eq_getElem hi]

/-- The vectors for some texts come in the order of the texts, whatever the order of the items in
the answer: the vector of the item with the place `i` is at `i`.  An answer with another number of
items than that of the texts is refused. -/
theorem embedAll_in_order (s : Service) (send : Request → Outcome) (timeout : Option Int)
    {texts : List String} (htexts : texts ≠ [])
    (hsend : send (s.request (.several texts) timeout) = .response r)
    (hlow : 200 ≤ r.status) (hhigh : r.status < 300) (hbody : r.json = .ok (.object ms))
    (hdata : ms.lookup "data" = some (.array xs)) :
    (∀ answers, List.Forall₂ Gives xs answers →
      (answers.map (·.1)).Perm (List.range texts.length) →
        ∃ vs, (s.embedAll send texts timeout).2 = .ok vs ∧ vs.length = texts.length ∧
          ∀ p ∈ answers, vs[p.1]? = some (Vector.ofDoubles p.2)) ∧
      (xs.length ≠ texts.length →
        (s.embedAll send texts timeout).2 =
          .error (.provider (.wrongCount texts.length xs.length))) := by
  have hmembers : members (.response r) = .ok ms := members_of_success hlow hhigh hbody
  have hread : (s.embedAll send texts timeout).2 = readAll texts.length (.response r) := by
    unfold embedAll
    rw [if_neg (fun hnil => htexts (List.isEmpty_iff.mp hnil)), ← hsend]
  rw [hread]
  constructor
  · intro answers hgives hplaces
    obtain ⟨inPlace, hvs, hperm, hinPlace⟩ := readAll_of_gives hmembers hdata hgives hplaces
    refine ⟨_, hvs, ?_, fun p hp => ?_⟩
    · simpa using congrArg List.length hinPlace
    · have hat := getElem?_of_map_fst_eq_range hinPlace (hperm.mem_iff.mpr hp)
      rw [List.getElem?_map, hat, Option.map_some]
  · exact readAll_of_length_ne hmembers hdata

/-- Two items come in the wrong order. -/
theorem embedAll_in_order_sample :
    let text := "\x7b\"data\": [\x7b\"index\": 1, \"embedding\": [2]\x7d, " ++
      "\x7b\"index\": 0, \"embedding\": [1, 2]\x7d]\x7d"
    let one := Double.finite false (2 ^ 52) (-52)
    let two := Double.finite false (2 ^ 52) (-51)
    ∃ vs, (({} : Service).embedAll (Sample.answer text) ["a", "b"] none).2 = .ok vs ∧
      vs.length = 2 ∧ vs[0]? = some [.real one, .real two] ∧ vs[1]? = some [.real two] := by
  intro text one two
  have hbody : (Backend.Http.response 200 text.toUTF8.toList).json = .ok (.object [("data", .array
      [.object [("index", .whole 1), ("embedding", .array [.whole 2])],
        .object [("index", .whole 0), ("embedding", .array [.whole 1, .whole 2])]])]) := by
    cbv
  have hone : number (.whole 1) = .ok one := by decide +kernel
  have htwo : number (.whole 2) = .ok two := by decide +kernel
  have hitem : ∀ (i : Nat) e es d ds,
      List.Forall₂ (fun e d => number e = .ok d) (e :: es) (d :: ds) →
        Gives (.object [("index", .whole i), ("embedding", .array (e :: es))]) (i, d :: ds) :=
    fun i e es d ds h => ⟨_, _, _, rfl, rfl, .whole i, rfl, List.cons_ne_nil e es, h⟩
  have hgives : List.Forall₂ Gives _ [(1, [two]), (0, [one, two])] :=
    .cons (hitem 1 _ _ _ _ (.cons htwo .nil))
      (.cons (hitem 0 _ _ _ _ (.cons hone (.cons htwo .nil))) .nil)
  have horder := embedAll_in_order {} (Sample.answer text) none (List.cons_ne_nil "a" ["b"]) rfl
    (by decide) (by decide) hbody rfl
  obtain ⟨vs, hvs, hlength, hplaces⟩ := horder.1 _ hgives (by decide)
  exact ⟨vs, hvs, hlength, hplaces (0, [one, two]) (by simp), hplaces (1, [two]) (by simp)⟩

end Service

end BlockIndex
