import Mathlib
import BlockIndex.Backend.Http
import BlockIndex.Proofs.Embedding.Provider

/-! Answers that a service cannot read.  Vectors that a service gives are usable.  A caller expects
no error but a refusal of the provider; any other comes of an answer whose body is not read to its
end, or some part of which is not of the kind that is needed.  This module says of which answers it
comes, for any library that sends requests and reads bodies.  Items are read in turn, so those after
a refusal do not matter. -/

namespace BlockIndex

namespace Service

variable {α β : Type} {x : Json} {xs : List Json} {o : Outcome}

/-- What a caller expects: a good result or a refusal of the provider. -/
def Handled (good : α → Prop) : Except ServiceError α → Prop
  | .ok a => good a
  | .error e => ∃ refusal, e = .provider refusal

/-- A vector that is not empty and has only numbers in binary. -/
def Usable (v : Vector) : Prop := v ≠ [] ∧ ∀ x ∈ v, ∃ d, x = .real d

/-! ### What can be read -/

/-- The property holds of each element, up to the first after which it does not go on. -/
def InTurn (P goesOn : α → Prop) : List α → Prop
  | [] => True
  | x :: xs => P x ∧ (goesOn x → InTurn P goesOn xs)

/-- A value stands for a number in binary. -/
def IsNumber : Json → Prop
  | .bool _ => True
  | .whole n => (Double.ofInt? n).isSome
  | .real _ => True
  | .text s => (Number.double? s.toList).isSome
  | _ => False

/-- An object has a vector that is not empty. -/
def HasVector : Json → Prop
  | .object ms => ((ms.lookup "embedding").getD .null).isEmpty = false
  | _ => False

/-- An object has no vector or one whose parts are numbers. -/
def IsItem : Json → Prop
  | .object ms =>
    let v := (ms.lookup "embedding").getD .null
    v.isEmpty = true ∨ ∃ xs, parts? v = some xs ∧ ∀ x ∈ xs, IsNumber x
  | _ => False

/-- A list whose first element, if it has any, is an item. -/
def StartsWithItem : Json → Prop
  | .array [] => True
  | .array (x :: _) => IsItem x
  | _ => False

/-- Values in the order of the places that they give for themselves, if all are objects and these
places can be compared. -/
def inOrder? (xs : List Json) : Option (List Json) :=
  match xs.mapM place with
  | .error _ => none
  | .ok keys => (sortKeyed (keys.zip xs)).map fun sorted => sorted.map (·.2)

/-- If a value has so many parts they can be ordered, and they are items up to the first that has no
vector. -/
def HoldsItems (count : Nat) (v : Json) : Prop :=
  ∃ xs, parts? v = some xs ∧
    (xs.length = count → ∃ sorted, inOrder? xs = some sorted ∧ InTurn IsItem HasVector sorted)

/-- A value that is not a number, or one with such a part. -/
inductive HoldsNan : Json → Prop
  | real : HoldsNan (.real .nan)
  | element {x : Json} {xs : List Json} (hx : x ∈ xs) (h : HoldsNan x) : HoldsNan (.array xs)
  | member {name : String} {x : Json} {ms : List (String × Json)} (hx : (name, x) ∈ ms)
    (h : HoldsNan x) : HoldsNan (.object ms)

/-- The places that the items of an answer give can be put into an order, if they can be compared at
all: what is not a number is neither before nor after anything. -/
def Orderly (o : Outcome) : Prop :=
  ∀ ms xs, members o = .ok ms → parts? (items ms) = some xs →
    ∀ x ∈ xs, ∀ key, place x = .ok key → ¬HoldsNan key

/-! ### Errors that are refusals -/

/-- Any error is a refusal of the provider. -/
def Expected (r : Except ServiceError α) : Prop :=
  ∀ e, r = .error e → ∃ refusal, e = .provider refusal

theorem handled_iff_expected {good : α → Prop} {r : Except ServiceError α}
    (h : ∀ a, r = .ok a → good a) : Handled good r ↔ Expected r := by
  cases r with
  | ok a => exact ⟨fun _ e he => (nomatch he), fun _ => h a rfl⟩
  | error e =>
    constructor
    · rintro ⟨refusal, rfl⟩ e he
      cases he
      exact ⟨refusal, rfl⟩
    · exact fun hexp => hexp e rfl

@[simp] theorem expected_ok (a : α) : Expected (.ok a : Except ServiceError α) := by
  intro e he
  cases he

@[simp] theorem expected_error (e : ServiceError) :
    Expected (.error e : Except ServiceError α) ↔ ∃ refusal, e = .provider refusal := by
  constructor
  · exact fun h => h e rfl
  · rintro h e' he
    cases he
    exact h

theorem expected_bind {r : Except ServiceError α} {g : α → Except ServiceError β} :
    Expected (r >>= g) ↔ Expected r ∧ ∀ a, r = .ok a → Expected (g a) := by
  cases r with
  | ok a =>
    show Expected (g a) ↔ _
    simp
  | error e =>
    show Expected (.error e) ↔ _
    simp

theorem expected_map {r : Except ServiceError α} {g : α → β} :
    Expected (r.map g) ↔ Expected r := by
  cases r with
  | ok a => simp [Except.map]
  | error e => simp [Except.map]

theorem InTurn.congr {P P' goesOn goesOn' : α → Prop} (hP : ∀ x, P x ↔ P' x)
    (hgoes : ∀ x, P x → (goesOn x ↔ goesOn' x)) (xs : List α) :
    InTurn P goesOn xs ↔ InTurn P' goesOn' xs := by
  induction xs with
  | nil => exact Iff.rfl
  | cons x xs ih =>
    rw [InTurn, InTurn, ← hP x]
    exact and_congr_right fun hx => by rw [hgoes x hx, ih]

theorem inTurn_map {P goesOn : β → Prop} {g : α → β} {xs : List α} :
    InTurn P goesOn (xs.map g) ↔ InTurn (fun x => P (g x)) (fun x => goesOn (g x)) xs := by
  induction xs with
  | nil => exact Iff.rfl
  | cons x xs ih => rw [List.map_cons, InTurn, InTurn, ih]

theorem inTurn_self {P : α → Prop} {xs : List α} : InTurn P P xs ↔ ∀ x ∈ xs, P x := by
  induction xs with
  | nil => simp [InTurn]
  | cons x xs ih =>
    rw [InTurn, List.forall_mem_cons, ih]
    exact and_congr_right fun hx => ⟨fun h => h hx, fun h _ => h⟩

/-- Elements are read in turn: the first error is the error of the list. -/
theorem expected_mapM {g : α → Except ServiceError β} {xs : List α} :
    Expected (xs.mapM g) ↔ InTurn (fun x => Expected (g x)) (fun x => ∃ u, g x = .ok u) xs := by
  induction xs with
  | nil =>
    rw [List.mapM_nil]
    simp [InTurn, pure, Except.pure]
  | cons x xs ih =>
    rw [List.mapM_cons, InTurn, ← ih, expected_bind]
    refine and_congr_right fun _ => ⟨fun h ⟨u, hu⟩ => ?_, fun h u hu => ?_⟩
    · exact (expected_bind.mp (h u hu)).1
    · exact expected_bind.mpr ⟨h ⟨u, hu⟩, fun us _ => expected_ok _⟩

theorem exists_error_of_mapM {g : α → Except ServiceError β} {xs : List α} {e : ServiceError}
    (h : xs.mapM g = .error e) : ∃ x ∈ xs, g x = .error e := by
  induction xs with
  | nil => cases h
  | cons x xs ih =>
    rw [List.mapM_cons] at h
    cases hx : g x with
    | error e' =>
      rw [hx] at h
      cases h
      exact ⟨x, List.mem_cons_self, hx⟩
    | ok u =>
      cases hxs : xs.mapM g with
      | error e' =>
        rw [hx, hxs] at h
        cases h
        obtain ⟨y, hy, he⟩ := ih hxs
        exact ⟨y, List.mem_cons_of_mem x hy, he⟩
      | ok us =>
        rw [hx, hxs] at h
        cases h

theorem exists_of_mem_mapM {g : α → Except ServiceError β} {xs : List α} {ys : List β} {y : β}
    (h : xs.mapM g = .ok ys) (hy : y ∈ ys) : ∃ x ∈ xs, g x = .ok y := by
  induction xs generalizing ys with
  | nil =>
    cases h
    cases hy
  | cons x xs ih =>
    rw [List.mapM_cons] at h
    obtain ⟨u, hu, h⟩ := bind_eq_ok h
    obtain ⟨us, hus, h⟩ := bind_eq_ok h
    cases h
    rcases List.mem_cons.mp hy with rfl | hy
    · exact ⟨x, List.mem_cons_self, hu⟩
    · obtain ⟨x', hx', hg⟩ := ih hus hy
      exact ⟨x', List.mem_cons_of_mem x hx', hg⟩

/-! ### Numbers and vectors -/

theorem number_cases (x : Json) :
    (IsNumber x ∧ ∃ d, number x = .ok d) ∨
      ¬IsNumber x ∧ ∃ e, number x = .error e ∧ ∀ refusal, e ≠ .provider refusal := by
  cases x with
  | bool b => exact .inl ⟨trivial, _, rfl⟩
  | real d => exact .inl ⟨trivial, d, rfl⟩
  | whole n =>
    cases h : Double.ofInt? n with
    | some d => exact .inl ⟨by simp [IsNumber, h], d, by simp [number, h]⟩
    | none => exact .inr ⟨by simp [IsNumber, h], .tooLarge, by simp [number, h], by simp⟩
  | text s =>
    cases h : Number.double? s.toList with
    | some d => exact .inl ⟨by simp [IsNumber, h], d, by simp [number, h]⟩
    | none => exact .inr ⟨by simp [IsNumber, h], .notANumber s, by simp [number, h], by simp⟩
  | null => exact .inr ⟨id, .wrongKind, rfl, by simp⟩
  | array xs => exact .inr ⟨id, .wrongKind, rfl, by simp⟩
  | object ms => exact .inr ⟨id, .wrongKind, rfl, by simp⟩

theorem exists_number_iff : (∃ d, number x = .ok d) ↔ IsNumber x := by
  rcases number_cases x with ⟨hx, hd⟩ | ⟨hx, e, he, -⟩
  · exact ⟨fun _ => hx, fun _ => hd⟩
  · simp [hx, he]

theorem expected_number_iff : Expected (number x) ↔ IsNumber x := by
  rcases number_cases x with ⟨hx, d, hd⟩ | ⟨hx, e, he, hne⟩
  · simp [hx, hd]
  · simp [hx, he, hne]

theorem expected_mapM_number : Expected (xs.mapM number) ↔ ∀ x ∈ xs, IsNumber x := by
  rw [expected_mapM, InTurn.congr (fun _ => expected_number_iff) fun _ _ => exists_number_iff]
  exact inTurn_self

theorem ne_nil_of_parts {v : Json} (h : parts? v = some xs) (hv : v.isEmpty = false) : xs ≠ [] := by
  rintro rfl
  cases v <;> simp_all [parts?, Json.isEmpty]

theorem vector_object (ms : List (String × Json)) :
    vector (.object ms) =
      let v := (ms.lookup "embedding").getD .null
      if v.isEmpty then .error (.provider .noVector)
      else match parts? v with
        | some xs => (xs.mapM number).map Vector.ofDoubles
        | none => .error .wrongKind := rfl

theorem expected_vector_iff : Expected (vector x) ↔ IsItem x := by
  cases x with
  | object ms =>
    rw [vector_object, IsItem]
    simp only
    cases hv : ((ms.lookup "embedding").getD .null).isEmpty with
    | true => simp
    | false =>
      cases hparts : parts? ((ms.lookup "embedding").getD .null) with
      | none => simp
      | some xs => simp [expected_map, expected_mapM_number]
  | _ => simp [vector, IsItem]

theorem exists_vector_iff (h : IsItem x) : (∃ u, vector x = .ok u) ↔ HasVector x := by
  cases x with
  | object ms =>
    rw [vector_object, HasVector]
    simp only
    cases hv : ((ms.lookup "embedding").getD .null).isEmpty with
    | true => simp
    | false =>
      obtain ⟨xs, hparts, hxs⟩ := h.resolve_left (by simp [hv])
      cases hds : xs.mapM number with
      | ok ds => simp [hparts, hds, Except.map]
      | error e =>
        obtain ⟨y, hy, he⟩ := exists_error_of_mapM hds
        obtain ⟨d, hd⟩ := exists_number_iff.mpr (hxs y hy)
        cases he.symm.trans hd
  | _ => exact h.elim

theorem usable_of_vector {u : Vector} (h : vector x = .ok u) : Usable u := by
  cases x with
  | object ms =>
    rw [vector_object] at h
    simp only at h
    split at h
    · cases h
    · next hv =>
      split at h
      · next xs hparts =>
        cases hds : xs.mapM number with
        | error e =>
          rw [hds] at h
          cases h
        | ok ds =>
          rw [hds] at h
          cases h
          have hlength : ds.length = xs.length := length_of_mapM hds
          have hxs : xs.length ≠ 0 := fun h0 =>
            ne_nil_of_parts hparts (by simpa using hv) (List.eq_nil_of_length_eq_zero h0)
          constructor
          · intro hnil
            have hzero := congrArg List.length hnil
            simp only [Vector.ofDoubles, List.length_map, List.length_nil] at hzero
            omega
          · intro y hy
            obtain ⟨d, -, rfl⟩ := List.mem_map.mp hy
            exact ⟨d, rfl⟩
      · cases h
  | _ => cases h

/-! ### Answers -/

/-- The members of an answer are read without surprise exactly if its body is read to its end. -/
theorem expected_members_iff : Expected (members o) ↔ members o ≠ .error .bodyNotRead := by
  unfold members
  cases o with
  | failed text => simp
  | response r =>
    cases hok : r.isOk with
    | false => simp [hok]
    | true =>
      simp only [hok, Bool.not_true, Bool.false_eq_true, if_false]
      split <;> simp

/-- The vector in the first item is read without surprise exactly if that is an item. -/
theorem expected_read_iff :
    Expected (read o) ↔ members o ≠ .error .bodyNotRead ∧
      ∀ ms, members o = .ok ms → StartsWithItem (items ms) := by
  unfold read
  rw [expected_bind, expected_members_iff]
  refine and_congr_right fun _ => forall₂_congr fun ms _ => ?_
  cases items ms with
  | array xs =>
    cases xs with
    | nil => simp [StartsWithItem]
    | cons x xs => exact expected_vector_iff
  | _ => simp [StartsWithItem]

theorem usable_of_read {u : Vector} (h : read o = .ok u) : Usable u := by
  obtain ⟨ms, -, h⟩ := bind_eq_ok h
  dsimp only at h
  split at h
  · cases h
  · exact usable_of_vector h
  · cases h
  · cases h
  · cases h

theorem eq_noMembers_of_place {e : ServiceError} (h : place x = .error e) : e = .noMembers := by
  cases x <;> cases h <;> rfl

/-- Items are read without surprise exactly if they can be ordered and are items up to the first
that has no vector. -/
theorem expected_items_iff : Expected (do
      let keys ← xs.mapM place
      match sortKeyed (keys.zip xs) with
      | none => .error .wrongKind
      | some sorted => sorted.mapM fun x => vector x.2) ↔
    ∃ sorted, inOrder? xs = some sorted ∧ InTurn IsItem HasVector sorted := by
  unfold inOrder?
  cases hkeys : xs.mapM place with
  | error e =>
    obtain ⟨x, -, hx⟩ := exists_error_of_mapM hkeys
    obtain rfl := eq_noMembers_of_place hx
    simp [bind, Except.bind]
  | ok keys =>
    rw [expected_bind]
    cases hsorted : sortKeyed (keys.zip xs) with
    | none => simp [hsorted]
    | some sorted =>
      have hread : Expected (sorted.mapM fun x => vector x.2) ↔
          InTurn IsItem HasVector (sorted.map (·.2)) := by
        rw [expected_mapM, inTurn_map]
        exact InTurn.congr (fun _ => expected_vector_iff)
          (fun _ hx => exists_vector_iff (expected_vector_iff.mp hx)) sorted
      simp [hsorted, hread]

theorem expected_readAll_iff (count : Nat) :
    Expected (readAll count o) ↔ members o ≠ .error .bodyNotRead ∧
      ∀ ms, members o = .ok ms → HoldsItems count (items ms) := by
  unfold readAll
  rw [expected_bind, expected_members_iff]
  refine and_congr_right fun _ => forall₂_congr fun ms _ => ?_
  -- a wrong number of items is a refusal, and then nothing is asked of them
  unfold HoldsItems
  cases parts? (items ms) with
  | none => simp
  | some xs =>
    simp only [Option.some.injEq, exists_eq_left']
    split
    · next hcount => simp [hcount]
    · next hcount =>
      rw [forall_prop_of_true (Decidable.not_not.mp hcount)]
      exact expected_items_iff

theorem usable_of_readAll {count : Nat} {us : List Vector} (h : readAll count o = .ok us) :
    ∀ u ∈ us, Usable u := by
  obtain ⟨ms, -, h⟩ := bind_eq_ok h
  split at h
  · cases h
  · split at h
    · cases h
    · obtain ⟨keys, -, h⟩ := bind_eq_ok h
      split at h
      · cases h
      · intro u hu
        obtain ⟨x, -, hx⟩ := exists_of_mem_mapM h hu
        exact usable_of_vector hx

/-- Whatever comes of a request, `embed` gives a usable vector or a refusal exactly if the body of
the answer is read and it starts with an item.  If the places can be put into an order, `embedAll`
gives a usable vector for each text or a refusal exactly if the body is read and it holds items.
Answers with an error status, those that are no JSON and those that are no object are refused. -/
theorem handled_iff (s : Service) (send : Request → Outcome) (timeout : Option Int) :
    (∀ text, Handled Usable (s.embed send text timeout).2 ↔
      let o := send (s.request (.one text) timeout)
      members o ≠ .error .bodyNotRead ∧
        ∀ ms, members o = .ok ms → StartsWithItem (items ms)) ∧
    ∀ texts, texts ≠ [] → Orderly (send (s.request (.several texts) timeout)) →
      (Handled (fun us => us.length = texts.length ∧ ∀ u ∈ us, Usable u)
          (s.embedAll send texts timeout).2 ↔
        let o := send (s.request (.several texts) timeout)
        members o ≠ .error .bodyNotRead ∧
          ∀ ms, members o = .ok ms → HoldsItems texts.length (items ms)) := by
  constructor
  · intro text
    rw [← expected_read_iff]
    exact handled_iff_expected fun u hu => usable_of_read hu
  · intro texts hne _
    have hread : (s.embedAll send texts timeout).2 =
        readAll texts.length (send (s.request (.several texts) timeout)) := by
      unfold embedAll
      rw [if_neg (fun hnil => hne (List.isEmpty_iff.mp hnil))]
    rw [hread, ← expected_readAll_iff]
    exact handled_iff_expected fun us hus => ⟨length_readAll hus, usable_of_readAll hus⟩

namespace Sample

/-- An answer with a text for a body. -/
def answer (text : String) : Request → Outcome :=
  fun _ => .response (Backend.Http.response 200 text.toUTF8.toList)

end Sample

/-- Two items come in the wrong order, and one of the numbers is a truth value. -/
theorem handled_iff_sample :
    let send := Sample.answer ("\x7b\"data\": [\x7b\"index\": 1, \"embedding\": [2]\x7d, " ++
      "\x7b\"index\": 0, \"embedding\": [true]\x7d]\x7d")
    Handled (fun us => us.length = 2 ∧ ∀ u ∈ us, Usable u)
      (({} : Service).embedAll send ["a", "b"] none).2 := by
  intro send
  have hmembers : ∀ r, members (send r) = .ok [("data", .array
      [.object [("index", .whole 1), ("embedding", .array [.whole 2])],
        .object [("index", .whole 0), ("embedding", .array [.bool true])]])] := by
    intro r
    cbv
  have horderly : Orderly (send (({} : Service).request (.several ["a", "b"]) none)) := by
    intro ms xs hms hxs x hx key hkey hnan
    cases (hmembers _).symm.trans hms
    cases hxs
    fin_cases hx <;> cases hkey <;> cases hnan
  apply ((handled_iff {} send none).2 ["a", "b"] (List.cons_ne_nil _ _) horderly).mpr
  refine ⟨by simp [hmembers], fun ms hms => ?_⟩
  cases (hmembers _).symm.trans hms
  refine ⟨_, rfl, fun _ => ⟨_, by cbv, ?_⟩⟩
  have hitem : ∀ i x, IsNumber x → IsItem (.object [("index", i), ("embedding", .array [x])]) :=
    fun i x hx => .inr ⟨[x], rfl, by simpa using hx⟩
  have hwhole : (Double.ofInt? 2).isSome = true := by decide +kernel
  exact ⟨hitem _ _ trivial, fun _ => ⟨hitem _ _ hwhole, fun _ => trivial⟩⟩

/-- A vector with a null in it is neither read nor refused. -/
theorem embed_null :
    let r := ({} : Service).embed
      (Sample.answer "\x7b\"data\": [\x7b\"embedding\": [null]\x7d]\x7d") "a" none
    r.2 = .error .wrongKind ∧ ¬Handled Usable r.2 := by
  intro r
  have hr : r.2 = .error .wrongKind := by decide +kernel
  refine ⟨hr, ?_⟩
  rw [hr]
  rintro ⟨refusal, he⟩
  cases he

end Service

end BlockIndex
