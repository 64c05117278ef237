import BlockIndex.Proofs.Run.Elapsed
import Mathlib.Data.List.Nodup

/-! Filling in vectors, call by call.  The rows that wait are asked for in groups of one size, and the
vectors that are brought are written one after the other, each with a call of its own (`ends_backfill`).
So a row still waits exactly if its group was not asked for, its request was refused, or the call
that was to write its vector was refused; nothing but vectors of waiting rows is changed. -/

namespace BlockIndex

/-! ### Groups of one size -/

namespace Run

variable {α : Type} {size n : Nat} {xs group g : List α}

theorem groupsFrom_eq (hgroup : group.length < size) :
    groupsFrom size group xs = if group ++ xs = [] then []
      else (group ++ xs).take size :: groupsOf size ((group ++ xs).drop size) := by
  induction xs generalizing group with
  | nil =>
    rw [groupsFrom, List.append_nil, List.take_of_length_le (Nat.le_of_lt hgroup),
      List.drop_of_length_le (Nat.le_of_lt hgroup)]
    cases group <;> rfl
  | cons x xs ih =>
    have hne : group ++ x :: xs ≠ [] := by simp
    rw [groupsFrom, if_neg hne]
    split
    · next hlt =>
      have hmore : (group ++ [x]) ++ xs ≠ [] := by simp
      rw [ih (by simpa using hlt), if_neg hmore, List.append_assoc]
      rfl
    · next hfull =>
      have hsize : size = (group ++ [x]).length := by simp; omega
      have happend : group ++ x :: xs = (group ++ [x]) ++ xs := List.append_cons ..
      rw [happend, hsize, List.take_left, List.drop_left]
      rfl

/-- The first group is as large as it can be, and the others are those of the rest. -/
theorem groupsOf_eq (hsize : 0 < size) (hxs : xs ≠ []) :
    groupsOf size xs = xs.take size :: groupsOf size (xs.drop size) := by
  rw [groupsOf, groupsFrom_eq (by simpa using hsize), List.nil_append, if_neg hxs]

theorem groupsOf_nil : groupsOf size ([] : List α) = [] := rfl

/-- The groups are the slices of their size. -/
theorem getElem?_groupsOf (hsize : 0 < size) :
    (groupsOf size xs)[n]? =
      if n * size < xs.length then some ((xs.drop (n * size)).take size) else none := by
  induction n generalizing xs with
  | zero =>
    by_cases hxs : xs = []
    · simp [hxs, groupsOf_nil]
    · simp [groupsOf_eq hsize hxs, List.length_pos_iff.mpr hxs]
  | succ n ih =>
    by_cases hxs : xs = []
    · simp [hxs, groupsOf_nil]
    · have hmul : (n + 1) * size = size + n * size := by rw [Nat.succ_mul, Nat.add_comm]
      have hlt : n * size < xs.length - size ↔ size + n * size < xs.length := by omega
      rw [groupsOf_eq hsize hxs, List.getElem?_cons_succ, ih, hmul]
      simp only [List.length_drop, List.drop_drop, hlt]

theorem flatten_take_groupsOf (hsize : 0 < size) :
    ((groupsOf size xs).take n).flatten = xs.take (n * size) := by
  induction n generalizing xs with
  | zero => simp
  | succ n ih =>
    by_cases hxs : xs = []
    · simp [hxs, groupsOf_nil]
    · rw [groupsOf_eq hsize hxs, List.take_succ_cons, List.flatten_cons, ih, Nat.succ_mul,
        Nat.add_comm, List.take_add]

theorem lt_length_groupsOf (hsize : 0 < size) :
    n < (groupsOf size xs).length ↔ n * size < xs.length := by
  have hnone : (groupsOf size xs)[n]? = none ↔ (groupsOf size xs).length ≤ n :=
    List.getElem?_eq_none_iff
  rw [getElem?_groupsOf hsize, ite_eq_right_iff] at hnone
  simp only [reduceCtorEq, imp_false, not_lt] at hnone
  omega

/-- An element is in the group that its place tells. -/
theorem exists_group {x : α} {j : Nat} (hsize : 0 < size) (h : xs[j]? = some x) :
    ∃ group, (groupsOf size xs)[j / size]? = some group ∧ group[j % size]? = some x := by
  have hplace : j / size * size + j % size = j := by
    rw [Nat.mul_comm]
    exact Nat.div_add_mod j size
  have hlt : j / size * size < xs.length := by
    have hj := (List.getElem?_eq_some_iff.mp h).1
    omega
  refine ⟨_, by rw [getElem?_groupsOf hsize, if_pos hlt], ?_⟩
  rw [List.getElem?_take_of_lt (Nat.mod_lt j hsize), List.getElem?_drop, hplace, h]

/-- The place of an element of a group. -/
theorem place_of_group {x : α} {i m : Nat} (hsize : 0 < size)
    (hgroup : (groupsOf size xs)[i]? = some group) (hx : group[m]? = some x) :
    m < size ∧ xs[i * size + m]? = some x := by
  rw [getElem?_groupsOf hsize] at hgroup
  split at hgroup
  · cases hgroup
    rw [List.getElem?_take] at hx
    split at hx
    · next hm => exact ⟨hm, by rw [← List.getElem?_drop, hx]⟩
    · cases hx
  · cases hgroup

/-! ### Runs that end -/

/-- The run ends in the world, and `P` holds of its result and of the world after it. -/
def Ends (x : Run α) (w : World) (P : α → World → Prop) : Prop :=
  ∃ a w', outcome x w = (.ok a, w') ∧ P a w'

/-- From one world to another so many calls to the store and these requests were made, and the store
is the given one. -/
structure After (w w' : World) (calls : Nat) (asked : List ProviderCall) (s : Store) : Prop where
  faults : w'.faults = w.faults
  calls : w'.calls = w.calls + calls
  requests : w'.requests.toList = w.requests.toList ++ asked
  store : w'.store = s

namespace Ends

variable {β : Type} {x : Run α} {w : World} {P : α → World → Prop} {Q : β → World → Prop}

theorem pure {a : α} (h : P a w) : Ends (Pure.pure a) w P := ⟨a, w, rfl, h⟩

theorem bind {y : α → Run β} (hx : Ends x w P) (hy : ∀ a w', P a w' → Ends (y a) w' Q) :
    Ends (x >>= y) w Q := by
  obtain ⟨a, w', hx, ha⟩ := hx
  obtain ⟨b, w'', hy, hb⟩ := hy a w' ha
  refine ⟨b, w'', ?_, hb⟩
  rw [outcome_bind, hx]
  exact hy

theorem mono {P' : α → World → Prop} (h : Ends x w P) (hP : ∀ a w', P a w' → P' a w') :
    Ends x w P' := by
  obtain ⟨a, w', hx, ha⟩ := h
  exact ⟨a, w', hx, hP a w' ha⟩

end Ends

variable {w w' w'' : World} {asked asked' : List ProviderCall} {s s' : Store}

theorem After.refl : After w w 0 [] w.store := ⟨rfl, rfl, by simp, rfl⟩

theorem After.trans {m n : Nat} (h : After w w' m asked s) (h' : After w' w'' n asked' s') :
    After w w'' (m + n) (asked ++ asked') s' where
  faults := h'.faults.trans h.faults
  calls := by rw [h'.calls, h.calls, Nat.add_assoc]
  requests := by rw [h'.requests, h.requests, List.append_assoc]
  store := h'.store

theorem After.size_eq {n : Nat} (h : After w w' n asked s) :
    w'.requests.size = w.requests.size + asked.length := by
  have hlen := congrArg List.length h.requests
  simpa using hlen

theorem ends_log {l : LogLine} : Ends (log l) w fun _ w' => After w w' 0 [] w.store :=
  ⟨(), _, rfl, rfl, rfl, by simp, rfl⟩

theorem ends_logAll {ls : List LogLine} :
    Ends (logAll ls) w fun _ w' => After w w' 0 [] w.store := by
  unfold logAll
  induction ls generalizing w with
  | nil => exact .pure .refl
  | cons l ls ih =>
    refine ends_log.bind fun _ w' h => ih.mono fun _ w'' h' => ?_
    rw [h.store] at h'
    exact h.trans h'

/-- Setting the vector of a row is refused or changes the row. -/
theorem ends_attempt_setVector {id : Nat} {x : Vector} (hopen : w.store.isClosed = false)
    (hfit : id < StoreCall.limit) (hrow : ∃ r ∈ w.store.rows, r.id = id) :
    Ends (attempt (setVector id x)) w fun a w' =>
      a = .ok () ∧ w.faults w.calls (.setVector id) = none ∧
        After w w' 1 [] { w.store with rows := w.store.rows.map (Row.given id x) } ∨
      (∃ e, a = .error e) ∧ w.faults w.calls (.setVector id) ≠ none ∧
        After w w' 1 [] w.store := by
  have hfits : (StoreCall.setVector id).fits = true := by
    simp only [StoreCall.fits, Bool.and_eq_true, decide_eq_true_eq]
    unfold StoreCall.limit at hfit ⊢
    omega
  cases hset : w.store.setVector? id x with
  | none =>
    obtain ⟨r, hr, hid⟩ := hrow
    exact absurd hid (Store.ne_of_setVector?_eq_none hset r hr)
  | some s =>
    obtain rfl := Store.rows_setVector? hset
    cases hfault : w.faults w.calls (.setVector id) with
    | none =>
      refine ⟨.ok (), { w with
        calls := w.calls + 1
        store := { w.store with rows := w.store.rows.map (Row.given id x) } },
        ?_, .inl ⟨rfl, rfl, rfl, rfl, ?_, rfl⟩⟩
      · rw [outcome_attempt, setVector, outcome_call]
        simp only [hfault, hopen, hfits, hset]
        rfl
      · simp
    | some text =>
      refine ⟨.error (.refused text), { w with
        calls := w.calls + 1
        refused := w.refused.push (.setVector id) }, ?_,
        .inr ⟨⟨_, rfl⟩, by simp, rfl, rfl, ?_, rfl⟩⟩
      · rw [outcome_attempt, setVector, outcome_call]
        simp only [hfault]
      · simp

theorem ends_clock : Ends clock w fun now w' => now = w.clock ∧ w' = w := ⟨_, _, rfl, rfl, rfl⟩

theorem ends_send {p : Provider} {texts : List String} {timeout : Int} :
    Ends (send p texts timeout) w fun vectors w' =>
      vectors = (p w.requests.size texts timeout).vectors ∧
        After w w' 0 [⟨texts, timeout⟩] w.store :=
  ⟨_, _, rfl, rfl, rfl, rfl, by simp, rfl⟩

/-- A request is made unless it is too late, and is answered or refused. -/
theorem ends_request {p : Provider} {deadline : Int} {texts : List String}
    (hrefuse : p.OnlyRefuses) :
    Ends (request p deadline texts) w fun d w' =>
      d = .late ∧ After w w' 0 [] w.store ∨
      ∃ timeout, After w w' 0 [⟨texts, timeout⟩] w.store ∧
        ((∃ e, (p w.requests.size texts timeout).vectors = .error e) ∧ d = .refused ∨
          ∃ vs, (p w.requests.size texts timeout).vectors = .ok vs ∧ d = .vectors vs) := by
  refine ends_clock.bind ?_
  rintro _ w' ⟨rfl, rfl⟩
  dsimp only
  split
  · exact .pure (.inl ⟨rfl, .refl⟩)
  · refine ends_send.bind ?_
    rintro _ w₁ ⟨rfl, hsent⟩
    split
    · next vs hreply => exact .pure (.inr ⟨_, hsent, .inr ⟨vs, hreply, rfl⟩⟩)
    · next e hreply =>
      refine ends_log.bind fun _ w₂ hlog => .pure (.inr ⟨_, ?_, .inl ⟨⟨_, hreply⟩, rfl⟩⟩)
      rw [hsent.store] at hlog
      exact hsent.trans hlog
    · next e hother hreply =>
      obtain ⟨refusal, rfl⟩ := hrefuse _ _ _ _ hreply
      exact absurd rfl (hother refusal)

end Run

/-! ### What is brought and what is written -/

/-- The rows whose vectors can be written, with these vectors, when the first update is call number
`n` to the store. -/
def Faults.accepted (f : Faults) : Nat → List (Row × Vector) → List (Row × Vector)
  | _, [] => []
  | n, e :: es =>
    if f n (.setVector e.1.id) = Option.none then e :: f.accepted (n + 1) es else f.accepted (n + 1) es

/-- The rows of groups for which requests bring vectors, with these vectors. -/
def Provider.brought (p : Provider) :
    Nat → List ProviderCall → List (List Row) → List (Row × Vector)
  | earlier, call :: calls, group :: groups =>
    (match (p earlier call.texts call.timeout).vectors with
    | .ok vs => group.zip vs
    | .error _ => []) ++ p.brought (earlier + 1) calls groups
  | _, _, _ => []

section Written

variable {f : Faults} {n : Nat} {es es' : List (Row × Vector)} {e : Row × Vector}

theorem Faults.accepted_append :
    f.accepted n (es ++ es') = f.accepted n es ++ f.accepted (n + es.length) es' := by
  induction es generalizing n with
  | nil => rfl
  | cons e es ih =>
    have hcount : n + 1 + es.length = n + (es.length + 1) := by omega
    simp only [List.cons_append, accepted, ih, List.length_cons, hcount]
    split <;> rfl

theorem Faults.mem_accepted :
    e ∈ f.accepted n es ↔ ∃ i, es[i]? = some e ∧ f (n + i) (.setVector e.1.id) = Option.none := by
  induction es generalizing n with
  | nil => simp [accepted]
  | cons e' es ih =>
    have hrest : e ∈ f.accepted (n + 1) es ↔
        ∃ i, (e' :: es)[i + 1]? = some e ∧ f (n + (i + 1)) (.setVector e.1.id) = Option.none := by
      rw [ih]
      refine exists_congr fun i => ?_
      rw [List.getElem?_cons_succ, Nat.add_right_comm n 1 i, Nat.add_assoc]
    have hsplit : e ∈ f.accepted n (e' :: es) ↔
        e = e' ∧ f n (.setVector e'.1.id) = Option.none ∨ e ∈ f.accepted (n + 1) es := by
      rw [accepted]
      split
      · next h => simp [h]
      · next h => simp [h]
    rw [hsplit, hrest]
    constructor
    · rintro (⟨rfl, hfirst⟩ | ⟨i, hi, haccepted⟩)
      · exact ⟨0, rfl, hfirst⟩
      · exact ⟨i + 1, hi, haccepted⟩
    · rintro ⟨_ | i, hi, haccepted⟩
      · cases hi
        exact .inl ⟨rfl, haccepted⟩
      · exact .inr ⟨i, hi, haccepted⟩

theorem Faults.accepted_sublist : (f.accepted n es).Sublist es := by
  induction es generalizing n with
  | nil => exact List.Sublist.refl _
  | cons e es ih =>
    rw [accepted]
    split
    · exact ih.cons_cons e
    · exact ih.cons e

section

variable {p : Provider} {call : ProviderCall} {calls : List ProviderCall} {group : List Row}
  {groups : List (List Row)}

theorem Provider.brought_of_ok {vs : List Vector}
    (h : (p n call.texts call.timeout).vectors = .ok vs) :
    p.brought n (call :: calls) (group :: groups) =
      group.zip vs ++ p.brought (n + 1) calls groups := by
  rw [brought, h]

theorem Provider.brought_of_error {error : ServiceError}
    (h : (p n call.texts call.timeout).vectors = .error error) :
    p.brought n (call :: calls) (group :: groups) = p.brought (n + 1) calls groups := by
  rw [brought, h]
  rfl

end

/-- The rows for which vectors are brought are those of the groups, in their order. -/
theorem Provider.brought_sublist {p : Provider} {calls : List ProviderCall}
    {groups : List (List Row)} :
    ((p.brought n calls groups).map (·.1)).Sublist (groups.take calls.length).flatten := by
  induction calls generalizing n groups with
  | nil => simp [brought]
  | cons call calls ih =>
    cases groups with
    | nil => simp [brought]
    | cons group groups =>
      rw [brought, List.map_append, List.length_cons, List.take_succ_cons, List.flatten_cons]
      refine List.Sublist.append ?_ ih
      split
      · exact map_fst_zip_sublist _ _
      · exact List.nil_sublist _

/-- A vector is brought for a row if the request for its group is answered. -/
theorem Provider.mem_brought {p : Provider} {calls : List ProviderCall}
    {groups : List (List Row)} :
    e ∈ p.brought n calls groups ↔ ∃ i call group vs, calls[i]? = some call ∧
      groups[i]? = some group ∧ (p (n + i) call.texts call.timeout).vectors = .ok vs ∧
        e ∈ group.zip vs := by
  induction calls generalizing n groups with
  | nil => simp [brought]
  | cons call calls ih =>
    cases groups with
    | nil => simp [brought]
    | cons group groups =>
      rw [brought, List.mem_append, ih]
      constructor
      · rintro (he | ⟨i, call', group', vs, hcall, hgroup, hreply, he⟩)
        · split at he
          · next vs hreply => exact ⟨0, call, group, vs, rfl, rfl, hreply, he⟩
          · cases he
        · rw [Nat.add_right_comm n 1 i, Nat.add_assoc] at hreply
          exact ⟨i + 1, call', group', vs, hcall, hgroup, hreply, he⟩
      · rintro ⟨_ | i, call', group', vs, hcall, hgroup, hreply, he⟩
        · cases hcall
          cases hgroup
          rw [Nat.add_zero] at hreply
          rw [hreply]
          exact .inl he
        · rw [← Nat.add_assoc, Nat.add_right_comm] at hreply
          exact .inr ⟨i, call', group', vs, hcall, hgroup, hreply, he⟩

end Written

/-! ### Runs of filling in -/

namespace Run

variable {w : World} {ix : Indexer} {p : Provider} {deadline : Int} {t : Tally}
  {group : List (Row × Vector)} {groups : List (List Row)}

/-- The store is open, and the rows that are to get vectors are in it with numbers that fit. -/
structure Ready (s : Store) (rs : List Row) : Prop where
  isOpen : s.isClosed = false
  held : ∀ r ∈ rs, ∃ r' ∈ s.rows, r'.id = r.id
  fits : ∀ r ∈ rs, r.id < StoreCall.limit

namespace Ready

variable {s : Store} {rs rs' : List Row}

theorem mono (h : Ready s rs) (hrs : rs' ⊆ rs) : Ready s rs' where
  isOpen := h.isOpen
  held := fun r hr => h.held r (hrs hr)
  fits := fun r hr => h.fits r (hrs hr)

theorem give {e : Row × Vector} (h : Ready s rs) : Ready (s.give e) rs where
  isOpen := h.isOpen
  held := by
    intro r hr
    obtain ⟨r', hr', hid⟩ := h.held r hr
    refine ⟨r'.given e.1.id e.2, List.mem_map.mpr ⟨r', hr', rfl⟩, ?_⟩
    rw [Row.id_given, hid]
  fits := h.fits

theorem foldl_give {es : List (Row × Vector)} (h : Ready s rs) :
    Ready (es.foldl Store.give s) rs := by
  induction es generalizing s with
  | nil => exact h
  | cons e es ih => exact ih h.give

end Ready

/-- The vectors of a group are written but for those whose call is refused. -/
theorem ends_fillGroup (hready : Ready w.store (group.map (·.1))) :
    Ends (fillGroup group t) w fun t' w' =>
      After w w' group.length [] ((w.faults.accepted w.calls group).foldl Store.give w.store) ∧
        t'.errors + (w.faults.accepted w.calls group).length = t.errors + group.length := by
  induction group generalizing w t with
  | nil => exact .pure ⟨.refl, rfl⟩
  | cons e group ih =>
    obtain ⟨r, x⟩ := e
    have hfirst : r ∈ ((r, x) :: group).map (·.1) := List.mem_cons_self
    have hrest : Ready w.store (group.map (·.1)) := hready.mono (List.subset_cons_self _ _)
    rw [Faults.accepted]
    refine (ends_attempt_setVector hready.isOpen (hready.fits r hfirst)
      (hready.held r hfirst)).bind fun a w₁ ha => ?_
    rcases ha with ⟨rfl, hnone, hset⟩ | ⟨⟨err, rfl⟩, hsome, hset⟩
    · have hready₁ : Ready w₁.store (group.map (·.1)) := by
        rw [hset.store]
        exact hrest.give (e := (r, x))
      refine (ih hready₁).mono fun t' w' ht' => ?_
      obtain ⟨hafter, herrors⟩ := ht'
      rw [hset.faults, hset.calls] at hafter herrors
      rw [if_pos hnone]
      refine ⟨?_, ?_⟩
      · have hboth := hset.trans hafter
        rw [hset.store, Nat.add_comm 1] at hboth
        exact hboth
      · simp only [List.length_cons]
        omega
    · rw [if_neg hsome]
      refine ends_log.bind fun _ w₂ hlog => ?_
      have hlog : After w w₂ 1 [] w.store := hset.trans (hset.store ▸ hlog)
      have hready₂ : Ready w₂.store (group.map (·.1)) := by
        rw [hlog.store]
        exact hrest
      refine (ih hready₂).mono fun t' w' ht' => ?_
      obtain ⟨hafter, herrors⟩ := ht'
      rw [hlog.faults, hlog.calls] at hafter herrors
      refine ⟨?_, ?_⟩
      · have hboth := hlog.trans hafter
        rw [hlog.store, Nat.add_comm 1] at hboth
        exact hboth
      · simp only [List.length_cons, Tally.fail] at herrors ⊢
        omega

/-- Filling in the vectors of groups makes requests for the first ones and writes what they bring,
but for the vectors whose call is refused. -/
theorem ends_fillGroups (hrefuse : p.OnlyRefuses) (hcount : p.KeepsCount)
    (hready : Ready w.store groups.flatten) :
    Ends (fillGroups ix p deadline groups t) w fun t' w' => ∃ calls,
      After w w' (p.brought w.requests.size calls groups).length calls
        ((w.faults.accepted w.calls (p.brought w.requests.size calls groups)).foldl
          Store.give w.store) ∧
      t'.errors + (w.faults.accepted w.calls (p.brought w.requests.size calls groups)).length =
        t.errors + (groups.take calls.length).flatten.length := by
  induction groups generalizing w t with
  | nil => exact .pure ⟨[], .refl, rfl⟩
  | cons g gs ih =>
    rw [List.flatten_cons] at hready
    -- the updates of the other groups come after those of the first one, if it brings any
    refine (ends_request hrefuse).bind fun d w₁ hd => ?_
    rcases hd with ⟨rfl, hlate⟩ | ⟨timeout, hasked, ⟨⟨e, hreply⟩, rfl⟩ | ⟨vs, hreply, rfl⟩⟩
    · refine ends_log.bind fun _ w₂ hlog => .pure ⟨[], ?_, rfl⟩
      exact hlate.trans (hlate.store ▸ hlog)
    · have hready₁ : Ready w₁.store gs.flatten := by
        rw [hasked.store]
        exact hready.mono (List.subset_append_right _ _)
      refine (ih hready₁).mono fun t' w' ht' => ?_
      obtain ⟨calls, hafter, herrors⟩ := ht'
      rw [hasked.size_eq, hasked.faults, hasked.calls] at hafter herrors
      refine ⟨⟨g.map (·.text), timeout⟩ :: calls, ?_, ?_⟩
      · rw [Provider.brought_of_error hreply, ← Nat.zero_add (List.length _), ← hasked.store]
        exact hasked.trans hafter
      · rw [Provider.brought_of_error hreply, List.length_cons, List.take_succ_cons,
          List.flatten_cons, List.length_append]
        exact herrors.trans (Nat.add_assoc ..)
    · have hgroup : Ready w₁.store ((g.zip vs).map (·.1)) := by
        rw [hasked.store]
        exact hready.mono (List.Subset.trans (map_fst_zip_sublist g vs).subset
          (List.subset_append_left _ _))
      refine (ends_fillGroup hgroup).bind fun t₁ w₂ hfilled => ?_
      obtain ⟨hwrote, herrors₁⟩ := hfilled
      have hready₂ : Ready w₂.store gs.flatten := by
        rw [hwrote.store, hasked.store]
        exact (hready.mono (List.subset_append_right _ _)).foldl_give
      refine (ih hready₂).mono fun t' w' ht' => ?_
      obtain ⟨calls, hafter, herrors⟩ := ht'
      have hboth := hasked.trans hwrote
      rw [hboth.size_eq, hboth.faults, hboth.calls] at hafter herrors
      rw [hasked.faults, hasked.calls] at herrors₁
      have hlen : (g.zip vs).length = g.length := by
        have hvs := hcount _ _ _ _ hreply
        rw [List.length_map] at hvs
        rw [List.length_zip]
        omega
      refine ⟨⟨g.map (·.text), timeout⟩ :: calls, ?_, ?_⟩
      · rw [hboth.store, hasked.store, hasked.faults, hasked.calls] at hafter
        rw [Provider.brought_of_ok hreply, Faults.accepted_append, List.foldl_append,
          List.length_append, ← Nat.zero_add (List.length (g.zip vs))]
        exact hboth.trans hafter
      · rw [Provider.brought_of_ok hreply, List.length_cons, List.take_succ_cons,
          List.flatten_cons, List.length_append, Faults.accepted_append, List.length_append]
        simp only [Nat.zero_add, Nat.add_zero, List.append_nil, List.length_singleton]
          at herrors herrors₁
        omega

theorem ends_pending (hopen : w.store.isClosed = false)
    (hread : w.faults w.calls .pending = none) :
    Ends pending w fun rows w' => rows = w.store.pending ∧ After w w' 1 [] w.store := by
  refine ⟨w.store.pending, { w with calls := w.calls + 1 }, ?_, rfl, rfl, rfl, by simp, rfl⟩
  rw [pending, ask, outcome_call]
  simp only [hread, hopen]
  rfl

/-- Filling in vectors reads the rows that wait with the first call to the store, and writes the
vectors that are brought for them with one call for each. -/
theorem ends_backfill (hp : ix.provider = some p) (hrefuse : p.OnlyRefuses)
    (hcount : p.KeepsCount) (hread : w.faults w.calls .pending = none)
    (hready : Ready w.store w.store.pending) :
    Ends (backfill ix) w fun t w' => ∃ calls,
      let groups := groupsOf ix.groupSize w.store.pending
      let brought := p.brought w.requests.size calls groups
      let accepted := w.faults.accepted (w.calls + 1) brought
      After w w' (1 + brought.length) calls (accepted.foldl Store.give w.store) ∧
        t.errors + accepted.length = (groups.take calls.length).flatten.length := by
  unfold backfill
  rw [hp]
  refine ends_clock.bind ?_
  rintro _ w₀ ⟨rfl, rfl⟩
  refine (ends_pending hready.isOpen hread).bind ?_
  rintro _ w₁ ⟨rfl, hfirst⟩
  dsimp only
  split
  · next hnone =>
    refine ends_log.bind fun _ w₂ hlog => .pure ⟨[], ?_, ?_⟩
    · exact hfirst.trans (hfirst.store ▸ hlog)
    · rfl
  · refine ends_log.bind fun _ w₂ hlog => ?_
    have hbefore : After w₀ w₂ 1 [] w₀.store := hfirst.trans (hfirst.store ▸ hlog)
    refine ends_clock.bind ?_
    rintro _ w₃ ⟨rfl, rfl⟩
    have hready₃ : Ready w₃.store (groupsOf ix.groupSize w₀.store.pending).flatten := by
      rw [hbefore.store, flatten_groupsOf]
      exact hready
    refine (ends_fillGroups hrefuse hcount hready₃).bind fun t w₄ hfilled => ?_
    obtain ⟨calls, hafter, herrors⟩ := hfilled
    refine ends_clock.bind ?_
    rintro _ w₅ ⟨rfl, rfl⟩
    have hall := hbefore.trans hafter
    rw [hbefore.size_eq, hbefore.faults, hbefore.calls, hbefore.store] at hall
    rw [hbefore.size_eq, hbefore.faults, hbefore.calls] at herrors
    refine ends_logAll.bind fun _ w₆ hlog => .pure ⟨calls, ?_, ?_⟩
    · have hlogged := hall.trans hlog
      rw [hall.store, List.append_nil] at hlogged
      exact hlogged
    · exact herrors.trans (Nat.zero_add _)

end Run

end BlockIndex
