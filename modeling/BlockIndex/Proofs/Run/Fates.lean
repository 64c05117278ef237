import BlockIndex.Proofs.Run.Filling

/-! What becomes of the rows that wait when vectors are filled in.  A row still waits exactly if the
time was over before its group, if the request for its group was refused, or if the call that was to
write its vector was refused (`Run.Misses`); each other one has the vector that the provider brought
for its text, and nothing but the vectors of waiting rows has changed. -/

namespace BlockIndex

/-! ### Vectors one after the other -/

/-- A row without its vector. -/
def Row.unfilled (r : Row) : Row := { r with vector := none }

/-- A row after the vectors of some rows were set one after the other. -/
def Row.gifted (es : List (Row × Vector)) (a : Row) : Row :=
  es.foldl (fun a e => a.given e.1.id e.2) a

section Gifted

variable {es : List (Row × Vector)} {a r : Row} {x : Vector} {s : Store}

theorem Store.foldl_give : es.foldl give s = { s with rows := s.rows.map (Row.gifted es) } := by
  induction es generalizing s with
  | nil =>
    show s = { s with rows := s.rows.map fun a => a }
    rw [List.map_id'']
    exact fun _ => rfl
  | cons e es ih =>
    rw [List.foldl_cons, ih]
    simp only [give, List.map_map]
    rfl

theorem Row.unfilled_given {id : Nat} : (a.given id x).unfilled = a.unfilled := by
  unfold given
  split <;> rfl

theorem Row.unfilled_gifted : (a.gifted es).unfilled = a.unfilled := by
  induction es generalizing a with
  | nil => rfl
  | cons e es ih => exact ih.trans unfilled_given

/-- A row is left alone by the vectors of rows with other numbers. -/
theorem Row.gifted_of_ne (h : ∀ e ∈ es, e.1.id ≠ a.id) : a.gifted es = a := by
  induction es with
  | nil => rfl
  | cons e es ih =>
    obtain ⟨hfirst, hrest⟩ := List.forall_mem_cons.mp h
    show (a.given e.1.id e.2).gifted es = a
    rw [given_of_ne hfirst.symm, ih hrest]

/-- Where each row gets one vector at most, a row has the vector that it is given. -/
theorem Row.gifted_of_mem (hids : (es.map (·.1.id)).Nodup) (h : (r, x) ∈ es) :
    r.gifted es = { r with vector := some x } := by
  induction es with
  | nil => cases h
  | cons e es ih =>
    obtain ⟨hnot, hids⟩ := List.nodup_cons.mp hids
    rcases List.mem_cons.mp h with rfl | h
    · show (r.given r.id x).gifted es = _
      rw [given, if_pos rfl]
      exact gifted_of_ne fun e he hid => hnot (List.mem_map.mpr ⟨e, he, hid⟩)
    · have hne : r.id ≠ e.1.id := fun hid => hnot (List.mem_map.mpr ⟨_, h, hid⟩)
      show (r.given e.1.id e.2).gifted es = _
      rw [given_of_ne hne, ih hids h]

end Gifted

namespace Run

variable {ix : Indexer} {p : Provider} {w : World} {calls : List ProviderCall} {t : Tally}
  {s : Store} {r : Row} {x : Vector} {j n : Nat}

/-- Why the row in a place among those that wait still waits after some requests. -/
inductive Misses (ix : Indexer) (p : Provider) (w : World) (calls : List ProviderCall) (j : Nat)
    (r : Row) : Prop
  /-- The time was over before its group. -/
  | late (h : Ticks.deadline w.clock ix.timeout ≤
      w.clock + p.spent w.requests.size (calls.take (j / ix.groupSize)))
  | refused {call : ProviderCall} {e : ServiceError} (hcall : calls[j / ix.groupSize]? = some call)
      (h : (p (w.requests.size + j / ix.groupSize) call.texts call.timeout).vectors = .error e)
  /-- The store refused its vector. -/
  | unwritten {i : Nat} {x : Vector}
      (h : (p.brought w.requests.size calls
        (groupsOf ix.groupSize w.store.pending))[i]? = some (r, x))
      (hf : w.faults (w.calls + 1 + i) (.setVector r.id) ≠ none)

/-- What some requests bring for the rows that wait and the store accepts. -/
def accepted (ix : Indexer) (p : Provider) (w : World) (calls : List ProviderCall) :
    List (Row × Vector) :=
  w.faults.accepted (w.calls + 1)
    (p.brought w.requests.size calls (groupsOf ix.groupSize w.store.pending))

/-- What filling in vectors did when it made some requests: it asked for the first groups while time
was left, and wrote what was accepted. -/
structure Served (ix : Indexer) (p : Provider) (w : World) (t : Tally)
    (calls : List ProviderCall) (w' : World) : Prop where
  requests : w'.requests.toList = w.requests.toList ++ calls
  store : w'.store = (accepted ix p w calls).foldl Store.give w.store
  errors : t.errors + (accepted ix p w calls).length =
    ((groupsOf ix.groupSize w.store.pending).take calls.length).flatten.length
  texts : calls.map (·.texts) =
    ((groupsOf ix.groupSize w.store.pending).take calls.length).map fun g => g.map (·.text)
  length : calls.length ≤ (groupsOf ix.groupSize w.store.pending).length
  inTime : ∀ n < calls.length,
    w.clock + p.spent w.requests.size (calls.take n) < Ticks.deadline w.clock ix.timeout
  all : t.timedOut = false → calls.length = (groupsOf ix.groupSize w.store.pending).length
  elapsed : t.timedOut = true ↔
    Ticks.deadline w.clock ix.timeout ≤ w.clock + p.spent w.requests.size calls ∧
      calls.length < (groupsOf ix.groupSize w.store.pending).length

/-- Filling in vectors ends, and serves the rows that wait. -/
theorem exists_served (hp : ix.provider = some p) (hrefuse : p.OnlyRefuses)
    (hcount : p.KeepsCount) (hread : w.faults w.calls .pending = none)
    (hready : Ready w.store w.store.pending) :
    ∃ t calls, (outcome (backfill ix) w).1 = .ok t ∧
      Served ix p w t calls (outcome (backfill ix) w).2 := by
  obtain ⟨t, w', hrun, calls, hafter, herrors⟩ :=
    ends_backfill hp hrefuse hcount hread hready
  obtain ⟨turns, hturns, hgives, hover⟩ := (backfilled_outcome ix w).turned hp hrefuse
  rw [hrun] at hturns hover ⊢
  obtain ⟨hall, hover⟩ := hover t rfl
  -- the turns are those of the requests
  have hcalls : calls = turns.map (·.call) :=
    List.append_cancel_left (hafter.requests.symm.trans hturns.requests)
  have hlength : turns.length = calls.length := by rw [hcalls, List.length_map]
  rw [← hcalls, hlength] at hover
  refine ⟨t, calls, rfl, ⟨hafter.requests, hafter.store, herrors, ?_, ?_, ?_, ?_, hover⟩⟩
  · rw [hcalls, List.map_map, List.length_map]
    exact hgives.texts
  · rw [← hlength]
    exact hgives.length
  · intro n hn
    have hleft := hturns.left n (hlength ▸ hn)
    rw [hturns.timeout n (hlength ▸ hn), List.map_take, ← hcalls, Ticks.left_pos_iff] at hleft
    exact Int.sub_pos.mp hleft
  · exact fun htime => hlength.symm.trans (hall htime)

namespace Served

variable {w' : World}

/-- The time was over before a group exactly if the group was not asked for. -/
theorem late_iff (h : Served ix p w t calls w')
    (hn : n < (groupsOf ix.groupSize w.store.pending).length) :
    Ticks.deadline w.clock ix.timeout ≤ w.clock + p.spent w.requests.size (calls.take n) ↔
      calls.length ≤ n := by
  constructor
  · intro hlate
    by_contra hlt
    have htime := h.inTime n (by omega)
    omega
  · intro hle
    have hover : t.timedOut = true := by
      by_contra htime
      have hall := h.all (Bool.eq_false_iff.mpr htime)
      omega
    rw [List.take_of_length_le hle]
    exact (h.elapsed.mp hover).1

end Served

/-- A vector is brought for a row that waits if the request for its group is answered. -/
theorem mem_brought_iff (hnodup : w.store.pending.Nodup) (hj : w.store.pending[j]? = some r) :
    (r, x) ∈ p.brought w.requests.size calls (groupsOf ix.groupSize w.store.pending) ↔
      ∃ call vs, calls[j / ix.groupSize]? = some call ∧
        (p (w.requests.size + j / ix.groupSize) call.texts call.timeout).vectors = .ok vs ∧
          vs[j % ix.groupSize]? = some x := by
  have hsize := ix.groupSize_pos
  rw [Provider.mem_brought]
  constructor
  · rintro ⟨i, call, group, vs, hcall, hgroup, hreply, hmem⟩
    obtain ⟨m, hm⟩ := List.mem_iff_getElem?.mp hmem
    obtain ⟨hrow, hvector⟩ := List.getElem?_zip_eq_some.mp hm
    obtain ⟨hlt, hplace⟩ := place_of_group hsize hgroup hrow
    have hjlt := (List.getElem?_eq_some_iff.mp hj).1
    obtain rfl : j = i * ix.groupSize + m :=
      (List.getElem?_inj hjlt hnodup).mp (hj.trans hplace.symm)
    have hdiv : (i * ix.groupSize + m) / ix.groupSize = i := by
      rw [Nat.mul_comm, Nat.mul_add_div hsize, Nat.div_eq_of_lt hlt, Nat.add_zero]
    have hmod : (i * ix.groupSize + m) % ix.groupSize = m := by
      rw [Nat.mul_comm, Nat.mul_add_mod, Nat.mod_eq_of_lt hlt]
    rw [hdiv, hmod]
    exact ⟨call, vs, hcall, hreply, hvector⟩
  · rintro ⟨call, vs, hcall, hreply, hvector⟩
    obtain ⟨group, hgroup, hrow⟩ := exists_group hsize hj
    refine ⟨_, call, group, vs, hcall, hgroup, hreply, List.mem_iff_getElem?.mpr ?_⟩
    exact ⟨j % ix.groupSize, List.getElem?_zip_eq_some.mpr ⟨hrow, hvector⟩⟩

theorem brought_sublist_pending :
    ((p.brought n calls (groupsOf ix.groupSize w.store.pending)).map (·.1)).Sublist
      w.store.pending := by
  refine Provider.brought_sublist.trans ?_
  rw [flatten_take_groupsOf ix.groupSize_pos]
  exact List.take_sublist _ _

theorem accepted_sublist_pending :
    ((accepted ix p w calls).map (·.1)).Sublist w.store.pending :=
  (Faults.accepted_sublist.map _).trans brought_sublist_pending

/-- A row for which no vector is accepted is left alone. -/
theorem gifted_of_not_accepted {a : Row} (hids : (w.store.rows.map (·.id)).Nodup)
    (ha : a ∈ w.store.rows) (hnone : ∀ x, (a, x) ∉ accepted ix p w calls) :
    a.gifted (accepted ix p w calls) = a := by
  refine Row.gifted_of_ne ?_
  rintro ⟨r, x⟩ he hid
  have hwaits : r ∈ w.store.pending :=
    accepted_sublist_pending.subset (List.mem_map.mpr ⟨_, he, rfl⟩)
  obtain rfl : r = a := List.inj_on_of_nodup_map hids (List.mem_filter.mp hwaits).1 ha hid
  exact hnone x he

theorem gifted_of_filled {a : Row} (hids : (w.store.rows.map (·.id)).Nodup)
    (ha : a ∈ w.store.rows) (hfilled : a.isPending = false) :
    a.gifted (accepted ix p w calls) = a := by
  refine gifted_of_not_accepted hids ha fun x hx => ?_
  have hwaits : a ∈ w.store.pending :=
    accepted_sublist_pending.subset (List.mem_map.mpr ⟨_, hx, rfl⟩)
  rw [(List.mem_filter.mp hwaits).2] at hfilled
  cases hfilled

theorem gifted_of_accepted (hids : (w.store.rows.map (·.id)).Nodup)
    (hx : (r, x) ∈ accepted ix p w calls) :
    r.gifted (accepted ix p w calls) = { r with vector := some x } := by
  have hsub : ((accepted ix p w calls).map (·.1)).Sublist w.store.rows :=
    accepted_sublist_pending.trans List.filter_sublist
  have honce := hsub.map (·.id)
  rw [List.map_map] at honce
  exact Row.gifted_of_mem (hids.sublist honce) hx

/-- A vector is brought at most once for each row. -/
theorem brought_place {i i' : Nat} {x' : Vector} (hnodup : w.store.pending.Nodup)
    (h : (p.brought n calls (groupsOf ix.groupSize w.store.pending))[i]? = some (r, x))
    (h' : (p.brought n calls (groupsOf ix.groupSize w.store.pending))[i']? = some (r, x')) :
    i = i' := by
  have hrows : ((p.brought n calls (groupsOf ix.groupSize w.store.pending)).map (·.1)).Nodup :=
    hnodup.sublist brought_sublist_pending
  have hi := congrArg (Option.map Prod.fst) h
  have hi' := congrArg (Option.map Prod.fst) h'
  rw [← List.getElem?_map] at hi hi'
  exact (List.getElem?_inj (List.getElem?_eq_some_iff.mp hi).1 hrows).mp (hi.trans hi'.symm)

namespace Served

variable {w' : World}

/-- A request has the texts of its group. -/
theorem texts_eq {call : ProviderCall} {group : List Row} (h : Served ix p w t calls w')
    (hcall : calls[n]? = some call)
    (hgroup : (groupsOf ix.groupSize w.store.pending)[n]? = some group) :
    call.texts = group.map (·.text) := by
  have hlt := (List.getElem?_eq_some_iff.mp hcall).1
  have hn := congrArg (·[n]?) h.texts
  simp only [List.getElem?_map, List.getElem?_take_of_lt hlt, hcall, hgroup,
    Option.map_some, Option.some.injEq] at hn
  exact hn

theorem slice_of_call {call : ProviderCall} (h : Served ix p w t calls w')
    (hcall : calls[n]? = some call) :
    n * ix.groupSize < w.store.pending.length ∧ call.texts =
      ((w.store.pending.drop (n * ix.groupSize)).take ix.groupSize).map (·.text) := by
  have hsize := ix.groupSize_pos
  have hasked := (List.getElem?_eq_some_iff.mp hcall).1
  have hplace := (lt_length_groupsOf hsize).mp (Nat.lt_of_lt_of_le hasked h.length)
  refine ⟨hplace, h.texts_eq hcall ?_⟩
  rw [getElem?_groupsOf hsize, if_pos hplace]

/-- The requests have the texts of the first rows that wait. -/
theorem flatMap_texts (h : Served ix p w t calls w') :
    calls.flatMap (·.texts) =
      (w.store.pending.map (·.text)).take (calls.length * ix.groupSize) := by
  rw [List.flatMap_def, h.texts, ← List.map_flatten, flatten_take_groupsOf ix.groupSize_pos,
    List.map_take]

/-- Unless the time was over the requests have the texts of all rows that wait. -/
theorem flatMap_texts_eq (h : Served ix p w t calls w') (htime : t.timedOut = false) :
    calls.flatMap (·.texts) = w.store.pending.map (·.text) := by
  have hasked : calls.length < (groupsOf ix.groupSize w.store.pending).length ↔
      calls.length * ix.groupSize < w.store.pending.length := lt_length_groupsOf ix.groupSize_pos
  have hall := h.all htime
  rw [h.flatMap_texts, List.take_of_length_le]
  rw [List.length_map]
  omega

/-- The vector that is accepted for a row which does not miss it is the one for its text. -/
theorem exists_accepted (h : Served ix p w t calls w') (hcount : p.KeepsCount)
    (hnodup : w.store.pending.Nodup) (hj : w.store.pending[j]? = some r)
    (hmiss : ¬Misses ix p w calls j r) :
    ∃ call vs x, calls[j / ix.groupSize]? = some call ∧
      (p (w.requests.size + j / ix.groupSize) call.texts call.timeout).vectors = .ok vs ∧
        call.texts[j % ix.groupSize]? = some r.text ∧ vs[j % ix.groupSize]? = some x ∧
          (r, x) ∈ accepted ix p w calls := by
  obtain ⟨group, hgroup, hrow⟩ := exists_group ix.groupSize_pos hj
  have hlt := (List.getElem?_eq_some_iff.mp hgroup).1
  have hasked : j / ix.groupSize < calls.length := by
    by_contra hnot
    exact hmiss (.late ((h.late_iff hlt).mpr (by omega)))
  have hcall := List.getElem?_eq_getElem hasked
  have htext : calls[j / ix.groupSize].texts[j % ix.groupSize]? = some r.text := by
    rw [h.texts_eq hcall hgroup, List.getElem?_map, hrow]
    rfl
  cases hreply : (p (w.requests.size + j / ix.groupSize) calls[j / ix.groupSize].texts
      calls[j / ix.groupSize].timeout).vectors with
  | error e => exact absurd (.refused hcall hreply) hmiss
  | ok vs =>
    have hvs : j % ix.groupSize < vs.length := by
      rw [hcount _ _ _ _ hreply]
      exact (List.getElem?_eq_some_iff.mp htext).1
    have hvector := List.getElem?_eq_getElem hvs
    have hbrought := (mem_brought_iff hnodup hj).mpr ⟨_, vs, hcall, hreply, hvector⟩
    obtain ⟨i, hi⟩ := List.mem_iff_getElem?.mp hbrought
    have haccepted : w.faults (w.calls + 1 + i) (.setVector r.id) = none := by
      by_contra hfault
      exact hmiss (.unwritten hi hfault)
    exact ⟨_, vs, _, hcall, hreply, htext, hvector, Faults.mem_accepted.mpr ⟨i, hi, haccepted⟩⟩

/-- For a row that misses its vector none is accepted. -/
theorem not_mem_accepted (h : Served ix p w t calls w') (hnodup : w.store.pending.Nodup)
    (hj : w.store.pending[j]? = some r) (hmiss : Misses ix p w calls j r) :
    (r, x) ∉ accepted ix p w calls := by
  intro hmem
  obtain ⟨i, hi, haccepted⟩ := Faults.mem_accepted.mp hmem
  obtain ⟨call, vs, hcall, hreply, -⟩ :=
    (mem_brought_iff hnodup hj).mp (List.mem_of_getElem? hi)
  cases hmiss with
  | late hlate =>
    obtain ⟨group, hgroup, -⟩ := exists_group ix.groupSize_pos hj
    have hle := (h.late_iff (List.getElem?_eq_some_iff.mp hgroup).1).mp hlate
    rw [List.getElem?_eq_none_iff.mpr hle] at hcall
    cases hcall
  | refused hcall' herror =>
    cases hcall.symm.trans hcall'
    cases hreply.symm.trans herror
  | @unwritten i' x' hi' hfault =>
    rw [brought_place hnodup hi' hi] at hfault
    exact hfault haccepted

/-! #### Rows -/

theorem rows_eq (h : Served ix p w t calls w') :
    w'.store.rows = w.store.rows.map (Row.gifted (accepted ix p w calls)) := by
  rw [h.store, Store.foldl_give]

theorem mem_rows (h : Served ix p w t calls w') {a : Row} (ha : a ∈ w.store.rows) :
    a.gifted (accepted ix p w calls) ∈ w'.store.rows := by
  rw [h.rows_eq]
  exact List.mem_map.mpr ⟨a, ha, rfl⟩

/-- Filling in changes nothing in a row but its vector. -/
theorem unfilled_rows (h : Served ix p w t calls w') :
    w'.store.rows.map Row.unfilled = w.store.rows.map Row.unfilled := by
  rw [h.rows_eq, List.map_map]
  exact List.map_congr_left fun a _ => Row.unfilled_gifted

theorem nodup_ids (h : Served ix p w t calls w') (hids : (w.store.rows.map (·.id)).Nodup) :
    (w'.store.rows.map (·.id)).Nodup := by
  have hsame := congrArg (List.map (·.id)) h.unfilled_rows
  simp only [List.map_map] at hsame
  have hsame : w'.store.rows.map (·.id) = w.store.rows.map (·.id) := hsame
  rwa [hsame]

/-- A row that waited waits at the end exactly if it misses its vector. -/
theorem mem_pending_iff (h : Served ix p w t calls w') (hcount : p.KeepsCount)
    (hids : (w.store.rows.map (·.id)).Nodup) (hj : w.store.pending[j]? = some r) :
    r ∈ w'.store.pending ↔ Misses ix p w calls j r := by
  have hnodup : w.store.pending.Nodup := hids.of_map.filter _
  obtain ⟨hr, hwaits⟩ := List.mem_filter.mp (List.mem_of_getElem? hj)
  constructor
  · intro hpending
    by_contra hmiss
    obtain ⟨_, _, x, -, -, -, -, hx⟩ := h.exists_accepted hcount hnodup hj hmiss
    have hgiven := h.mem_rows hr
    rw [gifted_of_accepted hids hx] at hgiven
    have hfilled : r = { r with vector := some x } :=
      List.inj_on_of_nodup_map (h.nodup_ids hids) (List.mem_filter.mp hpending).1 hgiven rfl
    rw [hfilled] at hwaits
    cases hwaits
  · intro hmiss
    have hleft := h.mem_rows hr
    rw [gifted_of_not_accepted hids hr fun x => h.not_mem_accepted hnodup hj hmiss] at hleft
    exact List.mem_filter.mpr ⟨hleft, hwaits⟩

/-- At the end no row waits exactly if as many vectors were accepted as rows waited. -/
theorem pending_eq_nil_iff_length (h : Served ix p w t calls w')
    (hids : (w.store.rows.map (·.id)).Nodup) :
    w'.store.pending = [] ↔ (accepted ix p w calls).length = w.store.pending.length := by
  have hsub : ((accepted ix p w calls).map (·.1)).Sublist w.store.pending :=
    accepted_sublist_pending
  have hnodup : w.store.pending.Nodup := hids.of_map.filter _
  constructor
  · intro hnone
    have hall : w.store.pending ⊆ (accepted ix p w calls).map (·.1) := by
      intro r hr
      obtain ⟨hmem, hwaits⟩ := List.mem_filter.mp hr
      by_contra hmiss
      have hleft := h.mem_rows hmem
      rw [gifted_of_not_accepted hids hmem fun x hx =>
        hmiss (List.mem_map.mpr ⟨_, hx, rfl⟩)] at hleft
      have hstill : r ∈ w'.store.pending := List.mem_filter.mpr ⟨hleft, hwaits⟩
      rw [hnone] at hstill
      cases hstill
    have hle := hsub.length_le
    have hge := (List.subperm_of_subset hnodup hall).length_le
    rw [List.length_map] at hle hge
    omega
  · intro hlen
    have hall := hsub.eq_of_length (by rwa [List.length_map])
    refine List.filter_eq_nil_iff.mpr fun r' hr' => ?_
    rw [h.rows_eq] at hr'
    obtain ⟨a, ha, rfl⟩ := List.mem_map.mp hr'
    by_cases hwaits : a.isPending = true
    · have hmem : a ∈ (accepted ix p w calls).map (·.1) := by
        rw [hall]
        exact List.mem_filter.mpr ⟨ha, hwaits⟩
      obtain ⟨⟨r, x⟩, hx, rfl⟩ := List.mem_map.mp hmem
      rw [gifted_of_accepted hids hx]
      exact Bool.noConfusion
    · rwa [gifted_of_filled hids ha (Bool.eq_false_iff.mpr hwaits)]

/-- At the end no row waits exactly if the run counted no error and was in time. -/
theorem pending_eq_nil_iff (h : Served ix p w t calls w')
    (hids : (w.store.rows.map (·.id)).Nodup) :
    w'.store.pending = [] ↔ t.errors = 0 ∧ t.timedOut = false := by
  have hsize := ix.groupSize_pos
  have hasked : calls.length < (groupsOf ix.groupSize w.store.pending).length ↔
      calls.length * ix.groupSize < w.store.pending.length := lt_length_groupsOf hsize
  have herrors := h.errors
  rw [flatten_take_groupsOf hsize, List.length_take] at herrors
  rw [h.pending_eq_nil_iff_length hids]
  constructor
  · intro hlen
    refine ⟨by omega, Bool.eq_false_iff.mpr fun htime => ?_⟩
    have hmore := hasked.mp (h.elapsed.mp htime).2
    omega
  · rintro ⟨hzero, htime⟩
    have hall := h.all htime
    omega

end Served

/-- Where no row waits no request is made. -/
theorem requests_backfill (h : w.store.pending = []) :
    (outcome (backfill ix) w).2.requests = w.requests := by
  have hx : ∀ r v, Backfilled w.faults ix w.view r v → v.requests = w.requests := by
    intro r v hfilled
    cases hfilled with
    | noProvider _ => rfl
    | unread _ => rfl
    | idle _ => rfl
    | failed _ fills =>
      rw [show w.view.store.pending = [] from h] at fills
      cases fills
    | filled _ fills =>
      rw [show w.view.store.pending = [] from h] at fills
      cases fills
      rfl
  exact hx _ _ (backfilled_outcome ix w)

/-- Filling in vectors changes nothing but vectors of rows that waited, and asks for the texts of these
rows in their order and in full groups until the time is over.  A row that waited waits still if it
misses its vector, and otherwise has the one that was brought for its text.  If the run counted no
error and was in time, no row waits any more, and a later run makes no request. -/
theorem filled_exactly (hp : ix.provider = some p) (hrefuse : p.OnlyRefuses)
    (hcount : p.KeepsCount) (hopen : w.store.isClosed = false)
    (hread : w.faults w.calls .pending = none)
    (hids : w.store.rows.Pairwise fun a b => a.id < b.id)
    (hfit : ∀ r ∈ w.store.pending, r.id < StoreCall.limit) :
    let w' := (outcome (backfill ix) w).2
    ∃ t calls, (outcome (backfill ix) w).1 = .ok t ∧
      w'.requests.toList = w.requests.toList ++ calls ∧
      (w'.store = { w.store with rows := w'.store.rows } ∧
        w'.store.rows.map Row.unfilled = w.store.rows.map Row.unfilled ∧
        ∀ r ∈ w.store.rows, r.isPending = false → r ∈ w'.store.rows) ∧
      ((∀ n call, calls[n]? = some call → n * ix.groupSize < w.store.pending.length ∧ call.texts =
          ((w.store.pending.drop (n * ix.groupSize)).take ix.groupSize).map (·.text)) ∧
        calls.flatMap (·.texts) <+: w.store.pending.map (·.text) ∧
        (t.timedOut = false → calls.flatMap (·.texts) = w.store.pending.map (·.text))) ∧
      (∀ j r, w.store.pending[j]? = some r →
        (r ∈ w'.store.pending ↔ Misses ix p w calls j r) ∧
        (r ∈ w'.store.pending ∨ ∃ call vs x, calls[j / ix.groupSize]? = some call ∧
          (p (w.requests.size + j / ix.groupSize) call.texts call.timeout).vectors = .ok vs ∧
          call.texts[j % ix.groupSize]? = some r.text ∧ vs[j % ix.groupSize]? = some x ∧
            { r with vector := some x } ∈ w'.store.rows)) ∧
      (w'.store.pending = [] ↔ t.errors = 0 ∧ t.timedOut = false) ∧
      (w'.store.pending = [] → ∀ (ix' : Indexer) (w₂ : World), w₂.store = w'.store →
        (outcome (backfill ix') w₂).2.requests = w₂.requests) := by
  intro w'
  have hids : (w.store.rows.map (·.id)).Nodup :=
    List.pairwise_map.mpr (hids.imp fun hlt => Nat.ne_of_lt hlt)
  have hnodup : w.store.pending.Nodup := hids.of_map.filter _
  have hready : Ready w.store w.store.pending :=
    ⟨hopen, fun r hr => ⟨r, (List.mem_filter.mp hr).1, rfl⟩, hfit⟩
  obtain ⟨t, calls, hrun, hserved⟩ := exists_served hp hrefuse hcount hread hready
  refine ⟨t, calls, hrun, hserved.requests, ⟨?_, hserved.unfilled_rows, fun r hr hfilled => ?_⟩,
    ⟨fun n call hcall => hserved.slice_of_call hcall, ?_, hserved.flatMap_texts_eq⟩,
    fun j r hj => ⟨hserved.mem_pending_iff hcount hids hj, ?_⟩,
    hserved.pending_eq_nil_iff hids, fun hnone ix' w₂ hstore => ?_⟩
  · have hstore := hserved.store.trans Store.foldl_give
    rw [hstore]
  · have hkept := hserved.mem_rows hr
    rwa [gifted_of_filled hids hr hfilled] at hkept
  · rw [hserved.flatMap_texts]
    exact List.take_prefix _ _
  · by_cases hmiss : Misses ix p w calls j r
    · exact .inl ((hserved.mem_pending_iff hcount hids hj).mpr hmiss)
    · obtain ⟨call, vs, x, hcall, hreply, htext, hvector, hx⟩ :=
        hserved.exists_accepted hcount hnodup hj hmiss
      have hgiven := hserved.mem_rows (List.mem_filter.mp (List.mem_of_getElem? hj)).1
      rw [gifted_of_accepted hids hx] at hgiven
      exact .inr ⟨call, vs, x, hcall, hreply, htext, hvector, hgiven⟩
  · refine requests_backfill ?_
    rw [hstore, hnone]

end Run

namespace Sample

def hesitantStorer : Indexer := { storer 1 3 with provider := some hesitant }

/-- A world with three rows that wait, where the store refuses the vector of the second one. -/
def locked : World :=
  { waiting with faults := fun _ call => if call = .setVector 6 then some "locked" else none }

/-- The world after filling in. -/
def partly : World := (Run.outcome (Run.backfill hesitantStorer) locked).2

end Sample

/-- Of three rows that wait the first is refused a vector by the provider and the second by the
store. -/
theorem Run.filled_exactly_sample :
    (Sample.hesitant.OnlyRefuses ∧ Sample.hesitant.KeepsCount ∧
      Sample.locked.store.isClosed = false ∧
      Sample.locked.faults Sample.locked.calls .pending = none ∧
      (Sample.locked.store.rows.Pairwise fun a b => a.id < b.id) ∧
      ∀ r ∈ Sample.locked.store.pending, r.id < StoreCall.limit) ∧
    (outcome (backfill Sample.hesitantStorer) Sample.locked).1 =
      .ok { generated := 2, errors := 2, elapsed := some 3 } ∧
    Sample.partly.store.pending.map (·.id) = [5, 6] ∧
    ∃ calls, Sample.partly.requests.toList = Sample.locked.requests.toList ++ calls ∧
      Sample.partly.store.rows.map Row.unfilled = Sample.locked.store.rows.map Row.unfilled ∧
      calls.flatMap (·.texts) = Sample.locked.store.pending.map (·.text) ∧
      ∀ j r, Sample.locked.store.pending[j]? = some r → (r ∈ Sample.partly.store.pending ↔
        Misses Sample.hesitantStorer Sample.hesitant Sample.locked calls j r) := by
  have hrefuse := Sample.onlyRefuses_hesitant
  have hcount := Sample.keepsCount_hesitant
  have hopen : Sample.locked.store.isClosed = false := by decide
  have hread : Sample.locked.faults Sample.locked.calls .pending = none := by decide
  have hids : Sample.locked.store.rows.Pairwise fun a b => a.id < b.id := by decide
  have hfit : ∀ r ∈ Sample.locked.store.pending, r.id < StoreCall.limit := by decide +kernel
  have hended : (outcome (backfill Sample.hesitantStorer) Sample.locked).1 =
      .ok { generated := 2, errors := 2, elapsed := some 3 } := by decide +kernel
  have hwaiting : Sample.partly.store.pending.map (·.id) = [5, 6] := by decide +kernel
  have hpartly : (outcome (backfill Sample.hesitantStorer) Sample.locked).2 = Sample.partly := rfl
  have hfilled := @filled_exactly Sample.hesitantStorer Sample.hesitant Sample.locked rfl hrefuse
    hcount hopen hread hids hfit
  -- with a name for the world, nothing of the run is computed below
  simp only [hpartly] at hfilled
  obtain ⟨t, calls, hrun, hrequests, ⟨-, hrows, -⟩, ⟨-, -, hall⟩, hfates, -⟩ := hfilled
  have ht : t = { generated := 2, errors := 2, elapsed := some 3 } :=
    Except.ok.inj (hrun.symm.trans hended)
  have htime : t.timedOut = false := by rw [ht]
  exact ⟨⟨hrefuse, hcount, hopen, hread, hids, hfit⟩, hended, hwaiting, calls, hrequests, hrows,
    hall htime, fun j r hj => (hfates j r hj).1⟩

end BlockIndex
