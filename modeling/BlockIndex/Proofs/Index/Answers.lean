import BlockIndex.Proofs.Run.Backfill
import BlockIndex.Proofs.Run.Unhindered
import Mathlib.Data.List.Pairwise
import Mathlib.Data.Set.Basic

/-! Every vector answers the text of its row.  The numbers of rows tell them apart, so a vector that
comes for the text of a row is set in that row and in no other (`Answered`); and a row's text is
that of its block.  This holds after every history of runs (`Made`). -/

namespace BlockIndex

open Relation

/-- The vectors that came for texts in the requests since some number of them was made. -/
def Indexer.answers (ix : Indexer) (since : Nat) (calls : Array ProviderCall) :
    Set (String × Vector) :=
  {e | ∃ p i, ix.provider = some p ∧ since ≤ i ∧ p.Answers calls i e}

/-- The text of a row is that of its block, and its vector, if it has one, came for the text. -/
def Row.Answered (D : Set (String × Vector)) (r : Row) : Prop :=
  r.text = r.block.embeddingText ∧ (r.components = [] ∨ (r.text, r.components) ∈ D)

/-- The store is open, all rows are answered, and their numbers grow up to the last one given. -/
structure Store.Answered (D : Set (String × Vector)) (s : Store) : Prop where
  isOpen : s.isClosed = false
  rows : ∀ r ∈ s.rows, r.Answered D
  sorted : s.rows.Pairwise fun a b => a.id < b.id
  le_lastId : ∀ r ∈ s.rows, r.id ≤ s.lastId

variable {D D' : Set (String × Vector)} {s s' : Store} {f : Faults} {r : Row} {b : Block}

theorem Row.Answered.mono (h : r.Answered D) (hD : D ⊆ D') : r.Answered D' :=
  ⟨h.1, h.2.imp_right fun hr => hD hr⟩

theorem Store.displayPath_newRow {vec : Option Vector} {text : String} :
    (s.newRow b vec text).block.displayPath = b.displayPath := by
  simp only [newRow, Block.displayPath]
  cases b.relativePath with
  | none => simp
  | some p => cases hp : p.isEmpty <;> simp [hp]

/-- The text of a block can be told from its row. -/
theorem Store.embeddingText_newRow {vec : Option Vector} {text : String} :
    (s.newRow b vec text).block.embeddingText = b.embeddingText := by
  simp only [Block.embeddingText, Block.headerLines, displayPath_newRow]
  rfl

namespace Store.Answered

theorem mono (h : s.Answered D) (hD : D ⊆ D') : s.Answered D' :=
  ⟨h.isOpen, fun r hr => (h.rows r hr).mono hD, h.sorted, h.le_lastId⟩

theorem empty : Store.Answered D {} := by
  refine ⟨rfl, fun r hr => ?_, List.Pairwise.nil, fun r hr => ?_⟩
  · cases hr
  · cases hr

/-- Rows may be removed. -/
theorem of_sublist (h : s.Answered D) (hrows : s'.rows.Sublist s.rows)
    (hid : s'.lastId = s.lastId) (hopen : s'.isClosed = s.isClosed) : s'.Answered D :=
  ⟨hopen ▸ h.isOpen, fun r hr => h.rows r (hrows.mem hr), h.sorted.sublist hrows,
    fun r hr => hid ▸ h.le_lastId r (hrows.mem hr)⟩

/-- No two rows have one number. -/
theorem eq_of_id_eq (h : s.Answered D) {r r' : Row} (hr : r ∈ s.rows) (hr' : r' ∈ s.rows)
    (hid : r.id = r'.id) : r = r' := by
  by_contra hne
  have hpair : s.rows.Pairwise fun a b => a.id ≠ b.id := h.sorted.imp fun hlt => Nat.ne_of_lt hlt
  have : Std.Symm fun a b : Row => a.id ≠ b.id := ⟨fun _ _ hab => hab.symm⟩
  exact hpair.forall hr hr' hne hid

theorem save? {vec : Option Vector} {id : Nat} (h : s.Answered D)
    (hvec : ∀ x, vec = some x → (b.embeddingText, x) ∈ D)
    (hsave : s.save? b vec b.embeddingText = some (id, s')) : s'.Answered D := by
  obtain ⟨-, -, rfl⟩ := Store.save?_eq_some.mp hsave
  refine ⟨h.isOpen, fun r hr => ?_, ?_, fun r hr => ?_⟩
  · rcases List.mem_append.mp hr with hr | hr
    · exact h.rows r hr
    · obtain rfl := List.mem_singleton.mp hr
      refine ⟨embeddingText_newRow.symm, ?_⟩
      cases vec with
      | none => exact .inl rfl
      | some x =>
        cases x with
        | nil => exact .inl rfl
        | cons y ys => exact .inr (hvec _ rfl)
  · refine List.pairwise_append.mpr ⟨h.sorted, List.pairwise_singleton _ _, fun a ha r hr => ?_⟩
    obtain rfl := List.mem_singleton.mp hr
    exact Nat.lt_succ_of_le (h.le_lastId a ha)
  · rcases List.mem_append.mp hr with hr | hr
    · exact Nat.le_succ_of_le (h.le_lastId r hr)
    · obtain rfl := List.mem_singleton.mp hr
      exact Nat.le_refl _

end Store.Answered

/-- A vector may be set in the row for whose text it came. -/
theorem Store.Answered.setVector? {id : Nat} {x : Vector} (h : s.Answered D)
    (hx : ∀ r ∈ s.rows, r.id = id → (r.text, x) ∈ D) (hs : s.setVector? id x = some s') :
    s'.Answered D := by
  obtain rfl := Store.rows_setVector? hs
  refine ⟨h.isOpen, fun r hr => ?_, ?_, fun r hr => ?_⟩
  · obtain ⟨a, ha, rfl⟩ := List.mem_map.mp hr
    refine ⟨by simpa using (h.rows a ha).1, ?_⟩
    rw [Row.text_given]
    unfold Row.given
    split
    · next hid => exact .inr (hx a ha hid)
    · exact (h.rows a ha).2
  · simpa [List.pairwise_map] using h.sorted
  · obtain ⟨a, ha, rfl⟩ := List.mem_map.mp hr
    simpa using h.le_lastId a ha

/-! ### Runs of indexing -/

theorem Store.Answered.deleteBlocks {file : String} (h : s.Answered D) :
    (s.deleteBlocks file).Answered D :=
  h.of_sublist List.filter_sublist rfl rfl

theorem Store.Answered.judged {disk : Disk Bytes} {root : Path} {file : String} {w : Verdict}
    (hj : JudgedFile f disk root file s w s') (h : s.Answered D) : s'.Answered D := by
  cases hj with
  | unreadable _ => exact h
  | readable _ hj =>
    cases hj with
    | unset _ _ _ =>
      split
      · exact h.deleteBlocks
      · exact h
    | recorded _ _ =>
      unfold Store.record
      split
      · exact h.deleteBlocks.of_sublist (List.Sublist.refl _) rfl rfl
      · exact h.of_sublist (List.Sublist.refl _) rfl rfl
    | _ => exact h

theorem Store.Answered.pruned {current : List String} (hp : Pruned f current s s')
    (h : s.Answered D) : s'.Answered D := by
  cases hp with
  | unread _ => exact h
  | pruned he =>
    refine he.keeps (fun file _ s _ s' hf hs => ?_) h
    cases hf with
    | kept _ => exact hs
    | emptied _ => exact hs.deleteBlocks
    | forgotten => exact hs.deleteBlocks.of_sublist (List.Sublist.refl _) rfl rfl

theorem Store.Answered.detected {ix : Indexer} {report : ChangeReport}
    (hd : Detected f ix s report s') (h : s.Answered D) : s'.Answered D := by
  obtain ⟨s₁, ws, hp, hj, -⟩ := hd.pruned_judged
  exact hj.keeps (fun _ _ _ _ _ hj hs => hs.judged hj) (h.pruned hp)

theorem Store.Answered.each_marked {files : List String} {done : List Bool}
    (hm : Each (Marked f) files s done s') (h : s.Answered D) : s'.Answered D := by
  refine hm.keeps (fun file _ s _ s' hf hs => ?_) h
  cases hf with
  | marked => exact hs.of_sublist (by simp) (s.lastId_marked file) (s.isClosed_marked file)
  | _ => exact hs

variable {ix : Indexer} {since : Nat} {v v' : View}

/-- A later request takes back no answer. -/
theorem Indexer.answers_subset_push (calls : Array ProviderCall) (call : ProviderCall) :
    ix.answers since calls ⊆ ix.answers since (calls.push call) :=
  fun _ ⟨p, i, hp, hi, h⟩ => ⟨p, i, hp, hi, h.push call⟩

theorem Store.Answered.stores {deferred : Bool} {clock : Int} {bs : List Block} {t : Tally}
    {r : Except Failure Run.Progress}
    (hst : Stage.Stores f (Run.supplyAt ix deferred clock) ⟨bs, { tally := t }, v⟩ r v')
    (hsince : since ≤ v.requests.size) (h : v.store.Answered (D ∪ ix.answers since v.requests)) :
    v'.store.Answered (D ∪ ix.answers since v'.requests) := by
  refine hst.keeps (I := fun v => v.store.Answered (D ∪ ix.answers since v.requests)) ⟨?_, ?_⟩ h
  · intro c v texts _ hv
    exact hv.mono (Set.union_subset_union_right D (Indexer.answers_subset_push _ _))
  · intro b _ vec v id s hbrings hv hsave
    refine hv.save? (fun x hx => .inr ?_) hsave
    cases hc : Run.supplyAt ix deferred clock with
    | none =>
      rw [hc] at hbrings
      cases hx.symm.trans hbrings
    | some c =>
      rw [hc] at hbrings
      obtain ⟨i, y, hi, hy, hanswer⟩ := hbrings
      rw [hx] at hy
      cases hy
      exact ⟨c.provider, i, Run.provider_of_supplyAt hc, Nat.le_trans hsince hi, hanswer⟩

/-- Whatever comes of a run of indexing, the rows are answered. -/
theorem Store.Answered.indexed {deferred : Bool} {r : Except Failure Tally}
    (hx : Indexed f ix deferred v r v') (h : v.store.Answered D) :
    v'.store.Answered (D ∪ ix.answers v.requests.size v'.requests) := by
  have hD : ∀ calls, D ⊆ D ∪ ix.answers v.requests.size calls := fun _ => Set.subset_union_left
  cases hx with
  | badName hp _ hj _ _ =>
    exact (hj.keeps (fun _ _ _ _ _ hj hs => hs.judged hj) (h.pruned hp)).mono (hD _)
  | idle hd _ => exact (h.detected hd).mono (hD _)
  | noProvider hd _ _ => exact (h.detected hd).mono (hD _)
  | failed hd hst => exact ((h.detected hd).mono (hD _)).stores hst (Nat.le_refl _)
  | stored hd hst hm =>
    exact (((h.detected hd).mono (hD _)).stores hst (Nat.le_refl _)).each_marked hm

/-! ### Runs of filling in vectors -/

/-- The rows of a store with the numbers of some rows have their texts too. -/
def Store.Knows (s : Store) (rows : List Row) : Prop :=
  ∀ r ∈ rows, ∀ a ∈ s.rows, a.id = r.id → a.text = r.text

theorem Store.Answered.fill {rows : List Row} {group : List (Row × Vector)} {t t' : Tally}
    {us : List Unit} (he : Each (Filled f) group (t, s) us (t', s'))
    (hgroup : ∀ e ∈ group, e.1 ∈ rows ∧ (e.1.text, e.2) ∈ D) (h : s.Answered D)
    (hk : s.Knows rows) : s'.Answered D ∧ s'.Knows rows := by
  refine he.keeps (I := fun t => t.2.Answered D ∧ t.2.Knows rows)
    (fun e hem t _ t' hstep ht => ?_) ⟨h, hk⟩
  obtain ⟨hrow, hanswer⟩ := hgroup e hem
  cases hstep with
  | missed _ => exact ht
  | filled hs =>
    obtain ⟨ha, hk⟩ := ht
    refine ⟨ha.setVector? (fun a har hid => hk _ hrow a har hid ▸ hanswer) hs, ?_⟩
    obtain rfl := Store.rows_setVector? hs
    intro r hr a ha hid
    obtain ⟨a, har, rfl⟩ := List.mem_map.mp ha
    simpa using hk r hr a har (by simpa using hid)

theorem Store.Answered.fills {c : Supply} {groups : List (List Row)} {rows : List Row} {t : Tally}
    {r : Except Failure Tally} (hc : ix.provider = some c.provider)
    (hf : Fills f c groups t v r v') (hrows : groups.flatten ⊆ rows)
    (hsince : since ≤ v.requests.size) (h : v.store.Answered (D ∪ ix.answers since v.requests))
    (hk : v.store.Knows rows) : v'.store.Answered (D ∪ ix.answers since v'.requests) := by
  -- The rows of a group are paired with the vectors that came for their texts.
  have paired {g : List Row} {v : View} {vs : List Vector} (hg : g ⊆ rows)
      (hsince : since ≤ v.requests.size)
      (reply : (c.reply v (g.map (·.text))).vectors = .ok vs) :
      ∀ e ∈ g.zip vs, e.1 ∈ rows ∧ (e.1.text, e.2) ∈
        D ∪ ix.answers since (c.after v (g.map (·.text))).requests := by
    intro e he
    refine ⟨hg (List.of_mem_zip he).1, .inr ⟨c.provider, v.requests.size, hc, hsince, ?_⟩⟩
    refine Provider.answers_push reply ?_
    rw [List.zip_map_left]
    exact List.mem_map_of_mem he
  have pushed (v : View) (texts : List String) : D ∪ ix.answers since v.requests ⊆
      D ∪ ix.answers since (c.after v texts).requests :=
    Set.union_subset_union_right D (Indexer.answers_subset_push _ _)
  have later (v : View) (texts : List String) (hsince : since ≤ v.requests.size) :
      since ≤ (c.after v texts).requests.size := by
    simp only [Supply.after, Array.size_push]
    omega
  induction hf with
  | done => exact h
  | late _ => exact h
  | refused _ _ _ ih =>
    exact ih (fun a ha => hrows (by simp [List.mem_flatten.mp ha])) (later _ _ hsince)
      (h.mono (pushed _ _)) hk
  | broken _ _ => exact h.mono (pushed _ _)
  | filled _ reply each _ ih =>
    have hg := paired (fun a ha => hrows (by simp [ha])) hsince reply
    obtain ⟨ha, hk⟩ := fill each hg (h.mono (pushed _ _)) hk
    exact ih (fun a ha => hrows (by simp [List.mem_flatten.mp ha])) (later _ _ hsince) ha hk
  | large _ reply hd each _ _ =>
    have hg := paired (fun a ha => hrows (by simp [ha])) hsince reply
    exact (fill each (fun e he => hg e (hd.subset he)) (h.mono (pushed _ _)) hk).1

/-- Whatever comes of filling in vectors, the rows are answered. -/
theorem Store.Answered.backfilled {r : Except Failure Tally} (hx : Backfilled f ix v r v')
    (h : v.store.Answered D) :
    v'.store.Answered (D ∪ ix.answers v.requests.size v'.requests) := by
  have hD : v.store.Answered (D ∪ ix.answers v.requests.size v.requests) :=
    h.mono Set.subset_union_left
  have hpending : v.store.pending ⊆ v.store.rows := List.filter_sublist.subset
  have hk : v.store.Knows v.store.pending := fun r hr a ha hid => by
    rw [h.eq_of_id_eq ha (hpending hr) hid]
  have hflat : (Run.groupsOf ix.groupSize v.store.pending).flatten ⊆ v.store.pending :=
    fun a ha => by simpa using ha
  cases hx with
  | noProvider _ => exact hD
  | unread _ => exact hD
  | idle _ => exact hD
  | failed hp hf => exact hD.fills hp hf hflat (Nat.le_refl _) hk
  | filled hp hf => exact hD.fills hp hf hflat (Nat.le_refl _) hk

/-! ### Histories -/

/-- A store that runs of indexing and of filling in vectors have made, whatever was refused and
however they ended, and the vectors that came for texts.  Before each run the time that is noted for
new rows is set anew. -/
inductive Store.Made : Store → Set (String × Vector) → Prop
  | empty : Made {} ∅
  | indexed {s : Store} {D : Set (String × Vector)} {w : World} (h : Made s D) (ix : Indexer)
      (deferred : Bool) (time : Option String) (hw : w.store = { s with now := time }) :
      Made (Run.outcome (Run.indexProject ix deferred) w).2.store
        (D ∪ ix.answers w.requests.size (Run.outcome (Run.indexProject ix deferred) w).2.requests)
  | backfilled {s : Store} {D : Set (String × Vector)} {w : World} (h : Made s D) (ix : Indexer)
      (time : Option String) (hw : w.store = { s with now := time }) :
      Made (Run.outcome (Run.backfill ix) w).2.store
        (D ∪ ix.answers w.requests.size (Run.outcome (Run.backfill ix) w).2.requests)

theorem Store.Answered.at_time (h : s.Answered D) (time : Option String) :
    Store.Answered D { s with now := time } :=
  h.of_sublist (List.Sublist.refl _) rfl rfl

theorem Store.Made.answered (h : s.Made D) : s.Answered D := by
  induction h with
  | empty => exact Store.Answered.empty
  | @indexed s D w _ ix deferred time hw ih =>
    have hs : w.view.store.Answered D := by
      rw [show w.view.store = { s with now := time } from hw]
      exact ih.at_time time
    exact hs.indexed (Run.indexed_outcome ix deferred w)
  | @backfilled s D w _ ix time hw ih =>
    have hs : w.view.store.Answered D := by
      rw [show w.view.store = { s with now := time } from hw]
      exact ih.at_time time
    exact hs.backfilled (Run.backfilled_outcome ix w)

/-- After any history the text of each row is that of its block, and its vector is empty or one that
came for the text. -/
theorem Store.Made.vectors_answer (h : s.Made D) :
    ∀ r ∈ s.rows, r.text = r.block.embeddingText ∧
      (r.components = [] ∨ (r.text, r.components) ∈ D) :=
  h.answered.rows

/-- A tree is indexed with vectors while the store refuses a block, after a change it is indexed
without vectors, and these are filled in: then each row has a vector, which came for its text. -/
theorem vectors_answer_sample :
    let first := (Run.outcome (Run.indexProject Sample.older false)
      { faults := Sample.refusingName "y" }).2
    let second := (Run.outcome (Run.indexProject Sample.newer true) { store := first.store }).2
    let last := (Run.outcome (Run.backfill Sample.newer) { store := second.store }).2
    let D := ∅ ∪ Sample.older.answers 0 first.requests ∪ Sample.newer.answers 0 second.requests ∪
      Sample.newer.answers 0 last.requests
    (second.store.rows.map fun r => (r.block.name, r.components.length)) =
        [(some "x", 1), (some "z", 1), (some "y", 0), (some "u", 0), (some "w", 0), (some "t", 0),
          (some "s", 0)] ∧
      last.store.Made D ∧ ∀ r ∈ last.store.rows,
        r.text = r.block.embeddingText ∧ (r.text, r.components) ∈ D := by
  intro first second last D
  have hfirst := Store.Made.empty.indexed (w := { faults := Sample.refusingName "y" })
    Sample.older false none rfl
  have hsecond := hfirst.indexed (w := { store := first.store }) Sample.newer true
    first.store.now rfl
  have hmade : last.store.Made D :=
    hsecond.backfilled (w := { store := second.store }) Sample.newer second.store.now rfl
  have hrows : (second.store.rows.map fun r => (r.block.name, r.components.length)) =
      [(some "x", 1), (some "z", 1), (some "y", 0), (some "u", 0), (some "w", 0), (some "t", 0),
        (some "s", 0)] := by
    simp only [second, first, Run.indexProject, Run.scan, Sample.files_older, Sample.files_newer]
    decide +kernel
  have hfilled : ∀ r ∈ last.store.rows, r.components ≠ [] := by
    simp only [last, second, first, Run.indexProject, Run.scan, Sample.files_older,
      Sample.files_newer]
    decide +kernel
  refine ⟨hrows, hmade, fun r hr => ?_⟩
  obtain ⟨htext, hanswer⟩ := hmade.vectors_answer r hr
  exact ⟨htext, hanswer.resolve_left (hfilled r hr)⟩

end BlockIndex
