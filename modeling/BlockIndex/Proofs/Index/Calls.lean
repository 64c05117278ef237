import BlockIndex.Proofs.Run.Asked
import BlockIndex.Proofs.Run.Gathering

/-! For what a run of indexing asks a provider: for the blocks that the store does not hold when
storing starts, each identity once.  Once the blocks are gathered, no row goes and no fingerprint
changes but for the mark (`Store.Grows`). -/

namespace BlockIndex

open Relation

namespace Indexer

/-- The requests that a run makes. -/
def calls (ix : Indexer) (w : World) : List ProviderCall :=
  (Run.outcome (Run.indexProject ix false) w).2.requests.toList.drop w.requests.size

/-- The blocks for which a run has to ask: those that it has extracted and that the store does not
hold when storing starts, each identity once. -/
def toAsk (ix : Indexer) (w : World) : List Block :=
  match Run.outcome (Run.gather ix) w with
  | (.ok g, w₁) => w₁.store.missing [] g.blocks
  | (.error _, _) => []

/-- The blocks that get a vector from the provider in a run. -/
def paid (ix : Indexer) (w : World) : List Block :=
  match ix.provider with
  | none => []
  | some provider => provider.paid w.requests.size (ix.calls w) (ix.toAsk w)

end Indexer

/-- What storing blocks may change in a store: there may be more rows, and files may have the mark. -/
structure Store.Grows (s s' : Store) : Prop where
  rows : s.rows ⊆ s'.rows
  isClosed : s'.isClosed = s.isClosed
  fingerprint : ∀ file, s'.fingerprint? file = s.fingerprint? file ∨
    s'.fingerprint? file = (s.fingerprint? file).map Store.markText

variable {f : Faults} {v v' : View} {ix : Indexer} {s s' : Store} {bs : List Block}
  {calls : List ProviderCall} {k : Supply}

namespace Store.Grows

theorem refl : s.Grows s := ⟨List.Subset.refl _, rfl, fun _ => .inl rfl⟩

/-- A file has the mark no more than once. -/
theorem marked {file : String} {done : Bool} {t : Store} (h : s.Grows t)
    (hm : Marked f file t done s') : s.Grows s' := by
  cases hm with
  | unread _ => exact h
  | unset _ => exact h
  | kept _ => exact h
  | marked =>
    refine ⟨by simpa using h.rows, by simpa using h.isClosed, fun q => ?_⟩
    rw [Store.fingerprint?_marked]
    split
    · right
      rcases h.fingerprint q with hq | hq
      · rw [hq]
      · rw [hq]
        cases s.fingerprint? q with
        | none => rfl
        | some text => exact congrArg some (Store.markText_markText text)
    · exact h.fingerprint q

theorem each_marked {files : List String} {done : List Bool} {t : Store} (h : s.Grows t)
    (hm : Each (Marked f) files t done s') : s.Grows s' :=
  hm.keeps (fun _ _ _ _ _ hstep hs => hs.marked hstep) h

theorem of_stores {supply : Option Supply} {t : Tally} {r : Except Failure Run.Progress}
    (h : Stage.Stores f supply ⟨bs, { tally := t }, v⟩ r v') : v.store.Grows v'.store := by
  obtain ⟨hrows, hclosed⟩ := h.keeps_store
    (J := fun s => v.store.rows ⊆ s.rows ∧ s.isClosed = v.store.isClosed)
    (fun b _ vec s id s' hs hsave => by
      obtain ⟨-, -, rfl⟩ := Store.save?_eq_some.mp hsave
      exact ⟨List.Subset.trans hs.1 (List.subset_append_left _ _), hs.2⟩)
    ⟨List.Subset.refl _, rfl⟩
  exact ⟨hrows, hclosed, fun file => .inl (Store.fingerprint?_congr h.fingerprints_eq file)⟩

end Store.Grows

/-- Marks ask for nothing and remove no row. -/
theorem Asks.marked {files : List String} {done : List Bool} (h : Asks f k v bs calls v')
    (hm : Each (Marked f) files v'.store done s') : Asks f k v bs calls { v' with store := s' } :=
  ⟨h.requests, h.texts, h.short, h.full, fun hsave b hb =>
    (h.settled hsave b hb).mono (Store.Grows.refl.each_marked hm).rows⟩

theorem Asks.nothing : Asks f k v bs [] v :=
  (Stage.asked_start (f := f) {}).toAsks

/-- What a run that has gathered blocks does with them. -/
structure Run.Finishes (ix : Indexer) (g : Gathered) (f : Faults) (v : View)
    (calls : List ProviderCall) (r : Except Failure Tally) (v' : View) : Prop where
  asks : ∀ provider, ix.provider = some provider →
    Asks f ⟨provider, Ticks.deadline v.clock ix.timeout, ix.groupSize⟩ v g.blocks calls v'
  nothing : ix.provider = none → v'.requests = v.requests ∧ calls = []
  all : ∀ t, r = .ok t → t.timedOut = false →
    calls.flatMap (·.texts) = (v.store.missing [] g.blocks).map (·.embeddingText)
  grows : v.store.Grows v'.store

namespace Run

variable {g : Gathered} {r : Except Failure Tally}

namespace Finishes

theorem of_blocks_eq_nil (h : g.blocks = []) : Finishes ix g f v [] r v where
  asks _ _ := .nothing
  nothing _ := ⟨rfl, rfl⟩
  all _ _ _ := by
    rw [h]
    rfl
  grows := .refl

theorem of_provider_eq_none {e : Failure} (hp : ix.provider = none) :
    Finishes ix g f v [] (.error e) v where
  asks _ hsome := absurd (hp.symm.trans hsome) (Option.some_ne_none _).symm
  nothing _ := ⟨rfl, rfl⟩
  all _ hr := by cases hr
  grows := .refl

theorem of_asks {provider : Provider} (hp : ix.provider = some provider)
    (hasks : Asks f ⟨provider, Ticks.deadline v.clock ix.timeout, ix.groupSize⟩ v g.blocks calls v')
    (hall : ∀ t, r = .ok t → t.timedOut = false →
      calls.flatMap (·.texts) = (v.store.missing [] g.blocks).map (·.embeddingText))
    (hgrows : v.store.Grows v'.store) : Finishes ix g f v calls r v' where
  asks other hother := by
    obtain rfl := Option.some.inj (hp.symm.trans hother)
    exact hasks
  nothing hnone := absurd (hp.symm.trans hnone) (Option.some_ne_none _)
  all := hall
  grows := hgrows

end Finishes

theorem wp_finish {Q : Except Failure Tally → View → Prop}
    (hholds : ∀ i b, f i (.holds b) = none) (hopen : v.store.isClosed = false)
    (hidle : g.report.processed = [] → g.blocks = [])
    (h : ∀ calls r v', Finishes ix g f v calls r v' → Q r v') : wp f (finish ix false g) Q v := by
  by_cases hproc : g.report.processed = []
  · exact wp_finish_of_idle hproc (h [] _ _ (.of_blocks_eq_nil (hidle hproc)))
  · cases hp : ix.provider with
    | none => exact wp_finish_of_provider_eq_none hp hproc (h [] _ _ (.of_provider_eq_none hp))
    | some provider =>
      have hsupply : supplyAt ix false v.clock =
          some ⟨provider, Ticks.deadline v.clock ix.timeout, ix.groupSize⟩ := by simp [supplyAt, hp]
      unfold finish
      rw [if_neg (fun hnil => hproc (List.isEmpty_iff.mp hnil))]
      refine wp_bind (wp_storeBlocks (fun _ hnone => ?_) (fun e v' hst => ?_)
        fun p v' marks s' hst hm => ?_)
      · exact absurd (hp.symm.trans hnone) (Option.some_ne_none _)
      · rw [hsupply] at hst
        obtain ⟨calls, hasks, -⟩ := hst.asks hholds hopen
        refine h calls _ _ (.of_asks hp hasks (fun _ hr => ?_) (.of_stores hst))
        cases hr
      · rw [hsupply] at hst
        obtain ⟨calls, hasks, hall⟩ := hst.asks hholds hopen
        refine wp_bind (wp_clock (wp_bind (wp_logAll (wp_pure (h calls _ _ ?_)))))
        refine .of_asks hp (hasks.marked hm) (fun t ht htime => ?_)
          ((Store.Grows.of_stores hst).each_marked hm)
        cases ht
        exact hall p rfl htime

variable {w w₁ : World}

theorem finishes_of_gather (hholds : ∀ i b, w.faults i (.holds b) = none)
    (hopen : w.store.isClosed = false) (hg : outcome (gather ix) w = (.ok g, w₁)) :
    w₁.requests = w.requests ∧ ∃ calls, Finishes ix g w.faults w₁.view calls
      (outcome (indexProject ix false) w).1 (outcome (indexProject ix false) w).2.view := by
  obtain ⟨hfaults, hrequests⟩ := gather_frame ix w
  have hclosed := gather_isClosed ix w
  have hblocks := (gathered_outcome hg).2
  rw [hg] at hfaults hrequests hclosed
  refine ⟨hrequests, ?_⟩
  have hidle : g.report.processed = [] → g.blocks = [] := fun hnil => by
    rw [hblocks, hnil]
    rfl
  have hfinish : wp w₁.faults (finish ix false g) (fun r v' => ∃ calls,
      Finishes ix g w₁.faults w₁.view calls r v') w₁.view :=
    wp_finish (by rwa [hfaults]) (hclosed.trans hopen) hidle fun calls r v' h => ⟨calls, h⟩
  have h := hfinish.at_world
  rw [indexProject_eq, outcome_bind, hg, ← hfaults]
  exact h

end Run

/-! ### What a run asks for -/

namespace Indexer

variable {w w₁ : World} {g : Gathered}

theorem toAsk_of_gather (hg : Run.outcome (Run.gather ix) w = (.ok g, w₁)) :
    ix.toAsk w = w₁.store.missing [] g.blocks := by
  unfold toAsk
  rw [hg]

theorem calls_eq_nil_of_gather {e : Failure}
    (hg : Run.outcome (Run.gather ix) w = (.error e, w₁)) : ix.calls w = [] := by
  have hrequests := (Run.gather_frame ix w).2
  unfold calls
  rw [Run.indexProject_of_gather_error hg, ← hrequests, hg]
  simp

/-- The requests of a run are those in which it finishes. -/
theorem finishes_calls (hholds : ∀ i b, w.faults i (.holds b) = none)
    (hopen : w.store.isClosed = false) (hg : Run.outcome (Run.gather ix) w = (.ok g, w₁)) :
    Run.Finishes ix g w.faults w₁.view (ix.calls w) (Run.outcome (Run.indexProject ix false) w).1
      (Run.outcome (Run.indexProject ix false) w).2.view := by
  obtain ⟨hrequests, calls, h⟩ := Run.finishes_of_gather hholds hopen hg
  have hlist : (Run.outcome (Run.indexProject ix false) w).2.requests.toList =
      w.requests.toList ++ calls := by
    cases hp : ix.provider with
    | none =>
      obtain ⟨hsame, hnil⟩ := h.nothing hp
      rw [hnil, List.append_nil, ← hrequests]
      exact congrArg Array.toList hsame
    | some provider =>
      rw [← hrequests]
      exact (h.asks provider hp).requests
  have hcalls : ix.calls w = calls := by
    rw [Indexer.calls, hlist, ← Array.length_toList, List.drop_left]
  rwa [hcalls]

/-- A run asks for the texts of the blocks in their order, in groups that are full but for the last
one, and for all of them if it ends in time. -/
theorem asks (hholds : ∀ i b, w.faults i (.holds b) = none) (hopen : w.store.isClosed = false) :
    (ix.calls w).flatMap (·.texts) <+: (ix.toAsk w).map (·.embeddingText) ∧
      (∀ t, (Run.outcome (Run.indexProject ix false) w).1 = .ok t → t.timedOut = false →
        (ix.calls w).flatMap (·.texts) = (ix.toAsk w).map (·.embeddingText)) ∧
      (∀ call ∈ ix.calls w, call.texts.length ≤ ix.groupSize) ∧
      ∀ call ∈ (ix.calls w).dropLast, call.texts.length = ix.groupSize := by
  cases hg : Run.outcome (Run.gather ix) w with
  | mk r w₁ =>
    cases r with
    | error e =>
      rw [calls_eq_nil_of_gather hg, Run.indexProject_of_gather_error hg]
      exact ⟨List.nil_prefix, fun _ h => (nomatch h), fun _ h => (nomatch h),
        fun _ h => (nomatch h)⟩
    | ok g =>
      have h := finishes_calls hholds hopen hg
      rw [toAsk_of_gather hg]
      cases hp : ix.provider with
      | none =>
        refine ⟨?_, h.all, ?_⟩
        · rw [(h.nothing hp).2]
          exact List.nil_prefix
        · rw [(h.nothing hp).2]
          exact ⟨fun _ h => (nomatch h), fun _ h => (nomatch h)⟩
      | some provider =>
        have hasks := h.asks provider hp
        exact ⟨hasks.texts, h.all, hasks.short, hasks.full⟩

theorem paid_sublist (ix : Indexer) (w : World) : (ix.paid w).Sublist (ix.toAsk w) := by
  unfold paid
  split
  · exact List.nil_sublist _
  · exact Provider.paid_sublist _

/-- A block that gets a vector is settled at the end, if the store refuses no block. -/
theorem settled_of_mem_paid (hholds : ∀ i b, w.faults i (.holds b) = none)
    (hsave : ∀ i b, w.faults i (.save b) = none) (hopen : w.store.isClosed = false) {b : Block}
    (hb : b ∈ ix.paid w) :
    (Run.outcome (Run.indexProject ix false) w).2.store.Settled b := by
  cases hg : Run.outcome (Run.gather ix) w with
  | mk r w₁ =>
    cases r with
    | error e =>
      have hnil : ix.toAsk w = [] := by rw [toAsk, hg]
      have hmem := (ix.paid_sublist w).subset hb
      rw [hnil] at hmem
      cases hmem
    | ok g =>
      unfold paid at hb
      split at hb
      · cases hb
      · next provider hp =>
        have hrequests := (Run.finishes_of_gather hholds hopen hg).1
        rw [toAsk_of_gather hg, ← hrequests] at hb
        exact ((finishes_calls hholds hopen hg).asks provider hp).settled hsave b hb

end Indexer

end BlockIndex
