import BlockIndex.Proofs.Run.Unhindered

/-! A run of indexing in two parts: it gathers the blocks of the files that are new or changed, and
then it stores them.  All that the first part does to the store is to prune and to judge files. -/

namespace BlockIndex

/-- What a run of indexing has when it comes to storing blocks. -/
structure Gathered where
  start : Int
  report : ChangeReport
  blocks : List Block
  errors : Nat

namespace Run

/-- A run of indexing up to the blocks that are to be stored. -/
def gather (ix : Indexer) : Run Gathered := do
  info ("🚀 Starting indexing of " ++ ix.root.toString)
  let start ← clock
  let files ← scan ix
  let _ ← prune files
  let report ← detect ix.disk ix.root files
  if report.processed.isEmpty then return ⟨start, report, [], 0⟩
  let (bs, errors) ← extractBlocks ix report.processed
  return ⟨start, report, bs, errors⟩

/-- The rest of a run of indexing. -/
def finish (ix : Indexer) (deferred : Bool) (g : Gathered) : Run Tally := do
  if g.report.processed.isEmpty then
    info "✅ No files need indexing"
    return { ix.started g.report with elapsed := some (Ticks.round ((← clock) - g.start)) }
  let t ← storeBlocks ix deferred g.blocks
    { (ix.started g.report).fail g.errors with extracted := g.blocks.length }
  let t := { t with elapsed := some (Ticks.round ((← clock) - g.start)) }
  logAll t.lines
  return t

/-- A run of indexing gathers blocks and then stores them. -/
theorem indexProject_eq (ix : Indexer) (deferred : Bool) :
    indexProject ix deferred = gather ix >>= finish ix deferred := by
  unfold indexProject gather scan
  simp only [bind_assoc, pure_bind]
  refine bind_congr fun _ => bind_congr fun start => bind_congr fun _ => bind_congr fun _ =>
    bind_congr fun report => ?_
  split
  · next h => simp [finish, h, Indexer.started, Indexer.files]
  · next h => simp [finish, h, Indexer.started, Indexer.files]

variable {f : Faults} {v : View} {ix : Indexer}

theorem wp_gather {Q : Except Failure Gathered → View → Prop}
    (bad : ∀ s₁ done ws s₂, Pruned f ix.files v.store s₁ →
      Each (JudgedFile f ix.disk ix.root) done s₁ ws s₂ → ∀ file ∈ ix.files,
        ix.disk.read (ix.root.below file) = .error .badName →
          Q (.error (.access .badName file)) { v with store := s₂ })
    (h : ∀ report s errors, Detected f ix v.store report s →
      Q (.ok ⟨v.clock, report, report.processed.flatMap ix.blocksOf, errors⟩)
        { v with store := s }) :
    wp f (gather ix) Q v := by
  refine wp_bind (wp_info (wp_bind (wp_clock (wp_bind (wp_bind (wp_logAll (wp_pure ?_)))))))
  refine wp_bind (wp_prune fun gone s₁ hp => wp_bind (wp_detect ?_ fun ws s₂ hj => ?_))
  · exact fun done ws s₂ _ hj file hf hb => bad s₁ done ws s₂ hp hj file hf hb
  · have hdet : Detected f ix v.store ⟨ix.files.zip ws⟩ s₂ := ⟨s₁, ws, hp, hj, rfl⟩
    show wp f (if (ChangeReport.processed ⟨ix.files.zip ws⟩).isEmpty = true then _ else _) Q _
    split
    · next hnil =>
      have hq := h _ _ 0 hdet
      rw [List.isEmpty_iff.mp hnil] at hq
      exact wp_pure hq
    · exact wp_bind (wp_extractBlocks (wp_pure (h _ _ _ hdet)))

/-- Without refusals gathering comes to what `report`, `found` and `detected` say. -/
theorem wp_gather_of_none {Q : Except Failure Gathered → View → Prop}
    (hopen : v.store.isClosed = false)
    (hread : ∀ file ∈ ix.files, ix.disk.read (ix.root.below file) ≠ .error .badName)
    (h : ∀ errors, Q (.ok ⟨v.clock, ix.report v.store, ix.found v.store, errors⟩)
      { v with store := ix.detected v.store }) : wp Faults.none (gather ix) Q v := by
  refine wp_gather (fun _ _ _ _ _ _ file hf hb => absurd hb (hread file hf))
    fun report s errors hd => ?_
  obtain ⟨rfl, rfl⟩ := hd.eq_of_none hopen
  exact h errors

/-- Without refusals only the second part of a run is left to look at. -/
theorem wp_indexProject_of_none {deferred : Bool} {Q : Except Failure Tally → View → Prop}
    (hopen : v.store.isClosed = false)
    (hread : ∀ file ∈ ix.files, ix.disk.read (ix.root.below file) ≠ .error .badName)
    (h : ∀ errors, wp Faults.none
      (finish ix deferred ⟨v.clock, ix.report v.store, ix.found v.store, errors⟩) Q
        { v with store := ix.detected v.store }) :
    wp Faults.none (indexProject ix deferred) Q v := by
  rw [indexProject_eq]
  exact wp_bind (wp_gather_of_none hopen hread h)

/-! ### Runs that do not come to storing -/

variable {g : Gathered}

theorem wp_finish_of_idle {deferred : Bool} {Q : Except Failure Tally → View → Prop}
    (hidle : g.report.processed = [])
    (h : Q (.ok { ix.started g.report with elapsed := some (Ticks.round (v.clock - g.start)) }) v) :
    wp f (finish ix deferred g) Q v := by
  unfold finish
  rw [if_pos (List.isEmpty_iff.mpr hidle)]
  exact wp_bind (wp_info (wp_bind (wp_clock (wp_pure h))))

theorem wp_finish_of_provider_eq_none {Q : Except Failure Tally → View → Prop}
    (hp : ix.provider = none) (hproc : g.report.processed ≠ [])
    (h : Q (.error (.setup .noProvider)) v) : wp f (finish ix false g) Q v := by
  unfold finish storeBlocks
  rw [if_neg (fun hnil => hproc (List.isEmpty_iff.mp hnil)), hp]
  exact wp_bind (wp_throw h)

/-! ### What gathering leaves -/

variable {w w₁ : World}

/-- Gathering blocks asks for nothing. -/
theorem gather_frame (ix : Indexer) (w : World) :
    (outcome (gather ix) w).2.faults = w.faults ∧
      (outcome (gather ix) w).2.requests = w.requests := by
  have hgather : wp w.faults (gather ix) (fun _ v => v.requests = w.requests) w.view :=
    wp_gather (fun _ _ _ _ _ _ _ _ _ => rfl) fun _ _ _ _ => rfl
  exact ⟨(hgather w rfl rfl).1, hgather.at_world⟩

/-- What pruning and judging keep of the store gathering keeps. -/
theorem gather_keeps {I : Store → Prop}
    (hpruned : ∀ s s', Pruned w.faults ix.files s s' → I s → I s')
    (hjudged : ∀ q v s s', JudgedFile w.faults ix.disk ix.root q s v s' → I s → I s')
    (hI : I w.store) : I (outcome (gather ix) w).2.store := by
  have hgather : wp w.faults (gather ix) (fun _ v => I v.store) w.view := by
    refine wp_gather (fun s₁ done ws s₂ hp hj _ _ _ => ?_) fun report s _ hd => ?_
    · exact hj.keeps (fun q _ s v s' => hjudged q v s s') (hpruned _ _ hp hI)
    · obtain ⟨s₁, ws, hp, hj, -⟩ := hd.pruned_judged
      exact hj.keeps (fun q _ s v s' => hjudged q v s s') (hpruned _ _ hp hI)
  exact hgather.at_world

/-- The blocks that are gathered are those of the files that are processed. -/
theorem gathered_outcome (hg : outcome (gather ix) w = (.ok g, w₁)) :
    Detected w.faults ix w.store g.report w₁.store ∧
      g.blocks = g.report.processed.flatMap ix.blocksOf := by
  have hgather : wp w.faults (gather ix) (fun r v => ∀ g, r = .ok g →
      Detected w.faults ix w.store g.report v.store ∧
        g.blocks = g.report.processed.flatMap ix.blocksOf) w.view := by
    refine wp_gather (fun _ _ _ _ _ _ _ _ _ _ hr => (nomatch hr)) fun report s _ hd g hr => ?_
    cases hr
    exact ⟨hd, rfl⟩
  have h := hgather.at_world g
  rw [hg] at h
  exact h rfl

theorem indexProject_of_gather_error {e : Failure} {deferred : Bool}
    (hg : outcome (gather ix) w = (.error e, w₁)) :
    outcome (indexProject ix deferred) w = (.error e, w₁) := by
  rw [indexProject_eq, outcome_bind, hg]

theorem gather_isClosed (ix : Indexer) (w : World) :
    (outcome (gather ix) w).2.store.isClosed = w.store.isClosed :=
  gather_keeps (I := fun s => s.isClosed = w.store.isClosed)
    (fun _ _ hp hs => hp.isClosed_eq.trans hs) (fun _ _ _ _ hj hs => hj.isClosed_eq.trans hs) rfl

end Run

end BlockIndex
