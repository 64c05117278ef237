import BlockIndex.Run.Extraction
import BlockIndex.Run.Saving

/-! Indexing a tree: the files that are gone are forgotten, the changed ones are found, and their blocks
are extracted and stored. -/

namespace BlockIndex.Run

def scan (ix : Indexer) : Run (List String) := do
  let files := ix.scanner.files ix.disk
  logAll (Scanner.scanLines files)
  return files

/-- Indexes the tree, without vectors if these are deferred. -/
def indexProject (ix : Indexer) (deferred : Bool) : Run Tally := do
  info ("🚀 Starting indexing of " ++ ix.root.toString)
  let start ← clock
  let files ← scan ix
  let _ ← prune files
  let report ← detect ix.disk ix.root files
  let t : Tally :=
    { scanned := files.length
      processed := report.processed.length
      errors := (report.filesWith .skipped).length }
  if report.processed.isEmpty then
    info "✅ No files need indexing"
    return { t with elapsed := some (Ticks.round ((← clock) - start)) }
  let (bs, errors) ← extractBlocks ix report.processed
  let t ← storeBlocks ix deferred bs { t.fail errors with extracted := bs.length }
  let t := { t with elapsed := some (Ticks.round ((← clock) - start)) }
  logAll t.lines
  return t

end BlockIndex.Run
