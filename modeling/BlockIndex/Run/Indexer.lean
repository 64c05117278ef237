import BlockIndex.Run.Basic

/-! What a run over a tree works with, and the numbers it counts. -/

namespace BlockIndex

structure Indexer where
  root : Path
  disk : Disk Bytes
  registry : Registry
  scanner : Scanner
  provider : Option Provider := none
  history : Option History := none
  /-- How many commits are noted for each file. -/
  commits : Int := 3
  /-- The ticks that the requests for vectors may take in all. -/
  timeout : Int := Ticks.ofSeconds 1800
  /-- How many texts a request has, at least one. -/
  batchSize : Int := 1

namespace Indexer

/-- How many texts a request has. -/
def groupSize (ix : Indexer) : Nat := (max 1 ix.batchSize).toNat

theorem groupSize_pos (ix : Indexer) : 0 < ix.groupSize := by
  unfold groupSize
  omega

/-- The scanner for all extensions of a registry, with the patterns of the ignore file at the root,
and what is logged. -/
def scannerFor (disk : Disk Bytes) (root : Path) (registry : Registry) : Scanner × List LogLine :=
  let (s, _, log) := (Scanner.ofExtensions root registry.extensions).load disk Scanner.ignoreFileName
  (s, log)

end Indexer

structure Tally where
  scanned : Nat := 0
  processed : Nat := 0
  extracted : Nat := 0
  existing : Nat := 0
  saved : Nat := 0
  generated : Nat := 0
  errors : Nat := 0
  /-- The ticks that the run took, if they were measured. -/
  elapsed : Option Int := none
  timedOut : Bool := false
  deriving DecidableEq, Repr

def Tally.fail (t : Tally) (n : Nat) : Tally := { t with errors := t.errors + n }

/-- The seconds of a number of ticks, with one decimal. -/
def secondsText (n : Int) : String := (Ticks.toDouble n).fixed 1

def Tally.lines (t : Tally) : List LogLine :=
  [⟨.info, "✅ Indexing complete!"⟩,
   ⟨.info, "📊 Results: " ++ toString t.saved ++ " blocks saved, " ++ toString t.existing ++
     " already stored, " ++ toString t.generated ++ " embeddings"⟩,
   ⟨.info, "⏱️ Time: " ++ secondsText (t.elapsed.getD 0) ++ "s"⟩] ++
  if t.errors = 0 then []
  else [⟨.warning, "⚠️ " ++ toString t.errors ++ " errors occurred during indexing"⟩]

end BlockIndex
