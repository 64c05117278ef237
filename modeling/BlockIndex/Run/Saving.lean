import BlockIndex.Run.Change
import BlockIndex.Run.Request

/-! Storing blocks.  Each block that is not stored yet is saved, either without a vector or, in groups,
with the vectors that a provider gives; each identity is looked at once.  When the deadline passes,
the rest is given up.  The files of all blocks that could not be stored are marked. -/

namespace BlockIndex.Run

/-- How far the storing of blocks has come. -/
structure Progress where
  /-- The identities that were looked at. -/
  seen : List Identity := []
  /-- The blocks that wait for their group to be full. -/
  waiting : List Block := []
  /-- The files with a block that could not be stored. -/
  failed : List String := []
  tally : Tally

namespace Progress

def fail (p : Progress) (b : Block) : Progress := { p with failed := p.failed ++ [b.displayPath] }

def failAll (p : Progress) (bs : List Block) : Progress :=
  { p with failed := p.failed ++ bs.map (·.displayPath) }

def skip (p : Progress) : Progress :=
  { p with tally := { p.tally with existing := p.tally.existing + 1 } }

def see (p : Progress) (b : Block) : Progress := { p with seen := b.identity :: p.seen }

/-- Blocks were given up because the deadline has passed. -/
def abandon (p : Progress) (bs : List Block) : Progress :=
  { p.failAll bs with tally := { p.tally with timedOut := true }, waiting := [] }

end Progress

def saveOne (b : Block) (vector : Option Vector) (p : Progress) : Run Progress := do
  match ← attempt (save b vector b.embeddingText) with
  | .error e =>
    warn ("⚠️ " ++ e.message)
    return { p with tally := p.tally.fail 1 }.fail b
  | .ok _ => return { p with tally := { p.tally with saved := p.tally.saved + 1 } }

def saveGroup : List (Block × Vector) → Progress → Run Progress
  | [], p => return p
  | (b, v) :: r, p => do saveGroup r (← saveOne b (some v) p)

/-- Asks for the vectors of the waiting blocks and saves the blocks.  Gives nothing when the
deadline has passed. -/
def flush (provider : Provider) (deadline : Int) (p : Progress) : Run (Option Progress) := do
  let bs := p.waiting
  let p := { p with waiting := [] }
  match ← request provider deadline (bs.map (·.embeddingText)) with
  | .late => return none
  | .refused => return some ({ p with tally := p.tally.fail bs.length }.failAll bs)
  | .vectors vs =>
    let tally := { p.tally with generated := p.tally.generated + vs.length }
    return some (← saveGroup (bs.zip vs) { p with tally })

/-- The blocks that are not stored, each identity once, without those already seen. -/
def unstored (seen : List Identity) : List Block → Run (List Block)
  | [] => return []
  | b :: bs => do
    if seen.contains b.identity then unstored seen bs
    else
      match ← attempt (holds b) with
      | .ok true => unstored (b.identity :: seen) bs
      | .ok false => return b :: (← unstored (b.identity :: seen) bs)
      | .error e =>
        warn ("⚠️ " ++ e.message)
        return b :: (← unstored (b.identity :: seen) bs)

def storeDeferred : List Block → Progress → Run Progress
  | [], p => return p
  | b :: bs, p => do
    if p.seen.contains b.identity then storeDeferred bs p.skip
    else
      let p := p.see b
      match ← attempt (holds b) with
      | .error e =>
        warn ("⚠️ " ++ e.message)
        storeDeferred bs ({ p with tally := p.tally.fail 1 }.fail b)
      | .ok true => storeDeferred bs p.skip
      | .ok false => storeDeferred bs (← saveOne b none p)

def giveUp (ix : Indexer) (bs : List Block) (p : Progress) : Run Progress := do
  logAbandoned ix bs.length
  return p.abandon bs

def storeCombined (ix : Indexer) (provider : Provider) (deadline : Int) :
    List Block → Progress → Run Progress
  | [], p => do
    if p.waiting.isEmpty then return p
    match ← flush provider deadline p with
    | some p => return p
    | none => giveUp ix p.waiting p
  | b :: bs, p => do
    if p.seen.contains b.identity then storeCombined ix provider deadline bs p.skip
    else
      let p := p.see b
      match ← attempt (holds b) with
      | .error e =>
        warn ("⚠️ " ++ e.message)
        storeCombined ix provider deadline bs ({ p with tally := p.tally.fail 1 }.fail b)
      | .ok true => storeCombined ix provider deadline bs p.skip
      | .ok false =>
        let p := { p with waiting := p.waiting ++ [b] }
        if p.waiting.length < ix.groupSize then storeCombined ix provider deadline bs p
        else
          match ← flush provider deadline p with
          | some p => storeCombined ix provider deadline bs p
          | none => giveUp ix (p.waiting ++ (← unstored p.seen bs)) p

/-- Stores blocks, without vectors if these are deferred, and marks the files of those that could
not be stored. -/
def storeBlocks (ix : Indexer) (deferred : Bool) (bs : List Block) (t : Tally) : Run Tally := do
  let p : Progress ←
    if deferred then storeDeferred bs { tally := t }
    else
      match ix.provider with
      | none => throw (.setup .noProvider)
      | some provider =>
        let deadline := Ticks.deadline (← clock) ix.timeout
        storeCombined ix provider deadline bs { tally := t }
  let _ ← markForRetry p.failed
  return p.tally

end BlockIndex.Run
