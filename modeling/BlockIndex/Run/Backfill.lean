import BlockIndex.Run.Request

/-! Filling in vectors.  The rows that wait for their vectors are taken in groups; only their vectors
change. -/

namespace BlockIndex.Run

/-- The elements in groups of a size, where `group` holds the elements of the open group; the last
group may be smaller. -/
def groupsFrom {α : Type} (size : Nat) (group : List α) : List α → List (List α)
  | [] => if group.isEmpty then [] else [group]
  | x :: xs =>
    if group.length + 1 < size then groupsFrom size (group ++ [x]) xs
    else (group ++ [x]) :: groupsFrom size [] xs

def groupsOf {α : Type} (size : Nat) (xs : List α) : List (List α) := groupsFrom size [] xs

def fillGroup : List (Row × Vector) → Tally → Run Tally
  | [], t => return t
  | (r, v) :: rest, t => do
    match ← attempt (setVector r.id v) with
    | .ok () => fillGroup rest t
    | .error e =>
      warn ("⚠️ " ++ e.message)
      fillGroup rest (t.fail 1)

/-- Fills in the vectors of groups of rows until the deadline has passed. -/
def fillGroups (ix : Indexer) (provider : Provider) (deadline : Int) :
    List (List Row) → Tally → Run Tally
  | [], t => return t
  | g :: gs, t => do
    match ← request provider deadline (g.map (·.text)) with
    | .late =>
      logAbandoned ix (g :: gs).flatten.length
      return { t with timedOut := true }
    | .refused => fillGroups ix provider deadline gs (t.fail g.length)
    | .vectors vs =>
      let t := { t with generated := t.generated + vs.length }
      fillGroups ix provider deadline gs (← fillGroup (g.zip vs) t)

/-- Fills in the vectors of all rows that wait for them. -/
def backfill (ix : Indexer) : Run Tally := do
  match ix.provider with
  | none => throw (.setup .noProviderForPending)
  | some provider =>
    let start ← clock
    let rows ← pending
    if rows.isEmpty then
      info "✅ All blocks already have embeddings"
      return {}
    info ("🔄 Generating embeddings for " ++ toString rows.length ++ " stored blocks...")
    let deadline := Ticks.deadline (← clock) ix.timeout
    let t ← fillGroups ix provider deadline (groupsOf ix.groupSize rows) {}
    let t := { t with elapsed := some (Ticks.round ((← clock) - start)) }
    logAll t.lines
    return t

end BlockIndex.Run
