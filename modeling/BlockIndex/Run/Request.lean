import BlockIndex.Run.Indexer

/-! Requests for vectors.  A request is made only while time is left until the deadline, and it is told
how much. -/

namespace BlockIndex.Run

/-- What comes of asking for vectors. -/
inductive Delivery where
  | late
  | refused
  | vectors (vs : List Vector)

def send (p : Provider) (texts : List String) (timeout : Int) :
    Run (Except ServiceError (List Vector)) := do
  let w ← get
  let reply := p w.requests.size texts timeout
  set { w with requests := w.requests.push ⟨texts, timeout⟩, clock := w.clock + reply.cost }
  return reply.vectors

/-- Asks a provider for the vectors of some texts, unless the deadline has passed. -/
def request (p : Provider) (deadline : Int) (texts : List String) : Run Delivery := do
  let left := Ticks.left deadline (← clock)
  if left ≤ 0 then return .late
  match ← send p texts left with
  | .ok vs => return .vectors vs
  | .error (.provider e) =>
    warn ("⚠️ Embedding failed for " ++ toString texts.length ++ " block(s): " ++ e.message)
    return .refused
  | .error e => throw (.service e)

def logAbandoned (ix : Indexer) (blocks : Nat) : Run Unit :=
  warn ("⏰ Embedding deadline of " ++ Ticks.toText ix.timeout ++
    "s exceeded, abandoning the remaining " ++ toString blocks ++ " block(s)")

end BlockIndex.Run
