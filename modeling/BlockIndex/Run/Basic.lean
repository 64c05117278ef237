import BlockIndex.Embedding.Magnitude
import BlockIndex.Embedding.Provider
import BlockIndex.Extract.Source
import BlockIndex.History.Git
import BlockIndex.Log
import BlockIndex.Store.Call
import BlockIndex.Store.Statistics
import BlockIndex.Tree.GivenPath
import BlockIndex.Tree.Scanner

/-! Runs over a store.  A run changes a store, takes time, logs lines and makes requests; when it fails,
what it did up to then remains.  A call to the store may be refused: `attempt` lets a run go on
after a refusal. -/

namespace BlockIndex

inductive Failure where
  | store (e : StoreError)
  | tooLarge
  | access (e : AccessError) (path : String)
  /-- A path that is no text was given where a text is needed. -/
  | notText (path : GivenPath)
  | service (e : ServiceError)
  | setup (e : SetupError)
  | vectors (e : Magnitude.Problem)
  deriving DecidableEq, Repr

structure World where
  store : Store := {}
  /-- The refusals of the store; a run does not change them. -/
  faults : Faults := Faults.none
  /-- How many calls were made to the store. -/
  calls : Nat := 0
  /-- The calls that the store refused. -/
  refused : Array StoreCall := #[]
  /-- The time in ticks. -/
  clock : Int := 0
  log : Array LogLine := #[]
  requests : Array ProviderCall := #[]

abbrev Run := ExceptT Failure (StateM World)

namespace Run

variable {α : Type}

def log (l : LogLine) : Run Unit := modify fun w => { w with log := w.log.push l }

def logAll (ls : List LogLine) : Run Unit := ls.forM log

def debug (text : String) : Run Unit := log ⟨.debug, text⟩

def info (text : String) : Run Unit := log ⟨.info, text⟩

def warn (text : String) : Run Unit := log ⟨.warning, text⟩

def clock : Run Int := do return (← get).clock

def refuse (c : StoreCall) (e : StoreError) : Run α := do
  modify fun w => { w with refused := w.refused.push c }
  throw (.store e)

def call (c : StoreCall) (act : Store → Except StoreError (α × Store)) : Run α := do
  let w ← get
  set { w with calls := w.calls + 1 }
  match w.faults w.calls c with
  | some text => refuse c (.refused text)
  | none =>
    if w.store.isClosed then refuse c (.closed c)
    else if !c.fits then throw .tooLarge
    else
      match act w.store with
      | .error e => refuse c e
      | .ok (a, s) => do
        modify fun w => { w with store := s }
        return a

def ask (c : StoreCall) (f : Store → α) : Run α := call c fun s => .ok (f s, s)

def fingerprint (path : String) : Run (Option String) :=
  ask (.fingerprint path) fun s => s.fingerprint? path

def setFingerprint (path text : String) : Run Unit :=
  call (.setFingerprint path text) fun s => .ok ((), s.setFingerprint path text)

def dropFingerprint (path : String) : Run Unit :=
  call (.dropFingerprint path) fun s => .ok ((), s.dropFingerprint path)

def tracked : Run (List String) := ask .tracked (·.tracked)

/-- Removes the rows of a file and says how many there were. -/
def deleteBlocks (path : String) : Run Nat :=
  call (.deleteBlocks path) fun s => .ok ((s.rowsOf path).length, s.deleteBlocks path)

def holds (b : Block) : Run Bool := ask (.holds b) fun s => s.holds b

def save (b : Block) (vector : Option Vector) (text : String) : Run Nat :=
  call (.save b) fun s =>
    match s.save? b vector text with
    | some r => .ok r
    | none => .error (.taken b)

def setVector (id : Int) (v : Vector) : Run Unit :=
  call (.setVector id) fun s =>
    match s.setVector? id v with
    | some s => .ok ((), s)
    | none => .error (.noRow id)

def pending : Run (List Row) := ask .pending (·.pending)

def rows : Run (List Row) := ask .rows (·.rows)

def vectors : Run (List Vector) := ask .vectors (·.vectors)

def statistics : Run Statistics := ask .statistics (·.statistics)

/-- What a part of a run gives, or the store's refusal; any other failure ends the run. -/
def attempt (x : Run α) : Run (Except StoreError α) := ExceptT.mk do
  match ← x.run with
  | .ok a => return .ok (.ok a)
  | .error (.store e) => return .ok (.error e)
  | .error f => return .error f

end Run

end BlockIndex
