import BlockIndex.Digest
import BlockIndex.Run.Basic

/-! Which files have changed.  The digest of a file's bytes is compared with its fingerprint.  The rows
of a changed file are removed before its new fingerprint is set.  A file of which some block could
not be stored has a mark before its fingerprint; it is looked at again, and its rows stay. -/

namespace BlockIndex

/-- The mark of a file that is to be looked at again. -/
def retryMark : String := "retry:"

/-- What becomes of a file. -/
inductive Verdict where
  | new | changed | retried | unchanged | skipped
  deriving DecidableEq, Repr

def Verdict.isProcessed : Verdict → Bool
  | .new => true
  | .changed => true
  | .retried => true
  | .unchanged => false
  | .skipped => false

/-- The verdicts on files, in the order in which the files were given. -/
structure ChangeReport (α : Type := String) where
  verdicts : List (α × Verdict)
  deriving DecidableEq, Repr

namespace ChangeReport

variable {α : Type}

def filesWith (r : ChangeReport α) (v : Verdict) : List α :=
  (r.verdicts.filter fun e => e.2 == v).map (·.1)

def processed (r : ChangeReport α) : List α :=
  (r.verdicts.filter fun e => e.2.isProcessed).map (·.1)

def summary (r : ChangeReport α) : String :=
  let count v := toString (r.filesWith v).length
  "📝 Files to process: " ++ toString r.processed.length ++ " (" ++ count .new ++ " new, " ++
    count .changed ++ " changed, " ++ count .retried ++ " retried, " ++ count .unchanged ++
    " unchanged)"

end ChangeReport

namespace Run

/-- Removes the rows of a changed file and sets the fingerprint of any file that is not
unchanged. -/
def recordDigest (file digest : String) (v : Verdict) : Run Unit := do
  if v = .changed then
    let removed ← deleteBlocks file
    debug ("🗑️ Removed " ++ toString removed ++ " stale blocks for " ++ file)
  setFingerprint file digest

def verdictOf (digest : String) (stored : Option String) : Verdict :=
  match stored with
  | none => .new
  | some text =>
    if text = digest then .unchanged
    else if text = retryMark ++ digest then .retried
    else .changed

def judgeDigest (file digest : String) : Run Verdict := do
  match ← attempt (fingerprint file) with
  | .error e =>
    warn ("⚠️ Could not read stored hash for " ++ file ++ ": " ++ e.message)
    return .skipped
  | .ok stored =>
    let v := verdictOf digest stored
    if v = .unchanged then return v
    match ← attempt (recordDigest file digest v) with
    | .error e =>
      warn ("⚠️ Could not update fingerprint for " ++ file ++ ": " ++ e.message)
      return .skipped
    | .ok () => return v

def judge (disk : Disk Bytes) (root : Path) (file : String) : Run Verdict := do
  let path := root.join (Path.ofString file)
  match disk.read path with
  | .error .badName => throw (.access .badName file)
  | .error e =>
    warn ("⚠️ Could not hash " ++ file ++ ": " ++ e.message path.toString)
    return .skipped
  | .ok bytes => judgeDigest file (Digest.md5 bytes)

/-- Judges a file whose path is no text.  Such a path cannot be handed to the store: the call fails,
unless the store refuses it before. -/
def judgeRaw (raw : RawFiles) (file : GivenPath) : Run Verdict := do
  match raw file with
  | .error .badName => throw (.access .badName file.shown)
  | .error (.refused text) =>
    warn ("⚠️ Could not hash " ++ file.shown ++ ": " ++ text)
    return .skipped
  | .ok _ =>
    match ← attempt (ask (.fingerprint file.shown) fun _ => ()) with
    | .error e =>
      warn ("⚠️ Could not read stored hash for " ++ file.shown ++ ": " ++ e.message)
      return .skipped
    | .ok () => throw (.notText file)

def judgeGiven (disk : Disk Bytes) (raw : RawFiles) (root : Path) (file : GivenPath) :
    Run Verdict :=
  match file.text? with
  | some text => judge disk root text
  | none => judgeRaw raw file

section Detection

variable {α : Type}

def judgeAll (judge : α → Run Verdict) : List α → Run (List (α × Verdict))
  | [] => return []
  | f :: fs => do
    let v ← judge f
    let vs ← judgeAll judge fs
    return (f, v) :: vs

def detectWith (judge : α → Run Verdict) (shown : α → String) (files : List α) :
    Run (ChangeReport α) := do
  info "🔍 Checking file changes..."
  let report : ChangeReport α := ⟨← judgeAll judge files⟩
  info report.summary
  report.processed.forM fun f => debug ("  - " ++ shown f)
  return report

end Detection

/-- Finds the changed files among those given. -/
def detect (disk : Disk Bytes) (root : Path) (files : List String) : Run ChangeReport :=
  detectWith (judge disk root) id files

/-- Finds the changed files among those given, of which some may have paths that are no texts. -/
def detectGiven (disk : Disk Bytes) (raw : RawFiles) (root : Path) (files : List GivenPath) :
    Run (ChangeReport GivenPath) :=
  detectWith (judgeGiven disk raw root) GivenPath.shown files

def isMarked (text : String) : Bool := Text.startsWith text.toList retryMark.toList

/-- Puts the mark before the fingerprint of a file and says whether it was put. -/
def mark (file : String) : Run Bool := do
  match ← fingerprint file with
  | none => return false
  | some text =>
    if isMarked text then return false
    setFingerprint file (retryMark ++ text)
    return true

def markEach : List String → Run (List String)
  | [] => return []
  | f :: fs => do
    match ← attempt (mark f) with
    | .error e =>
      warn ("⚠️ Could not mark " ++ f ++ " for retry: " ++ e.message)
      markEach fs
    | .ok false => markEach fs
    | .ok true =>
      debug ("🔁 " ++ f ++ " will be retried on the next run")
      return f :: (← markEach fs)

/-- Texts in their order, each once. -/
def sortedOnce (xs : List String) : List String :=
  xs.eraseDups.mergeSort fun a b => decide (a ≤ b)

/-- Marks files that are to be looked at again and gives those that were marked. -/
def markForRetry (files : List String) : Run (List String) := markEach (sortedOnce files)

def forget (file : String) : Run Unit := do
  let _ ← deleteBlocks file
  dropFingerprint file

def forgetEach : List String → Run (List String)
  | [] => return []
  | f :: fs => do
    match ← attempt (forget f) with
    | .error e =>
      warn ("⚠️ Could not remove deleted file " ++ f ++ ": " ++ e.message)
      forgetEach fs
    | .ok () => return f :: (← forgetEach fs)

/-- Forgets the files that are not among those given. -/
def prune (current : List String) : Run (List String) := do
  match ← attempt tracked with
  | .error e =>
    warn ("⚠️ Could not list tracked files: " ++ e.message)
    return []
  | .ok files =>
    let removed ← forgetEach (files.filter fun f => !current.contains f)
    if !removed.isEmpty then
      info ("🗑️ Removed " ++ toString removed.length ++ " deleted files from the index")
    return removed

end Run

end BlockIndex
