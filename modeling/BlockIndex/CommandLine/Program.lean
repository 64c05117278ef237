import BlockIndex.CommandLine.Arguments
import BlockIndex.Extract.Languages
import BlockIndex.Run.Backfill
import BlockIndex.Run.Export
import BlockIndex.Run.Project
import BlockIndex.Settings.Options
import BlockIndex.Store.File

/-! The program: it reads its arguments and settings, opens the store and carries out a command.  What
it prints, logs and leaves on the disk is a function of what it finds and of the libraries it uses.
-/

namespace BlockIndex.CommandLine

/-- The libraries that the program uses, by what it uses of them. -/
structure Libraries where
  parseGo : Extract.Go.Parser
  loadEnv : EnvFile.Loader
  arrays : Magnitude.Arrays
  database : Store.Database

structure Surroundings where
  libraries : Libraries
  disk : Disk Bytes
  environment : EnvFile.Variables
  git : Git
  /-- The provider for a key and a model. -/
  provider : (key model : String) → Provider
  clock : Int := 0
  /-- The time that is noted for new rows. -/
  now : Option String

inductive Message where
  | plain (text : String)
  | log (line : LogLine)
  deriving DecidableEq, Repr

inductive Ending where
  | stopped (s : Stop)
  | finished (code : Nat)
  | badEnvFile (e : EnvFileError)
  | badOption (e : OptionError)
  | badStore (path : String)
  | failed (f : Failure)
  deriving DecidableEq, Repr

structure Result where
  ending : Ending
  output : String := ""
  messages : List Message := []
  disk : Disk Bytes
  clock : Int
  /-- The keys and models for which a provider was asked. -/
  providers : List (String × String) := []
  /-- The requests that were made to a provider. -/
  requests : Nat := 0

def levels : List (String × Level) :=
  [("debug", .debug), ("info", .info), ("warn", .warning), ("warning", .warning),
   ("error", .error)]

def levelOf (name : String) : Level := (levels.lookup (Text.lower name)).getD .info

def shown (level : Level) (log : List LogLine) : List Message :=
  (log.filter fun l => decide (level.rank ≤ l.level.rank)).map .log

def statisticsLines (s : Statistics) (vectors : Option Magnitude.Summary) : List String :=
  ["📊 Database statistics",
   String.ofList (List.replicate 40 '='),
   "Total blocks:               " ++ toString s.total,
   "Blocks with embeddings:     " ++ toString s.withVector,
   "Blocks without embeddings:  " ++ toString s.withoutVector,
   "Files:                      " ++ toString s.files] ++
  (if s.kinds.isEmpty then []
    else "Blocks by type:" :: s.kinds.map fun k => "  • " ++ k.1.name ++ ": " ++ toString k.2) ++
  match vectors with
  | none => []
  | some v =>
    ["Embedding dimensions:       " ++ toString v.dimensions,
     "Mean vector magnitude:      " ++ v.mean.fixed 4,
     "Std of vector magnitude:    " ++ v.deviation.fixed 4]

def printed (lines : List String) : String := String.join (lines.map (· ++ "\n"))

def Command.needsProvider : Command → Bool
  | .run => true
  | .embed => true
  | _ => false

def Command.needsRoot : Command → Bool
  | .run => true
  | .preprocess => true
  | .embed => true
  | _ => false

def indexer (s : Surroundings) (disk : Disk Bytes) (c : Settings) (withProvider : Bool) :
    Run Indexer := do
  match Registry.ofExtensions s.libraries.parseGo c.extensions c.tokenLimit with
  | .error e => throw (.setup e)
  | .ok (registry, lines) =>
    Run.logAll lines
    let (scanner, _, lines) :=
      (Scanner.ofExtensions (Path.ofString c.root) c.extensions).load disk Scanner.ignoreFileName
    Run.logAll lines
    let here : Path := ⟨"/", disk.here⟩
    let history ← match s.git.openRoot here c.root with
      | .ok root => pure (some (s.git.history root))
      | .error e => do
        Run.info ("ℹ️ Commit history disabled: " ++ e.message)
        pure none
    return {
      root := here.resolve (Path.ofString c.root)
      disk
      registry
      scanner
      provider := if withProvider then some (s.provider (c.apiKey.getD "") c.model) else none
      history
      commits := c.commits
      timeout := Ticks.ofSeconds c.timeout
      batchSize := c.batchSize }

/-- Carries out a command; gives the disk and what is printed. -/
def carryOut (s : Surroundings) (disk : Disk Bytes) (c : Settings) (command : Command) :
    Run (Disk Bytes × String) := do
  match command with
  | .stats =>
    let numbers ← Run.statistics
    match Magnitude.summary s.libraries.arrays (← Run.vectors) with
    | .error e => throw (.vectors e)
    | .ok vectors => return (disk, printed (statisticsLines numbers vectors))
  | .export output => return ((← Run.exportTo disk output).1, "")
  | .embed =>
    let _ ← Run.backfill (← indexer s disk c true)
    return (disk, "")
  | .run =>
    let _ ← Run.indexProject (← indexer s disk c true) false
    return (disk, "")
  | .preprocess =>
    let _ ← Run.indexProject (← indexer s disk c false) true
    return (disk, "")

/-- The failures that are reported in a line of the log. -/
def report? : Failure → Option String
  | .store e => some ("❌ Storage error: " ++ e.message)
  | .access .badName _ => none
  | .access e path => some ("❌ " ++ e.message path)
  | _ => none

def settingsOf (s : Surroundings) (environment : EnvFile.Variables) (a : Arguments) :
    Except OptionError Settings :=
  (Options.load environment (fun p => s.disk.isDirectory (Path.ofString p)) a.command.needsProvider
    a.command.needsRoot
    [("root_dir", Json.ofOption a.root), ("db_path", Json.ofOption a.database),
     ("file_extensions", Json.ofOption a.extensions),
     ("log_level", Json.ofOption a.logLevel)]).map Options.settings

def isReported : OptionError → Bool
  | .fixed => false
  | .wrongKind => false
  | _ => true

/-- The line about what the program works with. -/
def startLine (c : Settings) : LogLine :=
  ⟨.debug, "⚙️ Root: " ++ c.root ++ " | DB: " ++ c.database ++ " | Extensions: " ++
    ", ".intercalate c.extensions⟩

/-- Carries out a command with an open store and writes the store back. -/
def withStore (s : Surroundings) (c : Settings) (command : Command) (path : Path) (store : Store)
    (disk : Disk Bytes) : Result :=
  let world : World := { store := { store with now := s.now }, clock := s.clock }
  let (r, w) := (carryOut s disk c command).run.run world
  let left := match r with
    | .ok (d, _) => d
    | .error _ => disk
  let result : Result := {
    ending := .finished 0
    disk := s.libraries.database.commit w.store left path
    clock := w.clock
    providers := if command.needsProvider then [(c.apiKey.getD "", c.model)] else []
    requests := w.requests.size }
  let level := levelOf c.logLevel
  let log := startLine c :: w.log.toList
  match r with
  | .ok (_, output) => { result with output, messages := shown level log }
  | .error f =>
    match report? f with
    | some text =>
      { result with ending := .finished 1, messages := shown level (log ++ [⟨.error, text⟩]) }
    | none => { result with ending := .failed f, messages := shown level log }

def openLine (path : Path) (e : Store.OpenError) : LogLine :=
  ⟨.error, "❌ Storage error: failed to open database " ++ path.toString ++ ": " ++ e.message⟩

def withSettings (s : Surroundings) (c : Settings) (command : Command) : Result :=
  let path := Path.ofString c.database
  let result : Result := { ending := .finished 1, disk := s.disk, clock := s.clock }
  if c.database.toList.contains '\x00' then { result with ending := .badStore c.database }
  else
    match Store.openFile s.libraries.database s.disk path with
    | .error e => { result with messages := shown (levelOf c.logLevel) [startLine c, openLine path e] }
    | .ok (store, disk) => withStore s c command path store disk

def withArguments (s : Surroundings) (a : Arguments) : Result :=
  let result : Result := { ending := .finished 1, disk := s.disk, clock := s.clock }
  match EnvFile.load s.libraries.loadEnv s.disk s.environment a.envFile with
  | .error e => { result with ending := .badEnvFile e }
  | .ok (environment, lines) =>
    let messages := lines.map Message.plain
    match settingsOf s environment a with
    | .error e =>
      if isReported e then
        let line : LogLine := ⟨.error, "❌ Configuration error: " ++ e.message⟩
        { result with messages := messages ++ [.log line] }
      else { result with ending := .badOption e, messages }
    | .ok c =>
      let r := withSettings s c a.command
      { r with messages := messages ++ r.messages }

def program (s : Surroundings) (words : List String) : Result :=
  match Arguments.ofWords words with
  | .error e => { ending := .stopped e, disk := s.disk, clock := s.clock }
  | .ok a => withArguments s a

end BlockIndex.CommandLine
