import BlockIndex.Backend.Libraries

/-! The program on real files.  Those parts of the file tree that a command may need are read, the
command is carried out on them, and the files that it changed are written back.  No other program
is run and no connection is made, so there is no history, and requests for vectors fail. -/

namespace BlockIndex.Main

open CommandLine

/-- The file or directory at a path, with all that is in it. -/
partial def readTree (path : String) : IO (Option (Tree Bytes)) := do
  let p := (← IO.currentDir) / path
  if ← p.isDir then
    let entries ← (← p.readDir).toList.filterMapM fun e => do
      return (← readTree (path ++ "/" ++ e.fileName)).map fun t => (e.fileName, t)
    return some (.directory entries)
  else if ← p.pathExists then return some (.file (← IO.FS.readBinFile p).toList)
  else return none

/-- The disk with what is at a path. -/
def withTree (d : Disk Bytes) (path : String) : IO (Disk Bytes) := do
  match ← readTree path with
  | some t => return d.place (Path.ofString path) t
  | none => return d

/-- The disk with what is at a path if that is a file, and with the directory it lies in. -/
def withFile (d : Disk Bytes) (path : String) : IO (Disk Bytes) := do
  let p := Path.ofString path
  let here ← IO.currentDir
  let directory := (here / p.parent.toString)
  let d ← if ← directory.isDir then pure ((d.makeDirectories p.parent).toOption.getD d) else pure d
  if ← (here / path).isDir then return d.place p (.directory []) else withTree d path

/-- The variables of the environment that may matter. -/
def readVariables (names : List String) : IO EnvFile.Variables :=
  names.eraseDups.filterMapM fun n => do return (← IO.getEnv n).map fun v => (n, v)

def environment (d : Disk Bytes) (envFile : String) : IO EnvFile.Variables := do
  let bound := match Backend.EnvFile.read? d [] envFile with
    | some bytes => (Backend.EnvFile.bindings [] (Text.Utf8.decode bytes)).map (·.1)
    | none => []
  readVariables (Backend.EnvFile.switch :: Settings.variableNames ++ bound)

/-- A provider that is never reached. -/
def offline (key model : String) : Provider :=
  Service.provider { apiKey := key, model } (fun _ => .failed "no connection") 0

def text : Message → String
  | .plain t => t
  | .log l => l.level.name ++ " | " ++ l.text

def writeBack (before after : Disk Bytes) : IO Unit :=
  after.tree.files.forM fun (way, bytes) => do
    let same := match before.tree.find? way with
      | some (.file old) => old == bytes
      | _ => false
    if !same then
      let path : Path := ⟨"/", way⟩
      IO.FS.createDirAll path.parent.toString
      IO.FS.writeBinFile path.toString (ByteArray.mk bytes.toArray)

def surroundings (words : List String) : IO Surroundings := do
  let here := Path.ofString (← IO.currentDir).toString
  let empty : Disk Bytes := ⟨Tree.insert (.directory []) here.parts (.directory []), here.parts⟩
  let found (disk : Disk Bytes) (environment : EnvFile.Variables) : Surroundings :=
    { libraries := Backend.libraries
      disk
      environment
      git := fun _ => .unstarted "git"
      provider := offline
      now := none }
  match Arguments.ofWords words with
  | .error _ => return found empty []
  | .ok a =>
    let disk ← withFile empty a.envFile
    let environment ← environment disk a.envFile
    let s := found disk environment
    let loaded := EnvFile.load Backend.EnvFile.load disk environment a.envFile
    let settings := Settings.ofVariables ((loaded.toOption.map (·.1)).getD environment)
    let disk ← withTree disk (a.root.getD settings.root)
    let disk ← withFile disk (a.database.getD settings.database)
    let disk ← match a.command with
      | .export output => withFile disk output
      | _ => pure disk
    return { s with disk }

def exitCode : Ending → UInt32
  | .stopped s => s.code.toUInt32
  | .finished code => code.toUInt32
  | _ => 1

def usage : String :=
  "usage: block-index [--root DIR] [--db FILE] [--extensions LIST] [--log-level LEVEL] " ++
    "[--env-file FILE] (run | preprocess | embed | stats | export -o FILE)"

def run (words : List String) : IO UInt32 := do
  let s ← surroundings words
  let r := program s words
  match r.ending with
  | .stopped .help => IO.println usage
  | .stopped .misuse => IO.eprintln usage
  | _ => IO.print r.output
  r.messages.forM fun m => IO.eprintln (text m)
  writeBack s.disk r.disk
  return exitCode r.ending

end BlockIndex.Main

def main (words : List String) : IO UInt32 := BlockIndex.Main.run words
