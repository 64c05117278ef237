import BlockIndex.Run.Indexer

/-! Extracting the blocks of files.  A file is given to the extractor for its extension; its blocks are
noted with the path of the file below the root and the subjects of its last commits.  A file that
cannot be read, or on which the extractor gives up, counts as an error and has no blocks. -/

namespace BlockIndex.Run

/-- The subjects of the last commits of a file; there are none without a history. -/
def commitsOf (ix : Indexer) (file : String) : Run (List String) := do
  match ix.history with
  | none => return []
  | some history =>
    if ix.commits ≤ 0 then return []
    match history file ix.commits with
    | .ok subjects => return subjects
    | .error e =>
      debug ("No commit history for " ++ file ++ ": " ++ e.message)
      return []

def extractWarning (e : Extractor) (file : String) (err : ExtractError) : String :=
  match err with
  | .unreadable _ .badName =>
    "⚠️ " ++ e.name ++ " extractor failed on " ++ file ++ ": " ++ err.message
  | .unreadable _ _ => "⚠️ " ++ err.message
  | .failed _ => "⚠️ " ++ e.name ++ " extractor failed on " ++ file ++ ": " ++ err.message

def annotate (file : String) (commits : List String) (b : Block) : Block :=
  { b with relativePath := some file, commits := commits }

def extractFile (ix : Indexer) (file : String) : Run (Except ExtractError (List Block)) := do
  match ix.registry.find? (Path.ofString file).suffix with
  | none =>
    warn ("⚠️ No extractor for " ++ file)
    return .ok []
  | some e =>
    match e.blocksOf ix.disk (ix.root.join (Path.ofString file)).toString with
    | .error err =>
      warn (extractWarning e file err)
      return .error err
    | .ok bs =>
      let commits ← if bs.isEmpty then pure [] else commitsOf ix file
      debug ("📄 " ++ file ++ ": " ++ toString bs.length ++ " blocks")
      return .ok (bs.map (annotate file commits))

def extractEach (ix : Indexer) : List String → Run (List Block × Nat)
  | [] => return ([], 0)
  | f :: fs => do
    let r ← extractFile ix f
    let (bs, errors) ← extractEach ix fs
    match r with
    | .ok found => return (found ++ bs, errors)
    | .error _ => return (bs, errors + 1)

/-- The blocks of files in the order of the files, and how many files could not be read. -/
def extractBlocks (ix : Indexer) (files : List String) : Run (List Block × Nat) := do
  let (bs, errors) ← extractEach ix files
  info ("🧩 Extracted " ++ toString bs.length ++ " blocks from " ++ toString files.length ++
    " files")
  return (bs, errors)

end BlockIndex.Run
