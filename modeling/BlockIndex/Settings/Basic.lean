import BlockIndex.Number.Reading
import BlockIndex.Extract.Source
import BlockIndex.Text.LowerCase

/-! Settings and the environment they are taken from.  An environment file adds variables to the
environment; what it holds is for a library to say. -/

namespace BlockIndex

namespace EnvFile

/-- The variables of an environment. -/
abbrev Variables := List (String × String)

end EnvFile

open EnvFile (Variables)

structure Settings where
  apiKey : Option String := none
  root : String := "."
  extensions : List String := [".py", ".md", ".yml", ".conf"]
  database : String := "embeddings.sqlite3"
  commits : Int := 3
  tokenLimit : Int := 1600
  logLevel : String := "info"
  model : String := "text-embedding-3-small"
  timeoutMinutes : Int := 30
  batchSize : Int := 1
  deriving DecidableEq, Repr

namespace Settings

/-- The seconds that the requests for vectors may take in all. -/
def timeout (s : Settings) : Int := s.timeoutMinutes * 60

/-- An extension in lower case with a full stop before it. -/
def extensionOf (item : List Char) : String :=
  let s := Text.lower (String.ofList (Text.strip item))
  if Text.startsWith s.toList ['.'] then s else "." ++ s

/-- The extensions in a list with commas, each once; empty items are left out. -/
def readExtensions (s : String) : List String :=
  (((Text.splitAt ',' s.toList).filter fun i => !Text.allBlank i).map extensionOf).eraseDups

/-- The value of a variable, unless it is missing or empty. -/
def text? (env : Variables) (name : String) : Option String :=
  (env.lookup name).filter fun v => !v.isEmpty

/-- The whole number in a variable, or another one if it holds none. -/
def int (env : Variables) (name : String) (other : Int) : Int :=
  match env.lookup name with
  | some v => (Number.int? v.toList).getD other
  | none => other

/-- The variables that hold settings. -/
def variableNames : List String :=
  ["OPENAI_API_KEY", "ROOT_DIR", "FILE_EXTENSIONS", "DB_PATH", "N_COMMITS", "TOKEN_LIMIT",
   "LOG_LEVEL", "EMBEDDING_MODEL", "EMBED_TIMEOUT_MINUTES", "EMBED_BATCH_SIZE"]

def ofVariables (env : Variables) : Settings :=
  let d : Settings := {}
  { apiKey := text? env "OPENAI_API_KEY"
    root := (text? env "ROOT_DIR").getD d.root
    extensions := readExtensions ((text? env "FILE_EXTENSIONS").getD (",".intercalate d.extensions))
    database := (text? env "DB_PATH").getD d.database
    commits := int env "N_COMMITS" d.commits
    tokenLimit := int env "TOKEN_LIMIT" d.tokenLimit
    logLevel := Text.lower ((text? env "LOG_LEVEL").getD d.logLevel)
    model := (text? env "EMBEDDING_MODEL").getD d.model
    timeoutMinutes := int env "EMBED_TIMEOUT_MINUTES" d.timeoutMinutes
    batchSize := int env "EMBED_BATCH_SIZE" d.batchSize }

end Settings

inductive EnvFileError where
  /-- The bytes of the file are no text. -/
  | notText
  /-- A name holds an equals sign. -/
  | badName
  /-- A name or a value holds the character that ends it. -/
  | nullByte
  deriving DecidableEq, Repr

def EnvFileError.message : EnvFileError → String
  | .notText => "not a text"
  | .badName => "illegal environment variable name"
  | .nullByte => "embedded null byte"

namespace EnvFile

/-- A library that reads environment files: for the disk, the environment and a written path the
environment after the file was read, and the lines that are printed. -/
abbrev Loader :=
  (disk : Disk Bytes) → Variables → (path : String) → Except EnvFileError (Variables × List String)

/-- The environment with what the file of a written path adds, if there is one. -/
def load (library : Loader) (d : Disk Bytes) (env : Variables) (path : String) :
    Except EnvFileError (Variables × List String) :=
  if path.isEmpty || !d.isFile (Path.ofString path) then .ok (env, []) else library d env path

end EnvFile

end BlockIndex
