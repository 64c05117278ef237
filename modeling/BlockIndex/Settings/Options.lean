import BlockIndex.Json.Value
import BlockIndex.Settings.Basic

/-! Settings by name.  Each setting is an option with a value of any kind, so that a value that does not
suit it can be given; options are checked before they become settings. -/

namespace BlockIndex

abbrev Options := List (String × Json)

inductive OptionError where
  | unknown (name : String)
  /-- The option follows from others and cannot be set. -/
  | fixed
  /-- A value is not of the kind that is needed. -/
  | wrongKind
  | noKey
  | noRoot (path : String)
  | noExtensions
  | tokenLimit
  deriving DecidableEq, Repr

def OptionError.message : OptionError → String
  | .unknown name => "unknown configuration option: " ++ name
  | .fixed => "the option cannot be set"
  | .wrongKind => "the value is of the wrong kind"
  | .noKey => "OPENAI_API_KEY is not set"
  | .noRoot path => "root directory does not exist: " ++ path
  | .noExtensions => "no file extensions selected"
  | .tokenLimit => "TOKEN_LIMIT must be at least 1"

def Settings.options (s : Settings) : Options :=
  [("openai_api_key", (s.apiKey.map Json.text).getD .null),
   ("root_dir", .text s.root),
   ("file_extensions", .array (s.extensions.map .text)),
   ("db_path", .text s.database),
   ("n_commits", .whole s.commits),
   ("token_limit", .whole s.tokenLimit),
   ("log_level", .text s.logLevel),
   ("embedding_model", .text s.model),
   ("embed_timeout_minutes", .whole s.timeoutMinutes),
   ("batch_size", .whole s.batchSize)]

namespace Options

def value (o : Options) (name : String) : Json := (o.lookup name).getD .null

/-- The name of the timeout in seconds, which follows from the one in minutes. -/
def timeoutName : String := "batch_timeout"

/-- A value as it is set; the extensions may be given as a list with commas. -/
def given (name : String) : Json → Json
  | .text s =>
    if name = "file_extensions" then .array ((Settings.readExtensions s).map .text) else .text s
  | v => v

/-- The options with values that take the place of others; null takes no place. -/
def override (o : Options) : Options → Except OptionError Options
  | [] => .ok o
  | (_, .null) :: r => override o r
  | (name, v) :: r =>
    if (o.lookup name).isSome then override (Json.setMember name (given name v) o) r
    else if name = timeoutName then .error .fixed
    else .error (.unknown name)

/-- Whether a value is less than one, if it is a number. -/
def isBelowOne : Json → Except OptionError Bool
  | .whole n => .ok (n < 1)
  | .bool b => .ok !b
  | .real x => .ok (x.less (Double.ofInt 1))
  | _ => .error .wrongKind

/-- Whether the root is needed and missing. -/
def checkRoot (isDirectory : String → Bool) : Json → Except OptionError Unit
  | .text path => if isDirectory path then .ok () else .error (.noRoot path)
  | _ => .error .wrongKind

/-- Checks the key and the root, if these are needed, then the extensions and the token limit. -/
def check (o : Options) (isDirectory : String → Bool) (needsKey needsRoot : Bool) :
    Except OptionError Unit := do
  if needsKey && (o.value "openai_api_key").isEmpty then throw .noKey
  if needsRoot then checkRoot isDirectory (o.value "root_dir")
  if (o.value "file_extensions").isEmpty then throw .noExtensions
  if ← isBelowOne (o.value "token_limit") then throw .tokenLimit

/-- The timeout in seconds: sixty times the one in minutes. -/
def timeout (o : Options) : Except OptionError Json :=
  match o.value "embed_timeout_minutes" with
  | .whole n => .ok (.whole (n * 60))
  | .bool b => .ok (.whole (b.toNat * 60))
  | .real x => .ok (.real (x.mul (Double.ofInt 60)))
  | .text s => .ok (.text (String.join (List.replicate 60 s)))
  | .array xs => .ok (.array (List.replicate 60 xs).flatten)
  | _ => .error .wrongKind

/-- The options in an environment with values that take the place of others, checked. -/
def load (env : EnvFile.Variables) (isDirectory : String → Bool) (needsKey needsRoot : Bool)
    (overrides : Options) : Except OptionError Options := do
  let o ← override (Settings.ofVariables env).options overrides
  check o isDirectory needsKey needsRoot
  return o

def textOr (other : String) : Json → String
  | .text s => s
  | _ => other

def intOr (other : Int) : Json → Int
  | .whole n => n
  | _ => other

def textsOr (other : List String) : Json → List String
  | .array xs => xs.map (textOr "")
  | _ => other

/-- The settings in options; a value of the wrong kind leaves the setting as it is by default. -/
def settings (o : Options) : Settings :=
  let d : Settings := {}
  { apiKey := match o.value "openai_api_key" with
      | .text s => some s
      | _ => none
    root := textOr d.root (o.value "root_dir")
    extensions := textsOr d.extensions (o.value "file_extensions")
    database := textOr d.database (o.value "db_path")
    commits := intOr d.commits (o.value "n_commits")
    tokenLimit := intOr d.tokenLimit (o.value "token_limit")
    logLevel := textOr d.logLevel (o.value "log_level")
    model := textOr d.model (o.value "embedding_model")
    timeoutMinutes := intOr d.timeoutMinutes (o.value "embed_timeout_minutes")
    batchSize := intOr d.batchSize (o.value "batch_size") }

theorem settings_options (s : Settings) : settings s.options = s := by
  cases s with
  | mk key root extensions =>
    cases key <;>
      simp [settings, Settings.options, value, List.lookup_cons, textOr, intOr, textsOr,
        Function.comp_def]

end Options

end BlockIndex
