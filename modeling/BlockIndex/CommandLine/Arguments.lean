import BlockIndex.CommandLine.Words

/-! The arguments of the program: options, then a command with options of its own.  All words up to the
command are read by the options of the program, those after it by the options of the command. -/

namespace BlockIndex.CommandLine

inductive Command where
  /-- Index the changed files with vectors. -/
  | run
  /-- Index the changed files without vectors. -/
  | preprocess
  /-- Fill in the vectors that are missing. -/
  | embed
  | stats
  | export (output : String)
  deriving DecidableEq, Repr

structure Arguments where
  command : Command
  root : Option String := none
  database : Option String := none
  extensions : Option String := none
  logLevel : Option String := none
  envFile : String := ".env"
  deriving DecidableEq, Repr

inductive Stop where
  | help
  | misuse
  deriving DecidableEq, Repr

def Stop.code : Stop → Nat
  | .help => 0
  | .misuse => 2

def helpForms : List OptionForm :=
  [⟨"-h".toList, .help⟩, ⟨"--help".toList, .help⟩]

def programForms : List OptionForm :=
  helpForms ++ ["root", "db", "extensions", "log-level", "env-file"].map fun key =>
    ⟨("--" ++ key).toList, .value key⟩

def exportForms : List OptionForm :=
  helpForms ++ [⟨"-o".toList, .value "output"⟩, ⟨"--output".toList, .value "output"⟩]

/-- Values by key, the last one first. -/
abbrev Values := List (String × String)

/-- The values of options without a command, where `odd` tells that some word was no option.  At
most `fuel` words are read. -/
def readOptions (forms : List OptionForm) : Nat → Values → Bool → List Word →
    Except Stop (Values × Bool)
  | 0, vs, odd, _ => .ok (vs, odd)
  | _, vs, odd, [] => .ok (vs, odd)
  | fuel + 1, vs, odd, w :: ws =>
    match w with
    | .option f attached =>
      match take forms f attached ws with
      | .help => .error .help
      | .misused => .error .misuse
      | .value key v rest => readOptions forms fuel ((key, String.ofList v) :: vs) odd rest
    | _ => readOptions forms fuel vs true ws

/-- The values of the options of a command and whether some word was no option. -/
def readCommandOptions (forms : List OptionForm) (words : List (List Char)) :
    Except Stop (Values × Bool) :=
  match understandAll? forms words with
  | none => .error .misuse
  | some ws => readOptions forms (ws.length + 1) [] false ws

/-- A command without options that matter, if its words are none. -/
def plainCommand (c : Command) (words : List (List Char)) : Except Stop Command := do
  let (_, odd) ← readCommandOptions helpForms words
  if odd then throw .misuse
  return c

def readCommand (name : String) (words : List (List Char)) : Except Stop Command :=
  match name with
  | "run" => plainCommand .run words
  | "preprocess" => plainCommand .preprocess words
  | "embed" => plainCommand .embed words
  | "stats" => plainCommand .stats words
  | "export" => do
    let (vs, odd) ← readCommandOptions exportForms words
    match vs.lookup "output" with
    | none => throw .misuse
    | some output => if odd then throw .misuse else return .export output
  | _ => .error .misuse

/-- The values of the options up to the command, the command, and whether some word was no option.
At most `fuel` words are read; `texts` are the words as they were written. -/
def readProgram : Nat → Values → Bool → List Word → List (List Char) →
    Except Stop (Values × Bool × Command)
  | 0, _, _, _, _ => .error .misuse
  | fuel + 1, vs, odd, ws, texts =>
    match ws with
    | [] => .error .misuse
    | .divider :: _ => .error .misuse
    | .unknown :: r => readProgram fuel vs true r (texts.drop 1)
    | .plain name :: _ => do
      let c ← readCommand (String.ofList name) (texts.drop 1)
      return (vs, odd, c)
    | .option f attached :: r =>
      match take programForms f attached r with
      | .help => .error .help
      | .misused => .error .misuse
      | .value key v rest =>
        readProgram fuel ((key, String.ofList v) :: vs) odd rest
          (texts.drop (texts.length - rest.length))

def Arguments.ofWords (words : List String) : Except Stop Arguments :=
  let texts := words.map String.toList
  match understandAll? programForms texts with
  | none => .error .misuse
  | some ws => do
    let (vs, odd, command) ← readProgram (ws.length + 1) [] false ws texts
    if odd then throw .misuse
    return {
      command
      root := vs.lookup "root"
      database := vs.lookup "db"
      extensions := vs.lookup "extensions"
      logLevel := vs.lookup "log-level"
      envFile := (vs.lookup "env-file").getD ".env" }

end BlockIndex.CommandLine
