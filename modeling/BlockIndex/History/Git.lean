import BlockIndex.Text.Blank
import BlockIndex.Text.Lines
import BlockIndex.Tree.Path

/-! The commits of a file, read from git.  A command is run with a list of arguments; what it prints is
one commit subject a line. -/

namespace BlockIndex

inductive Finish where
  | unstarted (text : String)
  | finished (code : Int) (output errors : String)
  deriving DecidableEq, Repr

/-- The git command: what becomes of each list of arguments. -/
abbrev Git := List String → Finish

inductive HistoryError where
  | noRepository (root : String)
  | outside (path root : String)
  | unstarted (text : String)
  | failed (errors : String)
  /-- A refusal in the words of the history itself. -/
  | refused (text : String)
  deriving DecidableEq, Repr

def HistoryError.message : HistoryError → String
  | .noRepository root => root ++ " is not a git repository"
  | .outside path root => path ++ " is outside " ++ root
  | .unstarted text => "failed to run git: " ++ text
  | .failed errors => "git log failed: " ++ errors
  | .refused text => text

/-- The history of files: for a path and a number of commits the subjects of the last commits that
touched the file. -/
abbrev History := (path : String) → (commits : Int) → Except HistoryError (List String)

namespace Git

def probe : List String := ["rev-parse", "--git-dir"]

def isRepository (git : Git) : Bool :=
  match git probe with
  | .finished code _ _ => code == 0
  | .unstarted _ => false

/-- The root of the repository at a path that is seen from the directory `here`. -/
def openRoot (git : Git) (here : Path) (path : String) : Except HistoryError Path :=
  let root := here.resolve (Path.ofString path)
  if git.isRepository then .ok root else .error (.noRepository root.toString)

/-- The path that is given to git for a file: an absolute one is seen from the root. -/
def pathIn (root : Path) (file : String) : Except HistoryError Path :=
  let p := Path.ofString file
  if p.isAbsolute then
    match (root.resolve p).relativeTo? root with
    | some q => if file.toList.contains '\x00' then .error (.outside file root.toString) else .ok q
    | none => .error (.outside file root.toString)
  else .ok p

/-- The arguments that ask for the subjects of the last commits of a file. -/
def logOf (commits : Int) (path : Path) : List String :=
  ["log", "-n", toString commits, "--format=%s", "--", path.toString]

/-- The subjects in what git prints: its rows without blank characters around them, but for blank
rows. -/
def subjects (output : String) : List String :=
  (((Text.rows output).map fun r => Text.strip r.toList).filter fun r => !r.isEmpty).map
    String.ofList

/-- The commands that are run for the subjects of the last commits of a file, and the subjects. -/
def lastCommits (git : Git) (root : Path) (file : String) (commits : Int) :
    List (List String) × Except HistoryError (List String) :=
  match pathIn root file with
  | .error e => ([], .error e)
  | .ok path =>
    let command := logOf commits path
    ([command],
      match git command with
      | .unstarted text => .error (.unstarted text)
      | .finished code output errors =>
        if code = 0 then .ok (subjects output)
        else .error (.failed (String.ofList (Text.strip errors.toList))))

def history (git : Git) (root : Path) : History := fun file commits =>
  (git.lastCommits root file commits).2

end Git

end BlockIndex
