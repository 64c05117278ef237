import BlockIndex.Extract.Source
import BlockIndex.Log
import BlockIndex.Tree.Scan

/-! Scanners.  A scanner looks below a root directory for files with selected extensions; its ignore
patterns are read from ignore files in that directory. -/

namespace BlockIndex

/-- A root directory and what to look for below it. -/
structure Scanner where
  root : Path
  selection : Selection

namespace Scanner

/-- The scanner without ignore patterns for some extensions, in upper or lower case. -/
def ofExtensions (root : Path) (extensions : List String) : Scanner :=
  ⟨root, ⟨extensions.map Text.lower, []⟩⟩

/-- The name of the ignore file that is read if no other is named. -/
def ignoreFileName : String := ".gitignore"

/-- The patterns of an ignore file; a missing file has none. -/
def ignoreFile? (s : Scanner) (d : Disk Bytes) (name : String) : Option (List String) :=
  match d.read (s.root.join (Path.ofString name)) with
  | .ok bytes => some (Ignore.patternsOf (sourceText bytes).toList)
  | .error _ => none

/-- The scanner with the patterns of an ignore file added, how many there are, and what is
logged. -/
def load (s : Scanner) (d : Disk Bytes) (name : String) : Scanner × Nat × List LogLine :=
  match s.ignoreFile? d name with
  | none => (s, 0, [])
  | some ps =>
    ({ s with selection.patterns := s.selection.patterns ++ ps }, ps.length,
      [⟨.debug, "Loaded " ++ toString ps.length ++ " ignore patterns from " ++
        (s.root.join (Path.ofString name)).toString⟩])

def files (s : Scanner) (d : Disk Bytes) : List String :=
  match d.locate s.root with
  | .ok t => t.scan s.selection
  | .error _ => []

def scanLines (found : List String) : List LogLine :=
  ⟨.info, "📁 Found " ++ toString found.length ++ " files"⟩ ::
    if found.isEmpty then
      [⟨.warning,
        "⚠️ No files found! Check the root directory, extensions and ignore rules"⟩]
    else []

end Scanner

end BlockIndex
