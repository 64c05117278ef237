import BlockIndex.Block.Basic
import BlockIndex.Text.LowerCase

/-! Extractors and the registry that chooses one of them by file extension. -/

namespace BlockIndex

/-- A way to find the blocks of files with certain extensions.  It may fail on a file as a whole. -/
structure Extractor where
  name : String
  extensions : List String
  extract : (path content : String) → Except String (List Block)

/-- Whether an extractor is for an extension, in upper or lower case. -/
def Extractor.claims (e : Extractor) (extension : String) : Bool :=
  e.extensions.contains (Text.lower extension)

/-- Extractors in the order in which they were registered. -/
structure Registry where
  extractors : List Extractor

namespace Registry

def empty : Registry := ⟨[]⟩

def knows (r : Registry) (name : String) : Bool := r.extractors.any (·.name == name)

/-- The registry with one more extractor, unless one of that name is there. -/
def register (r : Registry) (e : Extractor) : Registry :=
  if r.knows e.name then r else ⟨r.extractors ++ [e]⟩

/-- The first extractor that is for an extension. -/
def find? (r : Registry) (extension : String) : Option Extractor :=
  r.extractors.find? (·.claims extension)

def names (r : Registry) : List String := r.extractors.map (·.name)

def extensions (r : Registry) : List String := r.extractors.flatMap (·.extensions)

end Registry

end BlockIndex
