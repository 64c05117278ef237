import BlockIndex.Extract.Go.Extractor
import BlockIndex.Extract.JavaScript
import BlockIndex.Extract.Php
import BlockIndex.Extract.Plain
import BlockIndex.Extract.Python
import BlockIndex.Log
import BlockIndex.Setup

/-! The extractors that come with the program.  A registry is built of those that are for one of the
selected extensions, in a fixed order.  What parses Go files is given. -/

namespace BlockIndex.Registry

open Extract

def candidates (parseGo : Go.Parser) (limit : Int) : List Extractor :=
  [Python.extractor, JavaScript.extractor, Php.extractor, Go.extractor parseGo,
    Plain.extractor limit]

def registerLine (r : Registry) (e : Extractor) : LogLine :=
  if r.knows e.name then
    ⟨.debug, "Extractor " ++ e.name ++ " already registered, keeping the first one"⟩
  else ⟨.debug, "✅ Registered extractor: " ++ e.name⟩

def skipLine (e : Extractor) : LogLine :=
  ⟨.debug, "⏭️ Skipping " ++ e.name ++ " extractor (no selected extensions)"⟩

def countLine (r : Registry) : LogLine :=
  ⟨.info, "📝 Registered extractors: " ++ toString r.extractors.length⟩

def isSelected (extensions : List String) (e : Extractor) : Bool :=
  (extensions.map Text.lower).any e.extensions.contains

def enroll (extensions : List String) (r : Registry) : List Extractor → Registry × List LogLine
  | [] => (r, [countLine r])
  | e :: es =>
    if isSelected extensions e then
      let (last, log) := enroll extensions (r.register e) es
      (last, registerLine r e :: log)
    else
      let (last, log) := enroll extensions r es
      (last, skipLine e :: log)

/-- The registry for some extensions, and what is logged.  The token limit must be positive. -/
def ofExtensions (parseGo : Go.Parser) (extensions : List String) (limit : Int) :
    Except SetupError (Registry × List LogLine) :=
  if limit < 1 then .error .tokenLimit
  else .ok (enroll extensions empty (candidates parseGo limit))

end BlockIndex.Registry
