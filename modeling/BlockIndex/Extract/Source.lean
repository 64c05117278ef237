import BlockIndex.Extract.Extractor
import BlockIndex.Text.Lines
import BlockIndex.Text.Utf8
import BlockIndex.Tree.Disk

/-! Reading source files.  The bytes of a file are read as text with replacements, and all line ends
become line feeds, before an extractor sees them. -/

namespace BlockIndex

abbrev Bytes := List UInt8

def sourceText (bytes : Bytes) : String :=
  String.ofList (Text.unifyLineEnds (Text.Utf8.decode bytes))

inductive ExtractError where
  | unreadable (path : String) (e : AccessError)
  /-- The extractor gives up, in its own words. -/
  | failed (text : String)
  deriving DecidableEq, Repr

def ExtractError.message : ExtractError → String
  | .unreadable path .badName => AccessError.badName.message path
  | .unreadable path e =>
    "failed to read " ++ path ++ ": " ++ e.message (Path.ofString path).toString
  | .failed text => text

def Extractor.blocksOf (e : Extractor) (d : Disk Bytes) (path : String) :
    Except ExtractError (List Block) :=
  match d.read (Path.ofString path) with
  | .error err => .error (.unreadable path err)
  | .ok bytes =>
    match e.extract path (sourceText bytes) with
    | .error text => .error (.failed text)
    | .ok bs => .ok bs

end BlockIndex
