import BlockIndex.Store.Basic

/-! Stored blocks as comma-separated records.  A field that holds a comma, a quote or a character of a
row end is put in quotes, and quotes inside it are written twice.  Every record ends with a carriage
return and a line feed. -/

namespace BlockIndex.Csv

def needsQuotes (c : Char) : Bool := c = ',' || c = '"' || c = '\r' || c = '\n'

def inQuotes (c : Char) : List Char := if c = '"' then ['"', '"'] else [c]

def field (s : List Char) : List Char :=
  if s.any needsQuotes then '"' :: s.flatMap inQuotes ++ ['"'] else s

/-- Fields with commas between them. -/
def fields : List (List Char) → List Char
  | [] => []
  | [f] => field f
  | f :: fs => field f ++ ',' :: fields fs

def record (fs : List String) : List Char := fields (fs.map String.toList) ++ ['\r', '\n']

def columns : List String :=
  ["id", "file_path", "relative_path", "block_type", "class_name", "method_name", "start_line",
   "end_line", "commit_messages", "raw_text", "embedding_text", "embedding", "created_at"]

def fieldsOf (r : Row) : List String :=
  let b := r.block
  [toString r.id, b.path, b.displayPath, b.kind.name, b.className.getD "", b.name.getD "",
   toString b.span.first, toString b.span.last, "; ".intercalate b.commits, b.text, r.text,
   if r.hasVector then r.components.toText else "", r.createdAt.getD ""]

/-- The records of rows after one with the names of the fields. -/
def ofRows (rows : List Row) : String :=
  String.ofList (record columns ++ rows.flatMap fun r => record (fieldsOf r))

end BlockIndex.Csv
