import BlockIndex.Json.Reader
import BlockIndex.Json.Writer
import BlockIndex.Store.File

/-! A library of databases.  A store is written as JSON; `toBytes` writes it and `ofBytes?` reads it
back. -/

namespace BlockIndex.Backend.Database

open Store (OpenError)

def writeScalar : Scalar → Json
  | .whole n => .whole n
  | .real x => .real x

def writeRow (r : Row) : Json :=
  let b := r.block
  .array [.whole r.id, .text b.path, Json.ofOption b.relativePath, .text b.kind.name,
    Json.ofOption b.className, Json.ofOption b.name, .whole b.span.first, .whole b.span.last,
    .array (b.commits.map .text), .text b.text, .text r.text,
    match r.vector with
      | some v => .array (v.map writeScalar)
      | none => .null,
    Json.ofOption r.createdAt]

def format : String := "block index 1"

/-- The bytes of a store. -/
def toBytes (s : Store) : Bytes :=
  Text.Utf8.encode (Json.write (.object [("format", .text format), ("last", .whole s.lastId),
    ("rows", .array (s.rows.map writeRow)),
    ("fingerprints", .array (s.fingerprints.map fun e => .array [.text e.1, .text e.2]))]))

def readNat? : Json → Option Nat
  | .whole n => if 0 ≤ n then some n.toNat else none
  | _ => none

def readText? : Json → Option String
  | .text s => some s
  | _ => none

def readOptional? : Json → Option (Option String)
  | .text s => some (some s)
  | .null => some none
  | _ => none

def readArray? : Json → Option (List Json)
  | .array xs => some xs
  | _ => none

def readScalar? : Json → Option Scalar
  | .whole n => some (.whole n)
  | .real x => some (.real x)
  | _ => none

def readVector? : Json → Option (Option Vector)
  | .null => some none
  | .array xs => (xs.mapM readScalar?).map some
  | _ => none

def readBlock? (path rel kind cls name first last commits text : Json) : Option Block := do
  let span ← Span.make? (← readNat? first) (← readNat? last)
  return {
    path := ← readText? path
    kind := ← BlockKind.ofName? (← readText? kind)
    span
    text := ← readText? text
    className := ← readOptional? cls
    name := ← readOptional? name
    relativePath := ← readOptional? rel
    commits := ← (← readArray? commits).mapM readText? }

def readRow? : Json → Option Row
  | .array [id, path, rel, kind, cls, name, first, last, commits, text, asked, vector, created] => do
    return {
      id := ← readNat? id
      block := ← readBlock? path rel kind cls name first last commits text
      vector := ← readVector? vector
      text := ← readText? asked
      createdAt := ← readOptional? created }
  | _ => none

def readFingerprint? : Json → Option (String × String)
  | .array [.text path, .text text] => some (path, text)
  | _ => none

def ofJson? : Json → Option Store
  | .object [("format", .text f), ("last", last), ("rows", .array rows),
      ("fingerprints", .array fingerprints)] => do
    if f ≠ format then none
    return {
      lastId := ← readNat? last
      rows := ← rows.mapM readRow?
      fingerprints := ← fingerprints.mapM readFingerprint? }
  | _ => none

/-- The store in bytes.  At most one byte is an empty store. -/
def ofBytes? (bytes : Bytes) : Option Store :=
  if bytes.length ≤ 1 then some {}
  else
    match Text.Utf8.decode? bytes with
    | none => none
    | some s =>
      match Json.read s with
      | .ok v => ofJson? v
      | .error _ => none

/-- Whether a path stands for a store that is kept in no file. -/
def isKept (p : Path) : Bool := p.toString != ":memory:"

def cannotOpen : OpenError := .refused "unable to open database file"

def keep (s : Store) (d : Disk Bytes) (p : Path) : Except OpenError (Disk Bytes) :=
  match d.write p (toBytes s) with
  | .ok d => .ok d
  | .error _ => .error cannotOpen

def connect (d : Disk Bytes) (p : Path) : Except OpenError (Store × Disk Bytes) :=
  if isKept p then
    match d.read p with
    | .ok bytes =>
      match ofBytes? bytes with
      | some s => (keep s d p).map fun d => (s, d)
      | none => .error (.refused "file is not a database")
    | .error .missing => (keep {} d p).map fun d => ({}, d)
    | .error _ => .error cannotOpen
  else .ok ({}, d)

def commit (s : Store) (d : Disk Bytes) (p : Path) : Disk Bytes :=
  if isKept p then (keep s d p).toOption.getD d else d

def library : Store.Database where
  connect := connect
  commit := commit

end BlockIndex.Backend.Database
