import BlockIndex.Run.Basic
import BlockIndex.Store.Csv

/-! Writing all rows of the store to a file. -/

namespace BlockIndex.Run

/-- Writes all rows as comma-separated records to the file of a written path.  Gives the disk with
the file and the number of rows. -/
def exportTo (disk : Disk Bytes) (path : String) : Run (Disk Bytes × Nat) := do
  if let .error e := disk.writeAt path [] then throw (.access e path)
  let rows ← rows
  match disk.writeAt path (Text.Utf8.encode (Csv.ofRows rows).toList) with
  | .error e => throw (.access e path)
  | .ok disk =>
    info ("📤 Exported " ++ toString rows.length ++ " rows to " ++ path)
    return (disk, rows.length)

end BlockIndex.Run
