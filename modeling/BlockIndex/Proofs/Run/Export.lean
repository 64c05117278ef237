import BlockIndex.Proofs.Store.Csv
import BlockIndex.Proofs.Store.Faithful
import BlockIndex.Proofs.Text.Utf8
import BlockIndex.Proofs.Tree.Write
import BlockIndex.Run.Export

/-! The file to which the rows of a store are written.  Whatever changes made the store and whatever
texts it holds, the file can be read back as records (`export_reads_back`). -/

namespace BlockIndex

open Run

/-- If the file can be written, it holds the rows of the store, and their number is given. -/
theorem Run.wp_exportTo {f : Faults} {v : View} {disk d : Disk Bytes} {path : String}
    {Q : Except Failure (Disk Bytes × Nat) → View → Prop} (hopen : disk.writeAt path [] = .ok d)
    (refused : v.store.Refuses f .rows → ∀ err, Q (.error (.store err)) v)
    (done : ∀ disk', disk'.read (Path.ofString path) =
        .ok (Text.Utf8.encode (Csv.ofRows v.store.rows).toList) →
      Q (.ok (disk', v.store.rows.length)) v) : wp f (exportTo disk path) Q v := by
  obtain ⟨disk', hwrite, hread⟩ :=
    Disk.exists_writeAt hopen (Text.Utf8.encode (Csv.ofRows v.store.rows).toList)
  unfold exportTo
  simp only [hopen]
  refine wp_bind (wp_ask refused (fun h => nomatch h) fun _ => ?_)
  simp only [andThen, hwrite]
  exact wp_bind (wp_info (wp_pure (done disk' hread)))

namespace Store.Journal

variable {past : List Entry} {s : Store} {w : World}

/-- Reading the written file as records gives the names of the columns and one record for each row
that the changes left, in the order of their numbers.  An empty vector is written like none. -/
theorem export_reads_back (h : s.Journal past) (hw : w.Serves s) {disk d : Disk Bytes}
    {path : String} (hopen : disk.writeAt path [] = .ok d) :
    ∃ disk' bytes text, (outcome (exportTo disk path) w).1 = .ok (disk', (kept past).length) ∧
      disk'.read (Path.ofString path) = .ok bytes ∧ Text.Utf8.decode? bytes = some text ∧
      Csv.read? text = some (Csv.columns :: (kept past).map fun r =>
        [toString r.id, r.block.path, r.block.displayPath, r.block.kind.name,
          r.block.className.getD "", r.block.name.getD "", toString r.block.span.first,
          toString r.block.span.last, "; ".intercalate r.block.commits, r.block.text, r.text,
          if r.components = [] then "" else r.components.toText, r.createdAt.getD ""]) ∧
      (kept past).Pairwise fun r r' => r.id < r'.id := by
  have hrun : wp w.faults (exportTo disk path) (fun r _ => ∃ disk',
      r = .ok (disk', w.store.rows.length) ∧ disk'.read (Path.ofString path) =
        .ok (Text.Utf8.encode (Csv.ofRows w.store.rows).toList)) w.view := by
    apply wp_exportTo hopen
    · exact fun hr => absurd (hw.faults ▸ hr) (not_refuses (h.isOpen_of_serves hw))
    · exact fun disk' hread => ⟨disk', rfl, hread⟩
  obtain ⟨disk', hdone, hread⟩ := hrun.at_world
  rw [h.rows_of_serves hw] at hdone hread
  refine ⟨disk', _, _, hdone, hread, Text.Utf8.decode?_encode _, ?_, h.faithful.ordered⟩
  have hvector : ∀ r : Row, (if r.components = [] then "" else r.components.toText) =
      if r.hasVector then r.components.toText else "" := by
    intro r
    by_cases hr : r.components = [] <;> simp [Row.hasVector, hr]
  simp only [Csv.read?_ofRows, hvector]
  rfl

end Store.Journal

namespace Sample

/-- A block with signs of the records in its texts. -/
def quotedBlock : Block :=
  { bareBlock with
    path := "a,b.py"
    text := "print(\"x;\")\r\n"
    name := some "f"
    commits := ["fix \"it\"", "add"] }

def quotedEdits : List Edit := [.save quotedBlock none "File", .setVector 1 [.whole 7]]

end Sample

theorem Store.Journal.export_reads_back_sample :
    let w : World := { store := (Edit.history Sample.quotedEdits).2 }
    ∃ disk d disk' : Disk Bytes, ∃ bytes text, disk.writeAt "/out.csv" [] = .ok d ∧
      (outcome (exportTo disk "/out.csv") w).1 = .ok (disk', 1) ∧
      disk'.read (Path.ofString "/out.csv") = .ok bytes ∧ Text.Utf8.decode? bytes = some text ∧
      Csv.read? text = some [Csv.columns, ["1", "a,b.py", "a,b.py", "function", "", "f", "1", "2",
        "fix \"it\"; add", "print(\"x;\")\r\n", "File", "[7]", ""]] := by
  intro w
  have hopen : ((⟨.directory [], []⟩ : Disk Bytes).writeAt "/out.csv" []).toBool = true := by
    decide +kernel
  cases hd : (⟨.directory [], []⟩ : Disk Bytes).writeAt "/out.csv" [] with
  | error e => rw [hd] at hopen; cases hopen
  | ok d =>
    obtain ⟨disk', bytes, text, hdone, hread, htext, hrecords, -⟩ :=
      (Edit.journal_history Sample.quotedEdits).export_reads_back (w := w) ⟨rfl, none, rfl⟩ hd
    refine ⟨_, d, disk', bytes, text, hd, hdone, hread, htext, hrecords.trans ?_⟩
    decide +kernel

end BlockIndex
