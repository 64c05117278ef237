import BlockIndex.Backend.Go.Parser
import BlockIndex.Extract.Languages
import BlockIndex.Extract.Source
import BlockIndex.Proofs.Text.LineEnds
import BlockIndex.Proofs.Text.Utf8

/-! Files whose line ends are written in one of three forms.  The text that an extractor sees does
not depend on the form, so the blocks of a file do not either (`same_blocks_for_line_ends`). -/

namespace BlockIndex

open Text

variable {path s : String}

/-- A text without carriage returns is what is read of its bytes, in whichever form its line ends
are written. -/
theorem sourceText_write (ending : LineEnd) (h : '\r' ∉ s.toList) :
    sourceText (Utf8.encode (ending.write s.toList)) = s := by
  rw [sourceText, Utf8.decode_encode, unifyLineEnds_write ending h, String.ofList_toList]

/-- The extractors that come with the program give up on no text. -/
theorem Registry.exists_extract_eq_ok {parseGo : Extract.Go.Parser} {limit : Int} {e : Extractor}
    (he : e ∈ candidates parseGo limit) (path s : String) : ∃ bs, e.extract path s = .ok bs := by
  simp only [candidates, List.mem_cons, List.not_mem_nil, or_false] at he
  rcases he with rfl | rfl | rfl | rfl | rfl
  · exact ⟨Extract.Python.language.blocks path s, rfl⟩
  · exact ⟨Extract.JavaScript.language.blocks path s, rfl⟩
  · exact ⟨Extract.Php.language.blocks path s, rfl⟩
  · exact ⟨Extract.Go.blocks parseGo path s, rfl⟩
  · exact ⟨Extract.Plain.blocks limit path s, rfl⟩

namespace Extract

theorem blocksOf_of_read_write (e : Extractor) {d : Disk Bytes} {ending : LineEnd}
    (h : '\r' ∉ s.toList)
    (hread : d.read (Path.ofString path) = .ok (Utf8.encode (ending.write s.toList))) :
    e.blocksOf d path = (e.extract path s).mapError .failed := by
  simp only [Extractor.blocksOf, hread, sourceText_write ending h]
  cases e.extract path s <;> rfl

/-- A file that holds a text without carriage returns has the blocks of the text, whether its line
ends are line feeds, carriage returns or both.  This holds of every extractor; those that come with
the program never give up. -/
theorem same_blocks_for_line_ends (h : '\r' ∉ s.toList) :
    (∀ (e : Extractor) (ending : LineEnd) (d : Disk Bytes),
      d.read (Path.ofString path) = .ok (Utf8.encode (ending.write s.toList)) →
        e.blocksOf d path = (e.extract path s).mapError .failed) ∧
    ∀ parseGo limit, ∀ e ∈ Registry.candidates parseGo limit, ∃ bs, e.extract path s = .ok bs ∧
      ∀ (ending : LineEnd) (d : Disk Bytes),
        d.read (Path.ofString path) = .ok (Utf8.encode (ending.write s.toList)) →
          e.blocksOf d path = .ok bs := by
  refine ⟨fun e ending d hread => blocksOf_of_read_write e h hread, fun parseGo limit e he => ?_⟩
  obtain ⟨bs, hbs⟩ := Registry.exists_extract_eq_ok he path s
  refine ⟨bs, hbs, fun ending d hread => ?_⟩
  rw [blocksOf_of_read_write e h hread, hbs]
  rfl

namespace Sample

/-- A tree with one file. -/
def diskOf (content : Bytes) : Disk Bytes := ⟨.directory [("a.py", .file content)], []⟩

theorem read_diskOf (content : Bytes) :
    (diskOf content).read (Path.ofString "/a.py") = .ok content := by
  have hpath : Path.ofString "/a.py" = ⟨"/", ["a.py"]⟩ := by decide +kernel
  have hname : (⟨"/", ["a.py"]⟩ : Path).toString.toList.contains '\x00' = false := by
    decide +kernel
  simp only [hpath, Disk.read, Disk.locate, Disk.way, hname]
  rfl

end Sample

theorem same_blocks_for_line_ends_sample :
    let s := "def f():\n    return 1\n"
    let bytes := fun ending : LineEnd => Utf8.encode (ending.write s.toList)
    '\r' ∉ s.toList ∧ bytes .both ≠ bytes .lineFeed ∧ bytes .carriageReturn ≠ bytes .lineFeed ∧
      Python.extractor ∈ Registry.candidates Backend.Go.parse 100 ∧
      ∃ bs, Python.extractor.extract "/a.py" s = .ok bs ∧
        bs.map (fun b => (b.name, b.text)) = [(some "f", "def f():\n    return 1")] ∧
        Python.extractor.blocksOf (Sample.diskOf (bytes .both)) "/a.py" = .ok bs ∧
        Python.extractor.blocksOf (Sample.diskOf (bytes .carriageReturn)) "/a.py" = .ok bs := by
  intro s bytes
  have hs : '\r' ∉ s.toList := by decide +kernel
  have hmem : Python.extractor ∈ Registry.candidates Backend.Go.parse 100 := List.mem_cons_self
  obtain ⟨bs, hbs, hsame⟩ := (@same_blocks_for_line_ends "/a.py" s hs).2 Backend.Go.parse 100 _ hmem
  refine ⟨hs, by decide +kernel, by decide +kernel, hmem, bs, hbs, ?_,
    hsame _ _ (Sample.read_diskOf _), hsame _ _ (Sample.read_diskOf _)⟩
  cases hbs
  decide +kernel

end Extract

end BlockIndex
