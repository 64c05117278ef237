import BlockIndex.Backend.Go.Parser
import BlockIndex.Proofs.Block.EmbeddingText
import BlockIndex.Proofs.Extract.Paths
import BlockIndex.Proofs.Run.Unhindered

/-! The texts for which vectors are asked.  A text tells what stands in it, and of the blocks that
are extracted of one tree it tells everything but the kind (`embeddingText_tells`). -/

namespace BlockIndex

open Run

theorem Span.eq_of_first_last {s s' : Span} (hfirst : s.first = s'.first)
    (hlast : s.last = s'.last) : s = s' := by
  cases s
  cases s'
  cases hfirst
  cases hlast
  rfl

section Extracted

variable {ix : Indexer} {file file' : String} {b b' : Block}

/-- What every block of a file is noted with. -/
theorem Indexer.noted_of_mem_blocksOf (hkeeps : ix.registry.KeepsPaths)
    (hb : b ∈ ix.blocksOf file) : b.relativePath = some file ∧
      b.path = (ix.root.below file).toString ∧ b.commits = ix.subjects file := by
  unfold blocksOf extraction at hb
  cases hfind : ix.registry.find? (Path.ofString file).suffix with
  | none => simp [hfind] at hb
  | some e =>
    simp only [hfind] at hb
    cases hread : ix.disk.read (Path.ofString (ix.root.below file).toString) with
    | error err => simp [Extractor.blocksOf, hread] at hb
    | ok bytes =>
      cases hbs : e.extract (ix.root.below file).toString (sourceText bytes) with
      | error text => simp [Extractor.blocksOf, hread, hbs] at hb
      | ok bs =>
        simp only [Extractor.blocksOf, hread, hbs] at hb
        obtain ⟨b₀, hb₀, rfl⟩ := List.mem_map.mp hb
        exact ⟨rfl, hkeeps e (List.mem_of_find?_eq_some hfind) _ _ bs hbs b₀ hb₀, rfl⟩

/-- The empty name has no extension and so no extractor. -/
theorem Indexer.blocksOf_empty (h : ix.registry.find? "" = none) : ix.blocksOf "" = [] := by
  have hsuffix : (Path.ofString "").suffix = "" := by decide +kernel
  simp [blocksOf, extraction, hsuffix, h]

/-- Two blocks of one tree that are shown alike differ in nothing but the kind. -/
theorem Indexer.eq_of_showsAs (hkeeps : ix.registry.KeepsPaths)
    (hnone : ix.registry.find? "" = none) (hb : b ∈ ix.blocksOf file)
    (hb' : b' ∈ ix.blocksOf file') (h : b.ShowsAs b') : b = { b' with kind := b.kind } := by
  have hdisplay : ∀ {file b}, b ∈ ix.blocksOf file → b.displayPath = file := by
    intro file b hb
    have hne : file.isEmpty = false := by
      rw [Bool.eq_false_iff]
      intro hempty
      rw [String.isEmpty_iff.mp hempty, blocksOf_empty hnone] at hb
      cases hb
    rw [Block.displayPath, (noted_of_mem_blocksOf hkeeps hb).1]
    simp [hne]
  obtain rfl : file = file' := (hdisplay hb).symm.trans (h.path.trans (hdisplay hb'))
  obtain ⟨hrel, hpath, hcommits⟩ := noted_of_mem_blocksOf hkeeps hb
  obtain ⟨hrel', hpath', hcommits'⟩ := noted_of_mem_blocksOf hkeeps hb'
  obtain ⟨path, kind, span, text, className, name, relativePath, commits⟩ := b
  obtain ⟨path', kind', span', text', className', name', relativePath', commits'⟩ := b'
  simp only [Block.mk.injEq, true_and]
  exact ⟨hpath.trans hpath'.symm, Span.eq_of_first_last h.first h.last, h.text, h.className, h.name,
    hrel.trans hrel'.symm, hcommits.trans hcommits'.symm⟩

end Extracted

/-- The embedding text of a block whose header has no line feed in a field tells the path that is
shown, the names, the line numbers, the text and the commits as they are shown.  Two blocks that are
extracted of one tree never have the same text, unless they differ in nothing but the kind. -/
theorem embeddingText_tells :
    (∀ b b' : Block, b.OneLine → b'.OneLine → b.embeddingText = b'.embeddingText →
      b.ShowsAs b') ∧
    ∀ (ix : Indexer) parseGo extensions limit log,
      Registry.ofExtensions parseGo extensions limit = .ok (ix.registry, log) →
        ∀ files w, ∃ bs errors, (outcome (extractBlocks ix files) w).1 = .ok (bs, errors) ∧
          ∀ b ∈ bs, ∀ b' ∈ bs, b.OneLine → b'.OneLine → b.embeddingText = b'.embeddingText →
            b = { b' with kind := b.kind } := by
  refine ⟨fun b b' => Block.showsAs_of_embeddingText_eq, ?_⟩
  intro ix parseGo extensions limit log hix files w
  have hrun : wp w.faults (extractBlocks ix files) (fun r _ =>
      r = .ok (files.flatMap ix.blocksOf, (files.filter ix.givesUp).length)) w.view :=
    wp_extractBlocks rfl
  refine ⟨_, _, hrun.at_world, fun b hb b' hb' h h' heq => ?_⟩
  obtain ⟨file, -, hb⟩ := List.mem_flatMap.mp hb
  obtain ⟨file', -, hb'⟩ := List.mem_flatMap.mp hb'
  have hshows := Block.showsAs_of_embeddingText_eq h h' heq
  exact Indexer.eq_of_showsAs (Registry.keepsPaths_ofExtensions hix) (Registry.find?_empty hix)
    hb hb' hshows

namespace Sample

/-- A block whose text looks like more of its header. -/
def headed : Block where
  path := "/a.py"
  kind := .method
  span := ⟨2, 4, by decide, by decide⟩
  text := "Lines: 1-1\n\npass"
  className := some "C"
  name := some "m"
  relativePath := some "a.py"
  commits := ["fix", "add"]

/-- An indexer of a tree with one file of two functions that look alike. -/
def twins (r : Registry) : Indexer where
  root := ⟨"/", []⟩
  disk := ⟨.directory [("a.py", .file "def f(): pass\ndef f(): pass\n".toUTF8.toList)], []⟩
  registry := r
  scanner := ⟨⟨"/", []⟩, ⟨[".py"], []⟩⟩

/-- The one of them that stands in some line. -/
def twin (line : Nat) (h : 1 ≤ line) : Block where
  path := "/a.py"
  kind := .function
  span := ⟨line, line, h, Nat.le_refl line⟩
  text := "def f(): pass"
  name := some "f"
  relativePath := some "a.py"

theorem oneLine_twin (line : Nat) (h : 1 ≤ line) : (twin line h).OneLine where
  path := (by decide : '\n' ∉ "a.py".toList)
  className := fun n hn => by cases hn
  name := fun n hn => by cases hn; decide
  commits := fun m hm => by cases hm

end Sample

theorem embeddingText_tells_sample :
    (∀ b : Block, b.OneLine → b.embeddingText = Sample.headed.embeddingText →
      b.className = some "C" ∧ b.text = "Lines: 1-1\n\npass") ∧
    ∃ r log errors, Registry.ofExtensions Backend.Go.parse [".py"] 100 = .ok (r, log) ∧
      (outcome (extractBlocks (Sample.twins r) ["a.py"]) {}).1 =
        .ok ([Sample.twin 1 Nat.one_pos, Sample.twin 2 Nat.two_pos], errors) ∧
      (Sample.twin 1 Nat.one_pos).embeddingText ≠ (Sample.twin 2 Nat.two_pos).embeddingText := by
  refine ⟨fun b hone heq => ?_, ?_⟩
  · have hheaded : Sample.headed.OneLine :=
      ⟨by decide, fun n hn => by cases hn; decide, fun n hn => by cases hn; decide, by decide⟩
    have hshows := embeddingText_tells.1 b _ hone hheaded heq
    exact ⟨hshows.className, hshows.text⟩
  · obtain ⟨⟨r, log⟩, hr⟩ : ∃ r, Registry.ofExtensions Backend.Go.parse [".py"] 100 = .ok r := ⟨_, rfl⟩
    obtain ⟨bs, errors, hbs, htells⟩ :=
      embeddingText_tells.2 (Sample.twins r) Backend.Go.parse [".py"] 100 log hr ["a.py"] {}
    have htwins : (match (outcome (extractBlocks (Sample.twins r) ["a.py"]) {}).1 with
        | .ok (bs, _) => bs
        | .error _ => []) = [Sample.twin 1 Nat.one_pos, Sample.twin 2 Nat.two_pos] := by
      cases hr
      decide +kernel
    rw [hbs] at htwins
    obtain rfl : bs = [Sample.twin 1 Nat.one_pos, Sample.twin 2 Nat.two_pos] := htwins
    refine ⟨r, log, errors, hr, hbs, fun heq => ?_⟩
    have hsame := htells _ (by simp) _ (by simp) (Sample.oneLine_twin 1 Nat.one_pos)
      (Sample.oneLine_twin 2 Nat.two_pos) heq
    exact absurd hsame (by decide)

end BlockIndex
