import BlockIndex.Proofs.Extract.Spans
import BlockIndex.Proofs.Text.Lines
import BlockIndex.Proofs.Tokens.Count
import BlockIndex.Proofs.Tokens.Fewest

/-! Blocks of texts without declarations.  They are the chunks of the lines one for one
(`map_chunkOf_blocks`), so they cover the lines without a gap, their texts put together are the
content, and a block of several lines stays within the token limit (`blocks_lossless`). -/

namespace BlockIndex.Extract.Plain

open Text

variable {limit : Int} {path content : String} {bs : List Block}

/-- Blocks that cover the lines from 1 to `count` in turn, without a gap. -/
structure Covers (count : Nat) (bs : List Block) : Prop where
  starts : ∀ b, bs.head? = some b → b.span.first = 1
  follows : bs.IsChain fun b c => c.span.first = b.span.last + 1
  ends : ∀ b, bs.getLast? = some b → b.span.last = count

/-- The chunk that a block holds. -/
def chunkOf (b : Block) : Tokens.Chunk := ⟨b.span.first, b.span.last, b.text⟩

/-- No chunk is left out. -/
theorem map_chunkOf_blocks (limit : Int) (path content : String) :
    (blocks limit path content).map chunkOf = Tokens.chunks limit (lines content) := by
  have hholds : ∀ c ∈ Tokens.chunks limit (lines content), c.Holds (lines content) :=
    fun c hc => Tokens.holds_of_mem_chunks hc
  unfold blocks
  generalize Tokens.chunks limit (lines content) = cs at hholds
  induction cs with
  | nil => rfl
  | cons c cs ih =>
    have hblock := blockOf?_of_holds path (hholds c List.mem_cons_self)
    rw [List.filterMap_cons_some hblock, List.map_cons,
      ih fun d hd => hholds d (List.mem_cons_of_mem c hd)]
    rfl

theorem covers_blocks (limit : Int) (path content : String) :
    Covers (lines content).length (blocks limit path content) := by
  have hmap := map_chunkOf_blocks limit path content
  refine ⟨fun b hb => ?_, ?_, fun b hb => ?_⟩
  · have hhead := congrArg List.head? hmap
    rw [List.head?_map, hb] at hhead
    exact (Tokens.first_of_head_number hhead.symm).trans (Nat.zero_add 1)
  · have hchain := Tokens.isChain_number 0 (Tokens.divide limit (lines content))
    change List.IsChain _ (Tokens.chunks limit (lines content)) at hchain
    rw [← hmap] at hchain
    exact (List.isChain_map chunkOf).mp hchain
  · have hlast := congrArg List.getLast? hmap
    rw [List.getLast?_map, hb] at hlast
    have hcount := Tokens.last_of_getLast_number hlast.symm
    rw [Tokens.flatten_divide, Nat.zero_add] at hcount
    exact hcount

/-- The texts of the blocks, joined, are the lines, joined. -/
theorem joinLines_map_text (limit : Int) (path content : String) :
    joinLines ((blocks limit path content).map (·.text)) = joinLines (lines content) := by
  have htexts : (blocks limit path content).map (·.text) =
      (Tokens.divide limit (lines content)).map joinLines := by
    rw [← Tokens.text_number 0]
    change _ = (Tokens.chunks limit (lines content)).map (·.text)
    rw [← map_chunkOf_blocks limit path content, List.map_map]
    rfl
  rw [htexts, joinLines_map_joinLines (Tokens.division_divide limit (lines content)).filled,
    Tokens.flatten_divide]

/-- A block of several lines stays within the limit. -/
theorem count_text_le {b : Block} (hb : b ∈ blocks limit path content)
    (hseveral : b.span.first < b.span.last) : (Tokens.count b.text : Int) ≤ limit := by
  have hmem : chunkOf b ∈ Tokens.chunks limit (lines content) :=
    map_chunkOf_blocks limit path content ▸ List.mem_map_of_mem hb
  have hholds := Tokens.holds_of_mem_chunks hmem
  have htext : b.text = joinLines ((chunkOf b).linesIn (lines content)) := hholds.text_eq
  have hlength : ((chunkOf b).linesIn (lines content)).length = b.span.last + 1 - b.span.first := by
    have hfirst : 1 ≤ b.span.first := b.span.first_pos
    have hlast : b.span.last ≤ (lines content).length := hholds.last_le
    simp only [Tokens.Chunk.linesIn, chunkOf, List.length_take, List.length_drop]
    omega
  have hfits : Tokens.Fits limit ((chunkOf b).linesIn (lines content)) := by
    refine (Tokens.division_divide limit (lines content)).fits _ ?_
    rw [← Tokens.map_linesIn_chunks]
    exact List.mem_map_of_mem hmem
  rw [htext, Tokens.count_joinLines]
  exact hfits.weight_le (by omega)

/-- Whatever the limit, the blocks of a content cover its lines in turn, there are none only if it
is empty, their texts joined are the content without the line feed at its end, and a block of
several lines stays within the limit. -/
theorem blocks_lossless (limit : Int) (path content : String) :
    ∃ bs, (extractor limit).extract path content = .ok bs ∧
      Covers (lines content).length bs ∧ (bs = [] ↔ content = "") ∧
      joinLines (bs.map (·.text)) ++ finalNewline content = content ∧
      ∀ b ∈ bs, b.span.first < b.span.last → (Tokens.count b.text : Int) ≤ limit := by
  refine ⟨blocks limit path content, rfl, covers_blocks limit path content, ?_, ?_,
    fun b hb => count_text_le hb⟩
  · rw [← List.map_eq_nil_iff, map_chunkOf_blocks, Tokens.chunks_eq_nil_iff, lines_eq_nil_iff]
  · rw [joinLines_map_text, joinLines_lines_append]

end BlockIndex.Extract.Plain
