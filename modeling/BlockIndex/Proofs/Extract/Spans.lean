import BlockIndex.Extract.Languages
import BlockIndex.Proofs.Extract.Go.Tree
import BlockIndex.Proofs.Extract.Sites
import BlockIndex.Proofs.Tokens.Chunk

/-! The spans of blocks.  Every block that an extractor finds lies within the lines of its file, its
text is that of its lines, and nothing that starts a block is left out (`spans_true`).  Go puts a
comment line before the text of a method or a struct type. -/

namespace BlockIndex

open Text

/-- The lines from the first one of a span to its last one, joined. -/
def Span.textIn (span : Span) (ls : List String) : String :=
  joinLines ((ls.drop (span.first - 1)).take (span.last + 1 - span.first))

namespace Extract

/-- The blocks lie within the lines, their texts are those of their lines, each after its comment
line if it has one, and there is one for each of the lines that start a block. -/
structure TrueSpans (ls : List String) (comment : Block → Option String) (starts : List Nat)
    (bs : List Block) : Prop where
  inside : ∀ b ∈ bs, 1 ≤ b.span.first ∧ b.span.first ≤ b.span.last ∧ b.span.last ≤ ls.length
  text_eq : ∀ b ∈ bs, b.text = ((comment b).map (· ++ "\n")).getD "" ++ b.span.textIn ls
  none_skipped : bs.map (·.span.first) = starts

/-- Each block starts after the lines in which the blocks before it start, so that no two are the
same. -/
structure InTurn (bs : List Block) : Prop where
  increasing : bs.Pairwise (·.span.first < ·.span.first)
  distinct : (bs.map (·.identity)).Nodup

variable {ls : List String} {comment : Block → Option String} {starts : List Nat}
  {bs : List Block} {path content : String}

theorem TrueSpans.inTurn (h : TrueSpans ls comment starts bs) (hs : starts.Pairwise (· < ·)) :
    InTurn bs := by
  have hincreasing : bs.Pairwise (·.span.first < ·.span.first) := by
    rw [← h.none_skipped] at hs
    exact List.pairwise_map.mp hs
  refine ⟨hincreasing, List.pairwise_map.mpr (hincreasing.imp fun hlt hsame => ?_)⟩
  exact absurd (congrArg Identity.first hsame) (Nat.ne_of_lt hlt)

/-- Blocks made one by one, each of a thing that starts a block. -/
theorem TrueSpans.of_filterMap {α : Type} {f : α → Option Block} {start : α → Nat} {xs : List α}
    (h : ∀ x ∈ xs, ∃ b, f x = some b ∧ b.span.first = start x ∧ b.span.last ≤ ls.length ∧
      b.text = ((comment b).map (· ++ "\n")).getD "" ++ b.span.textIn ls) :
    TrueSpans ls comment (xs.map start) (xs.filterMap f) := by
  refine ⟨fun b hb => ?_, fun b hb => ?_, ?_⟩
  · obtain ⟨x, hx, hf⟩ := List.mem_filterMap.mp hb
    obtain ⟨b', hb', -, hlast, -⟩ := h x hx
    cases hf.symm.trans hb'
    exact ⟨b.span.first_pos, b.span.first_le_last, hlast⟩
  · obtain ⟨x, hx, hf⟩ := List.mem_filterMap.mp hb
    obtain ⟨b', hb', -, -, htext⟩ := h x hx
    cases hf.symm.trans hb'
    exact htext
  · induction xs with
    | nil => rfl
    | cons x xs ih =>
      obtain ⟨b, hb, hfirst, -⟩ := h x List.mem_cons_self
      rw [List.filterMap_cons_some hb, List.map_cons, List.map_cons, hfirst,
        ih fun y hy => h y (List.mem_cons_of_mem x hy)]

/-! ### Line by line -/

theorem Site.text_block (s : Site) (path : String) (ls : List String) :
    (s.block path ls).text = (s.block path ls).span.textIn ls := by
  have hlength : s.last ls + 1 + 1 - (s.line + 1) = s.last ls + 1 - s.line := by omega
  simp only [Site.block, Span.textIn, Body.slice, Nat.add_sub_cancel, hlength]

theorem Language.trueSpans_blocks (lang : Language) (path content : String) :
    TrueSpans (lines content) (fun _ => none) ((lang.sites (lines content)).map (·.line + 1))
      (lang.blocks path content) := by
  have hblocks : lang.blocks path content =
      (lang.sites (lines content)).filterMap (some ∘ Site.block path (lines content)) := by
    rw [blocks_eq, List.filterMap_eq_map]
  rw [hblocks]
  refine TrueSpans.of_filterMap fun s hs => ⟨_, rfl, rfl, ?_, ?_⟩
  · exact Body.Rule.finish_lt _ (line_lt_of_mem_sites hs)
  · rw [Option.map_none, Option.getD_none, String.empty_append]
    exact s.text_block path (lines content)

theorem Language.inTurn_blocks (lang : Language) (path content : String) :
    InTurn (lang.blocks path content) :=
  (lang.trueSpans_blocks path content).inTurn
    ((pairwise_sites lang _).map _ fun _ _ hlt => Nat.succ_lt_succ hlt)

/-! ### Go -/

namespace Go

/-- The comment line that comes before the text of a block.  A method whose receiver names no type,
which Go does not allow, has none. -/
def commentOf (b : Block) : Option String :=
  match b.kind, b.className with
  | .struct, _ => some "// Type definition"
  | .method, some receiver => if receiver = "" then none else some ("// Method of " ++ receiver)
  | _, _ => none

variable {d : Declaration}

/-- The block of a declaration that lies within the lines. -/
def Declaration.block (path : String) (ls : List String) (d : Declaration)
    (h : d.Within ls.length) : Block where
  path := path
  kind := d.declared.kind
  span := ⟨d.row + 1, min (d.lastRow + 1) ls.length, Nat.succ_pos _,
    Nat.le_min.mpr ⟨Nat.succ_le_succ h.row_le, h.row_lt⟩⟩
  text := (d.declared.caption.map (· ++ "\n")).getD "" ++
    Body.slice ls d.row (min (d.lastRow + 1) ls.length - 1)
  className := d.declared.className
  name := d.declared.name

theorem commentOf_block (path : String) (h : d.Within ls.length) :
    commentOf (d.block path ls h) = d.declared.caption := by
  unfold Declaration.block commentOf
  cases d.declared with
  | function name => rfl
  | struct name => rfl
  | method receiver name =>
    cases receiver with
    | none => rfl
    | some receiver => by_cases h : receiver = "" <;> simp [Declared.kind, Declared.className,
        Declared.caption, Option.filter, h]

/-- A declaration within the lines always makes a block. -/
theorem blockOf?_of_within (path : String) (h : d.Within ls.length) :
    blockOf? path ls d = some (d.block path ls h) := by
  have hmake : Span.make? ((d.row : Int) + 1) (min (d.lastRow + 1) ls.length : Nat) =
      some (d.block path ls h).span := Span.make?_eq_some _ _
  simp only [blockOf?, hmake, Option.map_some, Declaration.block]
  cases d.declared.caption with
  | none => simp
  | some c => rfl

theorem text_block (path : String) (h : d.Within ls.length) :
    (d.block path ls h).text =
      (d.declared.caption.map (· ++ "\n")).getD "" ++ (d.block path ls h).span.textIn ls := by
  have hlast : min (d.lastRow + 1) ls.length - 1 + 1 = min (d.lastRow + 1) ls.length :=
    Nat.sub_add_cancel (Nat.le_trans (d.block path ls h).span.first_pos
      (d.block path ls h).span.first_le_last)
  have hlength : min (d.lastRow + 1) ls.length + 1 - (d.row + 1) =
      min (d.lastRow + 1) ls.length - d.row := Nat.add_sub_add_right _ 1 _
  simp only [Declaration.block, Span.textIn, Body.slice, Nat.add_sub_cancel, hlast, hlength]

theorem trueSpans_filterMap (path : String) {ds : List Declaration}
    (h : ∀ d ∈ ds, d.Within ls.length) :
    TrueSpans ls commentOf (ds.map (·.row + 1)) (ds.filterMap (blockOf? path ls)) := by
  refine TrueSpans.of_filterMap fun d hd =>
    ⟨_, blockOf?_of_within path (h d hd), rfl, Nat.min_le_right _ _, ?_⟩
  rw [commentOf_block, text_block]

/-- The comment of a block is one line. -/
theorem newline_not_mem_commentOf {parse : Parser} {path content : String} {b : Block} {c : String}
    (hparse : parse.Reads (Utf8.encode content.toList)) (hb : b ∈ blocks parse path content)
    (hc : commentOf b = some c) : '\n' ∉ c.toList := by
  obtain ⟨d, hd, hmake⟩ := List.mem_filterMap.mp hb
  have hwithin : d.Within (lines content).length := by
    rw [lines, List.length_map]
    exact hparse.within hd
  cases hmake.symm.trans (blockOf?_of_within path hwithin)
  rw [commentOf_block] at hc
  cases hdeclared : d.declared with
  | function name => simp [hdeclared, Declared.caption] at hc
  | struct name =>
    simp only [hdeclared, Declared.caption, Option.some.injEq] at hc
    subst hc
    decide
  | method receiver name =>
    simp only [hdeclared, Declared.caption, Option.map_eq_some_iff] at hc
    obtain ⟨r, hr, rfl⟩ := hc
    obtain rfl := (Option.filter_eq_some_iff.mp hr).1
    have hline := hparse.oneLine_receiver hd hdeclared
    rw [String.toList_append, List.mem_append, not_or]
    exact ⟨by decide, hline⟩

end Go

/-! ### Texts without declarations -/

namespace Plain

variable {limit : Int} {c : Tokens.Chunk}

/-- A chunk that holds its lines always makes a block. -/
theorem blockOf?_of_holds (path : String) (h : c.Holds ls) :
    blockOf? path c = some
      { path, span := ⟨c.first, c.last, h.first_pos, h.first_le_last⟩, kind := kindOf path,
        text := c.text } := by
  simp only [blockOf?, Span.make?_eq_some h.first_pos h.first_le_last, Option.map_some]

theorem trueSpans_blocks (limit : Int) (path content : String) :
    TrueSpans (lines content) (fun _ => none)
      ((Tokens.chunks limit (lines content)).map (·.first)) (blocks limit path content) := by
  refine TrueSpans.of_filterMap fun c hc => ?_
  have h := Tokens.holds_of_mem_chunks hc
  refine ⟨_, blockOf?_of_holds path h, rfl, h.last_le, ?_⟩
  rw [Option.map_none, Option.getD_none, String.empty_append]
  exact h.text_eq

theorem inTurn_blocks (limit : Int) (path content : String) :
    InTurn (blocks limit path content) := by
  refine (trueSpans_blocks limit path content).inTurn ?_
  refine List.pairwise_map.mpr (List.Pairwise.imp_of_mem (fun hc _ hlt => ?_)
    (Tokens.pairwise_number 0 (Tokens.divide limit (lines content))))
  exact Nat.lt_of_le_of_lt (Tokens.holds_of_mem_chunks hc).first_le_last hlt

end Plain

/-! ### Every extractor -/

/-- The extractors that read line by line, each with its language. -/
def lineByLine : List (Extractor × Language) :=
  [(Python.extractor, Python.language), (JavaScript.extractor, JavaScript.language),
    (Php.extractor, Php.language)]

theorem extract_of_mem_lineByLine {e : Extractor} {lang : Language} (h : (e, lang) ∈ lineByLine)
    (path content : String) : e.extract path content = .ok (lang.blocks path content) := by
  simp only [lineByLine, List.mem_cons, Prod.mk.injEq, List.not_mem_nil, or_false] at h
  obtain ⟨rfl, rfl⟩ | ⟨rfl, rfl⟩ | ⟨rfl, rfl⟩ := h <;> rfl

/-- Every extractor gives blocks with true spans, one for each line that starts a declaration (for a
text without declarations, a chunk).  They come in turn, except for Go, where one line may start
several declarations and the parser decides what they are. -/
theorem spans_true (limit : Int) (path content : String) :
    (∀ p ∈ lineByLine, ∃ bs, p.1.extract path content = .ok bs ∧
      TrueSpans (lines content) (fun _ => none)
        ((p.2.sites (lines content)).map (·.line + 1)) bs ∧ InTurn bs) ∧
    (∀ parse : Go.Parser, parse.Reads (Utf8.encode content.toList) →
      ∃ bs, (Go.extractor parse).extract path content = .ok bs ∧
        TrueSpans (lines content) Go.commentOf
          ((Go.declarations parse (Utf8.encode content.toList)).map (·.row + 1)) bs ∧
        ∀ b ∈ bs, ∀ c, Go.commentOf b = some c → '\n' ∉ c.toList) ∧
    ∃ bs, (Plain.extractor limit).extract path content = .ok bs ∧
      TrueSpans (lines content) (fun _ => none)
        ((Tokens.chunks limit (lines content)).map (·.first)) bs ∧ InTurn bs := by
  refine ⟨fun p hp => ?_, fun parse hparse => ?_, ?_⟩
  · exact ⟨_, extract_of_mem_lineByLine hp path content, p.2.trueSpans_blocks path content,
      p.2.inTurn_blocks path content⟩
  · refine ⟨_, rfl, Go.trueSpans_filterMap path fun d hd => ?_,
      fun b hb c hc => Go.newline_not_mem_commentOf hparse hb hc⟩
    rw [lines, List.length_map]
    exact hparse.within hd
  · exact ⟨_, rfl, Plain.trueSpans_blocks limit path content,
      Plain.inTurn_blocks limit path content⟩

namespace Go.Sample

def source : String := "package p\n\nfunc (x *T) f() \x7b\n\x7d\n"

def node (kind : String) (field : Option String) (first past : Nat) (children : List Node) : Node :=
  .node kind field (Extent.of (Utf8.encode source.toList) first past) children

def receiver : Node :=
  node "parameter_list" (some "receiver") 16 22
    [node "(" none 16 17 [],
      node "parameter_declaration" none 17 21
        [node "identifier" (some "name") 17 18 [],
          node "pointer_type" (some "type") 19 21
            [node "*" none 19 20 [], node "type_identifier" none 20 21 []]],
      node ")" none 21 22 []]

def method : Node :=
  node "method_declaration" none 11 30
    [node "func" none 11 15 [], receiver, node "field_identifier" (some "name") 23 24 [],
      node "parameter_list" (some "parameters") 24 26
        [node "(" none 24 25 [], node ")" none 25 26 []],
      node "block" (some "body") 27 30 [node "\x7b" none 27 28 [], node "\x7d" none 29 30 []]]

/-- A parser that reads one source. -/
def parse : Parser := fun _ =>
  node "source_file" none 0 31
    [node "package_clause" none 0 9
        [node "package" none 0 7 [], node "package_identifier" none 8 9 []],
      node "\n" none 9 10 [], method, node "\n" none 30 31 []]

theorem parse_reads : parse.Reads (Utf8.encode source.toList) := by
  have hlies : ∀ n ∈ (parse (Utf8.encode source.toList)).preorder,
      (n.declared? (Utf8.encode source.toList)).isSome →
        n.extent.first < n.extent.past ∧ n.extent.past ≤ (Utf8.encode source.toList).length ∧
          n.extent.start = Point.of (Utf8.encode source.toList) n.extent.first ∧
          n.extent.stop = Point.of (Utf8.encode source.toList) n.extent.past := by
    decide +kernel
  refine ⟨fun n hn hd => ?_, by decide +kernel⟩
  obtain ⟨hnonempty, hpast, hstart, hstop⟩ := hlies n hn hd
  exact ⟨hnonempty, hpast, hstart, hstop⟩

end Go.Sample

theorem spans_true_sample :
    let php := "<?php\nfunction f() \x7b\n\x7d"
    let go := Go.Sample.source
    (Php.extractor, Php.language) ∈ lineByLine ∧
      Go.Sample.parse.Reads (Utf8.encode go.toList) ∧
      (Php.language.blocks "p.php" php).map (·.span.first) = [2] ∧
      ∃ b, Go.blocks Go.Sample.parse "p.go" go = [b] ∧ b.span.first = 3 ∧
        b.span.last ≤ (lines go).length ∧
        b.text = "// Method of T\n" ++ b.span.textIn (lines go) := by
  intro php go
  have hphp : (Php.extractor, Php.language) ∈ lineByLine := by simp [lineByLine]
  refine ⟨hphp, Go.Sample.parse_reads, ?_, ?_⟩
  · obtain ⟨bs, hbs, htrue, -⟩ := (spans_true 100 "p.php" php).1 _ hphp
    cases hbs
    rw [htrue.none_skipped]
    decide +kernel
  · obtain ⟨bs, hbs, htrue, -⟩ := (spans_true 100 "p.go" go).2.1 _ Go.Sample.parse_reads
    cases hbs
    have hblocks : (Go.blocks Go.Sample.parse "p.go" go).map
        (fun b => (b.span.first, Go.commentOf b)) = [(3, some "// Method of T")] := by
      decide +kernel
    obtain ⟨b, hb, hfirst⟩ := List.map_eq_singleton_iff.mp hblocks
    obtain ⟨hfirst, hcomment⟩ := Prod.mk.inj hfirst
    have hmem : b ∈ Go.blocks Go.Sample.parse "p.go" go := hb ▸ List.mem_singleton_self b
    refine ⟨b, hb, hfirst, (htrue.inside b hmem).2.2, ?_⟩
    rw [htrue.text_eq b hmem, hcomment]
    rfl

end Extract

end BlockIndex
