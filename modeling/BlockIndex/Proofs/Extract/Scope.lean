import BlockIndex.Extract.JavaScript
import BlockIndex.Extract.Php
import BlockIndex.Extract.Python
import BlockIndex.Proofs.Extract.Sites
import BlockIndex.Proofs.Text.Blank

/-! The class that a block belongs to.  A block is a method of the class whose header is the nearest
one before its line, if that header is indented less than the line, and a function otherwise.  Lines
that are blank, comments, or in Python without a colon, are no headers and start no block; and no
line has a say in what an earlier line starts (`Dialect.scope_follows_last_header`). -/

namespace BlockIndex

/-- What a block is called: its kind, its class and its name. -/
def Block.heading (b : Block) : BlockKind × Option String × Option String :=
  (b.kind, b.className, b.name)

namespace Extract

open Text

/-! ### The nearest header -/

namespace Language

variable {lang : Language} {ls : List String} {i : Nat}

/-- Line `k` is the last class header before line `i`. -/
structure Nearest (lang : Language) (ls : List String) (i k : Nat) (s : Scope) : Prop where
  before : k < i
  header : ls[k]?.bind lang.header? = some s
  last : ∀ j, k < j → j < i → ls[j]?.bind lang.header? = none

theorem Nearest.succ {k : Nat} {s : Scope} (h : lang.Nearest ls i k s)
    (hi : ls[i]?.bind lang.header? = none) : lang.Nearest ls (i + 1) k s where
  before := Nat.lt_succ_of_lt h.before
  header := h.header
  last j hk hj := by
    rcases Nat.lt_succ_iff_lt_or_eq.mp hj with hj | rfl
    · exact h.last j hk hj
    · exact hi

theorem scopeBefore_add_one (lang : Language) (ls : List String) (i : Nat) :
    lang.scopeBefore ls (i + 1) = (ls[i]?.bind lang.header?).or (lang.scopeBefore ls i) := by
  cases hline : ls[i]? with
  | some line => rw [scopeBefore_succ hline, Option.bind_some]
  | none =>
    have hlen : ls.length ≤ i := List.getElem?_eq_none_iff.mp hline
    rw [Option.bind_none, Option.none_or, scopeBefore, scopeBefore, List.take_of_length_le hlen,
      List.take_of_length_le (Nat.le_succ_of_le hlen)]

theorem scopeBefore_eq_some_iff {s : Scope} :
    lang.scopeBefore ls i = some s ↔ ∃ k, lang.Nearest ls i k s := by
  induction i with
  | zero =>
    constructor
    · intro h
      cases h
    · rintro ⟨k, h⟩
      exact absurd h.before (Nat.not_lt_zero k)
  | succ i ih =>
    rw [scopeBefore_add_one]
    cases hi : ls[i]?.bind lang.header? with
    | some t =>
      rw [Option.some_or]
      constructor
      · intro h
        cases h
        exact ⟨i, Nat.lt_succ_self i, hi, fun j hij hj => absurd hj (by omega)⟩
      · rintro ⟨k, h⟩
        -- a nearest header other than line `i` would have line `i` after it
        rcases Nat.lt_succ_iff_lt_or_eq.mp h.before with hk | rfl
        · have := h.last i hk (Nat.lt_succ_self i)
          rw [hi] at this
          cases this
        · exact hi.symm.trans h.header
    | none =>
      rw [Option.none_or, ih]
      constructor
      · rintro ⟨k, h⟩
        exact ⟨k, h.succ hi⟩
      · rintro ⟨k, h⟩
        rcases Nat.lt_succ_iff_lt_or_eq.mp h.before with hk | rfl
        · exact ⟨k, hk, h.header, fun j hkj hj => h.last j hkj (Nat.lt_succ_of_lt hj)⟩
        · rw [h.header] at hi
          cases hi

theorem classBefore_eq_some_iff {line c : String} :
    lang.classBefore ls i line = some c ↔
      ∃ k s, lang.Nearest ls i k s ∧ s.indentation < Body.indentation line ∧ s.className = c := by
  unfold classBefore Scope.classAt
  rw [Option.bind_eq_some_iff]
  constructor
  · rintro ⟨s, hs, hc⟩
    obtain ⟨k, hk⟩ := scopeBefore_eq_some_iff.mp hs
    split at hc
    · next hlt =>
      cases hc
      exact ⟨k, s, hk, hlt, rfl⟩
    · cases hc
  · rintro ⟨k, s, hk, hlt, rfl⟩
    exact ⟨s, scopeBefore_eq_some_iff.mpr ⟨k, hk⟩, if_pos hlt⟩

end Language

/-! ### The lines that are read -/

/-- A language with what makes a line of it count: the marks that start a comment, and whether a
line must hold a colon. -/
structure Dialect where
  language : Language
  comments : List String
  needsColon : Bool

namespace Dialect

def python : Dialect := ⟨Python.language, ["#"], true⟩

def javaScript : Dialect := ⟨JavaScript.language, ["//", "/*", "*"], false⟩

def php : Dialect := ⟨Php.language, ["//", "#", "/*", "*"], false⟩

def all : List Dialect := [python, javaScript, php]

/-- A line counts: it is not blank, no comment, and has a colon where one is needed. -/
structure Reads (d : Dialect) (line : String) : Prop where
  not_blank : allBlank line.toList = false
  no_comment : ∀ m ∈ d.comments, ¬m.toList <+: strip line.toList
  colon : d.needsColon = true → ':' ∈ line.toList

variable {d : Dialect} {ls : List String} {line : String} {i : Nat}

theorem reads_iff (hd : d ∈ all) :
    d.language.passesOver (strip line.toList) = false ↔ d.Reads line := by
  have hblank : (strip line.toList).isEmpty = false ↔ allBlank line.toList = false := by
    rw [← Bool.not_eq_true, ← Bool.not_eq_true, List.isEmpty_iff, strip_eq_nil_iff]
  have hcolon : (strip line.toList).contains ':' = true ↔ ':' ∈ line.toList := by
    rw [List.contains_iff_mem, mem_strip_iff (by decide)]
  have hreads : d.Reads line ↔ allBlank line.toList = false ∧
      (∀ m ∈ d.comments, ¬m.toList <+: strip line.toList) ∧
      (d.needsColon = true → ':' ∈ line.toList) :=
    ⟨fun h => ⟨h.not_blank, h.no_comment, h.colon⟩, fun h => ⟨h.1, h.2.1, h.2.2⟩⟩
  have hstart (m : List Char) : startsWith (strip line.toList) m = false ↔
      ¬m <+: strip line.toList := by
    rw [startsWith, ← List.isPrefixOf_iff_prefix, Bool.not_eq_true]
  rw [hreads, ← hblank, ← hcolon]
  simp only [all, List.mem_cons, List.not_mem_nil, or_false] at hd
  rcases hd with rfl | rfl | rfl
  · simp [python, Python.language, hstart, and_assoc]
  · simp [javaScript, JavaScript.language, bracedLanguage, hstart]
  · simp [php, Php.language, bracedLanguage, hstart]

/-- Line `k` counts, is a class header, and names the class `c`. -/
def IsHeader (d : Dialect) (ls : List String) (k : Nat) (c : String) : Prop :=
  ∃ line, ls[k]? = some line ∧ d.Reads line ∧
    d.language.classHeader.name? (strip line.toList) = some c

/-- Of the class headers that count before line `i`, the nearest names the class `c`, and it is
indented less than line `i`. -/
def Within (d : Dialect) (ls : List String) (i : Nat) (c : String) : Prop :=
  ∃ k header line, k < i ∧ ls[k]? = some header ∧ ls[i]? = some line ∧ d.IsHeader ls k c ∧
    (∀ j, k < j → j < i → ∀ c', ¬d.IsHeader ls j c') ∧
    Body.indentation header < Body.indentation line

theorem header?_eq_some_iff (hd : d ∈ all) {s : Scope} :
    d.language.header? line = some s ↔
      d.Reads line ∧ d.language.classHeader.name? (strip line.toList) = some s.className ∧
        s.indentation = Body.indentation line := by
  unfold Language.header? Language.scopeAt?
  rw [← reads_iff hd]
  cases hpass : d.language.passesOver (strip line.toList) with
  | true => simp
  | false =>
    rw [if_neg Bool.false_ne_true, Option.map_eq_some_iff]
    constructor
    · rintro ⟨c, hc, rfl⟩
      exact ⟨rfl, hc, rfl⟩
    · rintro ⟨-, hc, hi⟩
      exact ⟨s.className, hc, by rw [← hi]⟩

theorem header?_eq_none_iff (hd : d ∈ all) {k : Nat} :
    ls[k]?.bind d.language.header? = none ↔ ∀ c, ¬d.IsHeader ls k c := by
  rw [Option.eq_none_iff_forall_ne_some]
  constructor
  · rintro h c ⟨line, hline, hread, hc⟩
    refine h ⟨c, Body.indentation line⟩ ?_
    rw [hline, Option.bind_some]
    exact (header?_eq_some_iff hd).mpr ⟨hread, hc, rfl⟩
  · intro h s hs
    obtain ⟨line, hline, hs⟩ := Option.bind_eq_some_iff.mp hs
    obtain ⟨hread, hc, -⟩ := (header?_eq_some_iff hd).mp hs
    exact h s.className ⟨line, hline, hread, hc⟩

theorem classBefore_eq_some_iff (hd : d ∈ all) (hline : ls[i]? = some line) {c : String} :
    d.language.classBefore ls i line = some c ↔ d.Within ls i c := by
  rw [Language.classBefore_eq_some_iff]
  constructor
  · rintro ⟨k, s, hk, hlt, rfl⟩
    obtain ⟨header, hheader, hs⟩ := Option.bind_eq_some_iff.mp hk.header
    obtain ⟨hread, hc, hi⟩ := (header?_eq_some_iff hd).mp hs
    exact ⟨k, header, line, hk.before, hheader, hline, ⟨header, hheader, hread, hc⟩,
      fun j hkj hj => (header?_eq_none_iff hd).mp (hk.last j hkj hj), hi ▸ hlt⟩
  · rintro ⟨k, header, line', hk, hheader, hline', ⟨header', hheader', hread, hc⟩, hlast, hlt⟩
    cases hline.symm.trans hline'
    cases hheader.symm.trans hheader'
    refine ⟨k, ⟨c, Body.indentation header⟩,
      ⟨hk, ?_, fun j hkj hj => (header?_eq_none_iff hd).mpr (hlast j hkj hj)⟩, hlt, rfl⟩
    rw [hheader, Option.bind_some]
    exact (header?_eq_some_iff hd).mpr ⟨hread, hc, rfl⟩

/-! ### The blocks of a content -/

variable {path content : String}

/-- What the blocks that start in a line are called is told by what the line starts. -/
theorem exists_heading_iff {lang : Language} {h : BlockKind × Option String × Option String} :
    (∃ b ∈ lang.blocks path content, b.span.first = i + 1 ∧ b.heading = h) ↔
      ∃ s, lang.siteAt? (lines content) i = some s ∧ (s.block path []).heading = h := by
  constructor
  · rintro ⟨b, hb, hi, hh⟩
    obtain ⟨s, hs, rfl⟩ := Language.mem_blocks_iff.mp hb
    exact ⟨s, Nat.succ.inj hi ▸ hs, hh⟩
  · rintro ⟨s, hs, hh⟩
    have hi := Language.line_of_siteAt? hs
    exact ⟨_, Language.mem_blocks_iff.mpr ⟨s, hi ▸ hs, rfl⟩, congrArg Nat.succ hi, hh⟩

/-- A block is a method of a class exactly if the class is that of the nearest header before it
that counts, and that header is indented less; it is a function otherwise.  Its line counts and is
no class header, no other block starts there, and what starts there depends on no later line. -/
theorem scope_follows_last_header (hd : d ∈ all) (path content : String) :
    (∀ b ∈ d.language.blocks path content,
      (∀ c, b.kind = .method ∧ b.className = some c ↔
        d.Within (lines content) (b.span.first - 1) c) ∧
      ((∀ c, ¬d.Within (lines content) (b.span.first - 1) c) →
        b.kind = .function ∧ b.className = none) ∧
      ∃ line, (lines content)[b.span.first - 1]? = some line ∧ d.Reads line ∧
        d.language.classHeader.name? (strip line.toList) = none) ∧
    ((d.language.blocks path content).map (·.span.first)).Nodup ∧
    ∀ content' i, (lines content).take (i + 1) = (lines content').take (i + 1) → ∀ heading,
      (∃ b ∈ d.language.blocks path content, b.span.first = i + 1 ∧ b.heading = heading) ↔
        ∃ b ∈ d.language.blocks path content', b.span.first = i + 1 ∧ b.heading = heading := by
  refine ⟨fun b hb => ?_, ?_, fun content' i htake heading => ?_⟩
  · obtain ⟨s, hs, rfl⟩ := Language.mem_blocks_iff.mp hb
    obtain ⟨line, decl, hline, hpass, hheader, -, hsite⟩ := Language.siteAt?_eq_some_iff.mp hs
    have hclass : s.className = d.language.classBefore (lines content) s.line line := by
      rw [hsite]
    have hwithin (c : String) : s.className = some c ↔ d.Within (lines content) s.line c := by
      rw [hclass]
      exact classBefore_eq_some_iff hd hline
    refine ⟨fun c => ?_, fun hnone => ?_, line, hline, (reads_iff hd).mp hpass, hheader⟩
    · rw [show (s.block path (lines content)).span.first - 1 = s.line from rfl, ← hwithin]
      constructor
      · exact fun h => h.2
      · intro h
        exact ⟨if_pos (h ▸ rfl), h⟩
    · have hfree : s.className = none :=
        Option.eq_none_iff_forall_ne_some.mpr fun c hc => hnone c ((hwithin c).mp hc)
      exact ⟨if_neg (by simp [hfree]), hfree⟩
  · rw [Language.blocks_eq, List.map_map]
    exact ((Language.pairwise_sites _ _).map _ fun _ _ h => Nat.ne_of_lt (Nat.succ_lt_succ h))
  · rw [exists_heading_iff, exists_heading_iff, Language.siteAt?_congr htake]

/-- A method, a function after the class, and the method in a text that ends with its header. -/
theorem scope_follows_last_header_sample :
    let text := "class C:\n    def f(self):\n        pass\ndef g():\n    pass\n"
    let cut := "class C:\n    def f(self):"
    python ∈ all ∧ (lines text).take 2 = (lines cut).take 2 ∧
      (∃ b ∈ Python.language.blocks "c.py" text, b.span.first = 2 ∧
        b.heading = (.method, some "C", some "f") ∧ python.Within (lines text) 1 "C") ∧
      (∃ b ∈ Python.language.blocks "c.py" text, b.span.first = 4 ∧
        b.heading = (.function, none, some "g") ∧ ∀ c, ¬python.Within (lines text) 3 c) ∧
      ∃ b ∈ Python.language.blocks "c.py" cut, b.span.first = 2 ∧
        b.heading = (.method, some "C", some "f") := by
  intro text cut
  have hpython : python ∈ all := List.mem_cons_self
  have htake : (lines text).take 2 = (lines cut).take 2 := by decide +kernel
  have hmethod : ∃ b ∈ Python.language.blocks "c.py" text, b.span.first = 2 ∧
      b.heading = (.method, some "C", some "f") := by decide +kernel
  have hfunction : ∃ b ∈ Python.language.blocks "c.py" text, b.span.first = 4 ∧
      b.heading = (.function, none, some "g") := by decide +kernel
  obtain ⟨hscope, -, hlater⟩ := scope_follows_last_header hpython "c.py" text
  refine ⟨hpython, htake, ?_, ?_, (hlater cut 1 htake _).mp hmethod⟩
  · obtain ⟨b, hb, hi, hh⟩ := hmethod
    have hwithin := ((hscope b hb).1 "C").mp ⟨congrArg (·.1) hh, congrArg (·.2.1) hh⟩
    exact ⟨b, hb, hi, hh, by rwa [hi] at hwithin⟩
  · obtain ⟨b, hb, hi, hh⟩ := hfunction
    refine ⟨b, hb, hi, hh, fun c hc => ?_⟩
    have hmember := ((hscope b hb).1 c).mpr (by rwa [hi])
    exact absurd (hmember.1.symm.trans (congrArg (·.1) hh)) (by decide)

end Dialect

end Extract

end BlockIndex
