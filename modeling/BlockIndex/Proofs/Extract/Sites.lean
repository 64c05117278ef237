import BlockIndex.Extract.Scoped
import BlockIndex.Proofs.Block.Body

/-! Languages that are read line by line.  What a line starts depends on the line and on the class
header read last before it, on nothing else; the blocks of a content are those of its lines in turn
(`Language.blocks_eq`).  No declaration is left out: the lines of its body are always in order. -/

namespace BlockIndex.Extract

open Text

/-- A declaration with the line that starts it and the class it belongs to. -/
structure Site where
  line : Nat
  className : Option String
  declaration : Declaration

namespace Site

/-- The last line of the body of a declaration. -/
def last (s : Site) (ls : List String) : Nat := s.declaration.body.finish ls s.line

theorem line_le_last (s : Site) (ls : List String) : s.line ≤ s.last ls :=
  Body.Rule.le_finish _ ls s.line

/-- The block of a declaration. -/
def block (path : String) (ls : List String) (s : Site) : Block where
  path := path
  kind := if s.className.isSome then .method else .function
  span := ⟨s.line + 1, s.last ls + 1, Nat.succ_pos _, Nat.succ_le_succ (s.line_le_last ls)⟩
  text := Body.slice ls s.line (s.last ls)
  className := s.className
  name := some s.declaration.name

end Site

namespace Language

variable {lang : Language} {path : String} {ls : List String} {i : Nat}

/-- The class header that a line is, if it is one and is read. -/
def header? (lang : Language) (line : String) : Option Scope :=
  if lang.passesOver (strip line.toList) then none else lang.scopeAt? line

/-- The class header read last before line `i`. -/
def scopeBefore (lang : Language) (ls : List String) (i : Nat) : Option Scope :=
  ((ls.take i).filterMap lang.header?).getLast?

/-- The class that a line at `i` belongs to. -/
def classBefore (lang : Language) (ls : List String) (i : Nat) (line : String) : Option String :=
  Scope.classAt (lang.scopeBefore ls i) (Body.indentation line)

/-- The declaration that line `i` starts, if it starts one. -/
def siteAt? (lang : Language) (ls : List String) (i : Nat) : Option Site :=
  ls[i]?.bind fun line =>
    if lang.passesOver (strip line.toList) || (lang.scopeAt? line).isSome then none
    else
      (lang.declaration? (lang.classBefore ls i line).isSome (strip line.toList)).map fun d =>
        ⟨i, lang.classBefore ls i line, d⟩

/-- The declarations of the lines, in turn. -/
def sites (lang : Language) (ls : List String) : List Site :=
  (List.range' 0 ls.length).filterMap (lang.siteAt? ls)

theorem scopeBefore_succ {line : String} (h : ls[i]? = some line) :
    lang.scopeBefore ls (i + 1) = (lang.header? line).or (lang.scopeBefore ls i) := by
  unfold scopeBefore
  rw [List.take_add_one, h, List.filterMap_append, List.getLast?_append]
  cases hl : lang.header? line <;> simp [hl]

/-- A declaration always makes a block: no range of lines is out of order. -/
theorem blockAt?_eq (scope : Option Scope) (line : String) :
    lang.blockAt? path ls scope i line =
      (lang.declaration? (Scope.classAt scope (Body.indentation line)).isSome
        (strip line.toList)).map fun d =>
          Site.block path ls ⟨i, Scope.classAt scope (Body.indentation line), d⟩ := by
  have hmake (d : Declaration) : Span.make? ((i : Int) + 1) ((d.body.finish ls i : Int) + 1) =
      some ⟨i + 1, d.body.finish ls i + 1, Nat.succ_pos _,
        Nat.succ_le_succ (Body.Rule.le_finish d.body ls i)⟩ :=
    Span.make?_eq_some _ _
  simp only [blockAt?, hmake, Option.map_eq_bind, Option.bind_some]
  rfl

/-- A line adds the block of the declaration that it starts. -/
theorem blocksFrom_cons {line : String} (h : ls[i]? = some line) (rest : List String) :
    lang.blocksFrom path ls (lang.scopeBefore ls i) i (line :: rest) =
      ((lang.siteAt? ls i).map (Site.block path ls)).toList ++
        lang.blocksFrom path ls (lang.scopeBefore ls (i + 1)) (i + 1) rest := by
  rw [blocksFrom, scopeBefore_succ h]
  by_cases hpass : lang.passesOver (strip line.toList) = true
  · simp [siteAt?, h, header?, hpass]
  · cases hscope : lang.scopeAt? line with
    | some s => simp [siteAt?, h, header?, hpass, hscope]
    | none =>
      simp only [siteAt?, h, header?, hpass, hscope, blockAt?_eq, classBefore, Option.bind_some,
        Option.isSome_none, Bool.or_false, Bool.false_eq_true, if_false, Option.none_or,
        Option.map_map]
      rfl

theorem blocksFrom_drop (n : Nat) (h : i + n = ls.length) :
    lang.blocksFrom path ls (lang.scopeBefore ls i) i (ls.drop i) =
      ((List.range' i n).filterMap (lang.siteAt? ls)).map (Site.block path ls) := by
  induction n generalizing i with
  | zero =>
    rw [List.drop_of_length_le (by omega)]
    rfl
  | succ n ih =>
    have hi : i < ls.length := by omega
    rw [List.drop_eq_getElem_cons hi, blocksFrom_cons (List.getElem?_eq_getElem hi),
      ih (by omega), List.range'_succ, List.filterMap_cons]
    cases lang.siteAt? ls i <;> rfl

/-- The blocks of a content are those of the declarations that its lines start. -/
theorem blocks_eq (lang : Language) (path content : String) :
    lang.blocks path content =
      (lang.sites (lines content)).map (Site.block path (lines content)) :=
  blocksFrom_drop (i := 0) (lines content).length (Nat.zero_add _)

/-! ### The declaration that a line starts -/

variable {s : Site}

/-- A line starts a declaration if it is read, is no class header, and has the shape of one. -/
theorem siteAt?_eq_some_iff :
    lang.siteAt? ls i = some s ↔
      ∃ line d, ls[i]? = some line ∧ lang.passesOver (strip line.toList) = false ∧
        lang.classHeader.name? (strip line.toList) = none ∧
        lang.declaration? (lang.classBefore ls i line).isSome (strip line.toList) = some d ∧
        s = ⟨i, lang.classBefore ls i line, d⟩ := by
  unfold siteAt?
  cases hline : ls[i]? with
  | none => simp
  | some line =>
    simp only [Option.bind_some, scopeAt?, Option.isSome_map, Option.some.injEq, exists_and_left,
      exists_eq_left']
    by_cases hpass : lang.passesOver (strip line.toList) = true
    · simp [hpass]
    · cases hname : lang.classHeader.name? (strip line.toList) with
      | some c => simp
      | none =>
        simp only [hpass, Option.isSome_none, Bool.or_false, Bool.false_eq_true, if_false,
          Option.map_eq_some_iff, @eq_comm _ _ s, true_and]

theorem line_of_siteAt? (h : lang.siteAt? ls i = some s) : s.line = i := by
  obtain ⟨_, _, -, -, -, -, rfl⟩ := siteAt?_eq_some_iff.mp h
  rfl

theorem lt_length_of_siteAt? (h : lang.siteAt? ls i = some s) : i < ls.length := by
  obtain ⟨_, _, hline, -⟩ := siteAt?_eq_some_iff.mp h
  exact (List.getElem?_eq_some_iff.mp hline).choose

theorem mem_sites_iff : s ∈ lang.sites ls ↔ lang.siteAt? ls s.line = some s := by
  unfold sites
  simp only [List.mem_filterMap, List.mem_range'_1, Nat.zero_le, Nat.zero_add, true_and]
  constructor
  · rintro ⟨i, -, hs⟩
    rwa [line_of_siteAt? hs]
  · exact fun hs => ⟨s.line, lt_length_of_siteAt? hs, hs⟩

theorem line_lt_of_mem_sites (h : s ∈ lang.sites ls) : s.line < ls.length :=
  lt_length_of_siteAt? (mem_sites_iff.mp h)

theorem mem_blocks_iff {content : String} {b : Block} :
    b ∈ lang.blocks path content ↔
      ∃ s, lang.siteAt? (lines content) s.line = some s ∧ s.block path (lines content) = b := by
  rw [blocks_eq, List.mem_map]
  simp only [mem_sites_iff]

/-- Each line starts at most one declaration, and they come in the order of the lines. -/
theorem pairwise_sites (lang : Language) (ls : List String) :
    (lang.sites ls).Pairwise (·.line < ·.line) := by
  refine List.Pairwise.filterMap _ (fun i j hij s hs t ht => ?_) List.pairwise_lt_range'
  rwa [line_of_siteAt? hs, line_of_siteAt? ht]

/-- The declarations that start in one line: the one that the line starts, if it starts one. -/
theorem sites_filter (lang : Language) (ls : List String) (i : Nat) :
    (lang.sites ls).filter (fun s => s.line = i) = (lang.siteAt? ls i).toList := by
  have hmem : ∀ s, s ∈ (lang.sites ls).filter (fun s => s.line = i) ↔
      lang.siteAt? ls i = some s := by
    intro s
    rw [List.mem_filter, mem_sites_iff, decide_eq_true_iff]
    constructor
    · rintro ⟨hs, rfl⟩
      exact hs
    · intro hs
      obtain rfl := line_of_siteAt? hs
      exact ⟨hs, rfl⟩
  cases hsite : lang.siteAt? ls i with
  | none =>
    refine List.eq_nil_iff_forall_not_mem.mpr fun s hs => ?_
    cases hsite.symm.trans ((hmem s).mp hs)
  | some s =>
    have hsame : ∀ t ∈ (lang.sites ls).filter (fun s => s.line = i), t = s := fun t ht =>
      Option.some.inj (((hmem t).mp ht).symm.trans hsite)
    have hne : ∀ {s t : Site}, s.line < t.line → s ≠ t := by
      rintro s _ hlt rfl
      exact Nat.lt_irrefl _ hlt
    have hnodup : ((lang.sites ls).filter (fun s => s.line = i)).Nodup :=
      ((pairwise_sites lang ls).imp hne).filter _
    have hrepeat := List.eq_replicate_of_mem hsame
    have hpos := List.length_pos_of_mem ((hmem s).mpr hsite)
    rw [hrepeat, List.nodup_replicate] at hnodup
    rw [hrepeat, Nat.le_antisymm hnodup hpos]
    rfl

/-- The blocks that start in one line: that of the declaration that the line starts, if it starts
one. -/
theorem blocks_filter (lang : Language) (path content : String) (i : Nat) :
    (lang.blocks path content).filter (fun b => b.span.first = i + 1) =
      ((lang.siteAt? (lines content) i).map (Site.block path (lines content))).toList := by
  have hfirst : ((fun b : Block => decide (b.span.first = i + 1)) ∘
      Site.block path (lines content)) = fun s => decide (s.line = i) :=
    funext fun s => decide_eq_decide.mpr Nat.succ_inj
  rw [blocks_eq, List.filter_map, hfirst, sites_filter]
  cases lang.siteAt? (lines content) i <;> rfl

/-- What a line starts depends on no later line. -/
theorem siteAt?_congr {ls' : List String} (h : ls.take (i + 1) = ls'.take (i + 1)) :
    lang.siteAt? ls i = lang.siteAt? ls' i := by
  have hline : ls[i]? = ls'[i]? := by
    rw [← List.getElem?_take_of_lt (Nat.lt_succ_self i), h,
      List.getElem?_take_of_lt (Nat.lt_succ_self i)]
  have hbefore : ls.take i = ls'.take i := by
    have := congrArg (List.take i) h
    simpa only [List.take_take, Nat.min_eq_left (Nat.le_succ i)] using this
  simp only [siteAt?, classBefore, scopeBefore, hline, hbefore]

end Language

end BlockIndex.Extract
