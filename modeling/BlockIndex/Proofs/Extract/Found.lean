import BlockIndex.Proofs.Extract.Names
import BlockIndex.Proofs.Extract.Scope
import BlockIndex.Proofs.Header.Reads
import Mathlib.Data.List.DropRight

/-! Declarations that are found in JavaScript.  A header has one name in a line, however it is read
(`JavaScript.clear_of_mem_shapes`), so the first shape that a line has names the declaration that it
starts.  A line that starts with a star is taken for a comment, though, and a generator member that
it declares is lost (`JavaScript.found_unless_starred`). -/

namespace BlockIndex.Extract

open Text Header Header.Pattern

/-! ### The last word before a sign -/

/-- The signs that come next after a name and the blank characters behind it. -/
def signs : List Char := ['(', '<', ':', '=']

/-- The word that stands last before the first sign. -/
def lastWord (line : List Char) : List Char :=
  (stripRight (line.takeWhile fun c => !signs.contains c)).rtakeWhile isWord

variable {p : Pattern} {ps : List Pattern} {s r : Reading} {line : List Char}

theorem isWord_sign {c : Char} (hc : c ∈ signs) : isWord c = false :=
  have hsigns : signs.any isWord = false := by decide
  Bool.eq_false_iff.mpr (List.any_eq_false.mp hsigns c hc)

theorem isBlank_sign {c : Char} (hc : c ∈ signs) : isBlank c = false :=
  have hsigns : signs.any isBlank = false := by decide
  Bool.eq_false_iff.mpr (List.any_eq_false.mp hsigns c hc)

theorem lastWord_append {v w b t : List Char} {c : Char} (hv : ∀ d ∈ v, d ∉ signs)
    (hlast : ∀ d, v.getLast? = some d → isWord d = false) (hw : ∀ d ∈ w, isWord d = true)
    (hne : w ≠ []) (hb : ∀ d ∈ b, isBlank d = true) (hc : c ∈ signs) :
    lastWord (v ++ w ++ b ++ c :: t) = w := by
  have hunsigned : ∀ d ∈ v ++ w ++ b, (!signs.contains d) = true := by
    intro d hd
    have hsign : d ∉ signs := by
      rcases List.mem_append.mp hd with hd | hd
      · rcases List.mem_append.mp hd with hd | hd
        · exact hv d hd
        · exact fun hs => Bool.false_ne_true ((isWord_sign hs).symm.trans (hw d hd))
      · exact fun hs => Bool.false_ne_true ((isBlank_sign hs).symm.trans (hb d hd))
    simpa using hsign
  have hfront : (v ++ w ++ b ++ c :: t).takeWhile (fun c => !signs.contains c) = v ++ w ++ b :=
    (span_append hunsigned (by simp [hc])).1
  have hstrip : stripRight (v ++ w ++ b) = v ++ w := by
    have hend : ∀ d, (v ++ w).reverse.head? = some d → isBlank d = false := by
      intro d hd
      rw [List.head?_reverse, List.getLast?_append_of_ne_nil v hne] at hd
      have hword := hw d (List.mem_of_mem_getLast? hd)
      exact Bool.eq_false_iff.mpr fun hblank =>
        Bool.false_ne_true ((isWord_eq_false_of_isBlank hblank).symm.trans hword)
    rw [stripRight, List.reverse_append, (span_append (by simpa using hb) hend).2,
      List.reverse_reverse]
  have hword : (v ++ w).rtakeWhile isWord = w := by
    rw [List.rtakeWhile, List.reverse_append, (span_append (by simpa using hw) (by simpa)).1,
      List.reverse_reverse]
  rw [lastWord, hfront, hstrip, hword]

/-! ### One name however a line is read -/

/-- What the patterns read starts, after blank characters, with a sign. -/
def Signed (ps : List Pattern) : Prop :=
  ∀ s, ∀ r ∈ (sequence ps).readings s, ∃ b c t, s.rest = b ++ c :: t ∧
    (∀ d ∈ b, isBlank d = true) ∧ c ∈ signs

theorem signed_cons (hfilled : p.nullable = false) (h : ∀ c, p.firsts c = true → c ∈ signs) :
    Signed (p :: ps) := by
  intro s r hr
  obtain ⟨w, m, hw, hfits, -⟩ := @exists_of_mem_readings_append s r [p] ps hr
  obtain ⟨c, w, rfl⟩ := List.exists_cons_of_ne_nil (hfits.filled hfilled)
  exact ⟨[], c, w ++ m.rest, hw, by simp, h c (hfits.first c rfl)⟩

theorem Signed.cons (hps : Signed ps) (h : ∀ c, p.firsts c = true → c ∈ signs) :
    Signed (p :: ps) := by
  intro s r hr
  obtain ⟨w, m, hw, hfits, hr⟩ := @exists_of_mem_readings_append s r [p] ps hr
  cases w with
  | nil =>
    rw [hw]
    exact hps m r hr
  | cons c w => exact ⟨[], c, w ++ m.rest, hw, by simp, h c (hfits.first c rfl)⟩

theorem Signed.spaces_cons (hps : Signed ps) : Signed (spaces :: ps) := by
  intro s r hr
  obtain ⟨w, m, hw, hfits, hr⟩ := @exists_of_mem_readings_append s r [spaces] ps hr
  obtain ⟨b, c, t, hrest, hb, hc⟩ := hps m r hr
  refine ⟨w ++ b, c, t, by rw [hw, hrest, List.append_assoc], ?_, hc⟩
  exact List.forall_mem_append.mpr ⟨hfits.all, hb⟩

/-- An identifier between patterns that use no sign and patterns that start with one is the last
word before a sign. -/
theorem text_of_mem_readings (pre post : List Pattern)
    (hpre : signs.any (sequence pre).uses = false)
    (hlast : Apart (sequence pre).lasts) (hpost : Signed post)
    (hnameless : (sequence post).nameless = true)
    (h : r ∈ (sequence (pre ++ identifier :: post)).readings s) :
    ∃ n, r.name = some n ∧ n.text = lastWord s.rest := by
  obtain ⟨v, m, hv, hfv, h⟩ := exists_of_mem_readings_append h
  rw [readings_sequence_cons] at h
  obtain ⟨u, hu, hr⟩ := List.mem_flatMap.mp h
  obtain ⟨k, w, hk, hrest, rfl⟩ := mem_readings_named_iff.mp hu
  obtain ⟨w', hw', hfw⟩ := fits_of_mem_readings hk
  obtain rfl : w' = w := List.append_cancel_right (hw'.symm.trans hrest)
  obtain ⟨b, c, t, hafter, hb, hc⟩ := hpost _ r hr
  refine ⟨⟨w', k.rest⟩, name_of_mem_readings hnameless hr, ?_⟩
  change k.rest = b ++ c :: t at hafter
  have hline : s.rest = v ++ w' ++ b ++ c :: t := by
    rw [hv, hrest, hafter, List.append_assoc, List.append_assoc]
  rw [hline]
  refine (lastWord_append (fun d hd hsign => ?_) (fun d hd => hlast d (hfv.last d hd))
    (fun d hd => ?_) (hfw.filled rfl) hb hc).symm
  · exact List.any_eq_false.mp hpre d hsign (hfv.all d hd)
  · exact (Bool.or_self _).symm.trans (hfw.all d hd)

theorem clear_of_text (hsteady : p.steady = true) (hmarks : p.marksAlways = true)
    (text : List Char → List Char)
    (h : ∀ line, ∀ r ∈ p.readings ⟨none, line⟩, ∃ n, r.name = some n ∧ n.text = text line) :
    p.Clear where
  steady := hsteady
  marksAlways := hmarks
  unique line := by
    have hname {name : String} (hname : p.Marks line name) :
        name = String.ofList (text line) := by
      obtain ⟨r, n, hr, hn, rfl⟩ := hname
      obtain ⟨n', hn', htext⟩ := h line r ((mem_readings_iff hsteady).mpr hr)
      rw [Option.some.inj (hn.symm.trans hn'), htext]
    exact fun _ _ h h' => (hname h).trans (hname h').symm

namespace JavaScript

/-! ### The headers -/

theorem clear_variableHeader : variableHeader.Clear := by
  refine clear_of_text rfl rfl lastWord fun line r hr => ?_
  refine text_of_mem_readings [_, _, _] [_, _, _, _, _, _] rfl (apart_lasts_gap _ _)
    ((signed_cons rfl ?_).cons ?_).spaces_cons rfl hr
  · simp [char, firsts, signs]
  · simp [char, firsts, signs, annotation, Pattern.optional, Pattern.sequence, nullable]

theorem clear_propertyHeader : propertyHeader.Clear := by
  refine clear_of_text rfl rfl lastWord fun line r hr => ?_
  exact text_of_mem_readings [] [_, _, _, _, _] rfl (fun _ hc => by cases hc)
    (signed_cons rfl (by simp [char, firsts, signs])).spaces_cons rfl hr

theorem clear_memberHeader : memberHeader.Clear := by
  refine clear_of_text rfl rfl lastWord fun line r hr => ?_
  refine text_of_mem_readings [_, _] [_, _, _, _, _, _] rfl (apart_lasts_star _ _)
    ((signed_cons rfl ?_).spaces_cons.cons ?_).spaces_cons rfl hr
  · simp [char, firsts, signs, parameters, Pattern.sequence, nullable]
  · simp [char, firsts, signs, Pattern.optional, Pattern.sequence, nullable]

/-- What comes after the keyword `function`, whose `i` is the first in a function header. -/
def afterKeyword (line : List Char) : List Char := (line.dropWhile (· != 'i')).drop 3

/-- The words before the keyword of a function header are written without an `i`, so the keyword
stands in one place only. -/
theorem clear_functionHeader : functionHeader.Clear := by
  refine clear_of_text rfl rfl (fun line => lastWord (afterKeyword line)) fun line r hr => ?_
  obtain ⟨front, m, hline, hfits, hr⟩ :=
    exists_of_mem_readings_literal [_, _, _] "function" [_, _, _, _, _, _] hr
  have hafter : afterKeyword line = m.rest := by
    have hkeyword : line = (front ++ "funct".toList) ++ 'i' :: 'o' :: 'n' :: m.rest := by
      refine Eq.trans (b := front ++ "function".toList ++ m.rest) hline ?_
      rw [List.append_assoc, List.append_assoc]
      rfl
    have hfront : ∀ c ∈ front ++ "funct".toList, (c != 'i') = true := by
      refine List.forall_mem_append.mpr ⟨fun c hc => bne_iff_ne.mpr ?_, List.all_eq_true.mp rfl⟩
      rintro rfl
      exact Bool.false_ne_true (hfits.all 'i' hc)
    rw [afterKeyword, hkeyword, (span_append hfront (by simp)).2]
    rfl
  rw [hafter]
  exact text_of_mem_readings [_, _, _] [_, _] rfl apart_lasts_spaces
    (signed_cons rfl (by simp [char, firsts, signs])).spaces_cons rfl hr

theorem clear_of_mem_shapes : ∀ s ∈ shapes, s.pattern.Clear := by
  simp only [shapes, List.forall_mem_cons]
  exact ⟨clear_functionHeader, clear_variableHeader, clear_propertyHeader, clear_memberHeader,
    fun _ hs => by cases hs⟩

end JavaScript

/-! ### Shapes -/

/-- A line has a shape and a name that is no control word; a shape may count in a class only. -/
def Shape.Admits (s : Shape) (inClass : Bool) (line : List Char) (name : String) : Prop :=
  (s.inClassOnly = true → inClass = true) ∧ s.pattern.Marks line name ∧ name ∉ controlWords

/-- The first of some shapes that a line has. -/
def FirstAdmits (ss : List Shape) (inClass : Bool) (line : List Char) (s : Shape)
    (name : String) : Prop :=
  ∃ before after, ss = before ++ s :: after ∧ s.Admits inClass line name ∧
    ∀ t ∈ before, ∀ name', ¬t.Admits inClass line name'

variable {ss : List Shape} {shape : Shape} {inClass : Bool} {name : String}

theorem admits_iff (h : shape.pattern.Clear) :
    shape.Admits inClass line name ↔
      shape.declaration? inClass line = some ⟨name, shape.bodyRule line⟩ := by
  rw [Shape.Admits, ← h.name?_eq_some_iff, Shape.declaration?]
  cases hscope : shape.inClassOnly && !inClass with
  | true => simp_all
  | false =>
    have hcounts : shape.inClassOnly = true → inClass = true := by
      simpa using hscope
    rw [and_iff_right hcounts, if_neg Bool.false_ne_true, Option.map_eq_some_iff]
    simp [Shape.name?, Option.filter_eq_some_iff]

theorem declaration?_eq_none_iff (h : shape.pattern.Clear) :
    shape.declaration? inClass line = none ↔ ∀ name, ¬shape.Admits inClass line name := by
  rw [Option.eq_none_iff_forall_ne_some]
  constructor
  · exact fun hnone name hadmits => hnone _ ((admits_iff h).mp hadmits)
  · intro hnone d hd
    have heq : d = ⟨d.name, shape.bodyRule line⟩ := by
      unfold Shape.declaration? at hd
      split at hd
      · cases hd
      · obtain ⟨name, -, rfl⟩ := Option.map_eq_some_iff.mp hd
        rfl
    exact hnone d.name ((admits_iff h).mpr (hd.trans (congrArg some heq)))

/-- The first shape that a line has is the one by which it starts a declaration. -/
theorem findSome?_of_firstAdmits (hclear : ∀ s ∈ ss, s.pattern.Clear)
    (h : FirstAdmits ss inClass line shape name) :
    ss.findSome? (fun s => s.declaration? inClass line) =
      some ⟨name, shape.bodyRule line⟩ := by
  obtain ⟨before, after, rfl, hadmits, hnone⟩ := h
  refine List.findSome?_eq_some_iff.mpr ⟨before, shape, after, rfl, ?_, fun t ht => ?_⟩
  · exact (admits_iff (hclear shape (by simp))).mp hadmits
  · exact (declaration?_eq_none_iff (hclear t (by simp [ht]))).mpr (hnone t ht)

namespace JavaScript

/-! ### The lines that start a declaration -/

/-- The first character of a line with a shape: it starts no comment, but it may be the star of a
generator member. -/
theorem exists_head_of_marks (hs : shape ∈ shapes) (h : shape.pattern.Marks line name) :
    ∃ c, line.head? = some c ∧ c ≠ '/' ∧ (c = '*' → shape.inClassOnly = true) := by
  have hfilled : shapes.any (fun s => s.pattern.nullable) = false := rfl
  have hslash : shapes.any (fun s => s.pattern.firsts '/') = false := rfl
  have hstar : shapes.all (fun s => !s.pattern.firsts '*' || s.inClassOnly) = true := rfl
  obtain ⟨c, hc, hfirst⟩ :=
    exists_first_of_marks (clear_of_mem_shapes shape hs).steady
      (Bool.eq_false_iff.mpr (List.any_eq_false.mp hfilled shape hs)) h
  refine ⟨c, hc, ?_, ?_⟩
  · rintro rfl
    exact List.any_eq_false.mp hslash shape hs hfirst
  · rintro rfl
    simpa [hfirst] using List.all_eq_true.mp hstar shape hs

/-- A line with a shape is passed over only if it starts with a star. -/
theorem passesOver_of_marks (hs : shape ∈ shapes) (h : shape.pattern.Marks line name) :
    language.passesOver line = decide (line.head? = some '*') := by
  obtain ⟨c, hc, hslash, -⟩ := exists_head_of_marks hs h
  obtain ⟨rest, rfl⟩ := List.head?_eq_some_iff.mp hc
  have hother : ('/' == c) = false := beq_eq_false_iff_ne.mpr (Ne.symm hslash)
  simp [language, bracedLanguage, startsWith, List.isPrefixOf, hother, Bool.beq_eq_decide_eq,
    eq_comm]

theorem classHeader_name?_eq_none_iff :
    classHeader.name? line = none ↔ ∀ c, ¬classHeader.Marks line c :=
  name?_eq_none_iff rfl rfl

theorem declaration?_eq (inClass : Bool) (line : List Char) :
    language.declaration? inClass line =
      shapes.findSome? fun s => s.declaration? inClass line := by
  simp only [language, bracedLanguage]

variable {content l : String} {i : Nat}

/-- What a line with a shape starts. -/
theorem name_of_siteAt? (hline : (lines content)[i]? = some l)
    (hheader : classHeader.name? (strip l.toList) = none)
    (hclass : (language.classBefore (lines content) i l).isSome = inClass)
    (hfirst : FirstAdmits shapes inClass (strip l.toList) shape name) :
    (language.siteAt? (lines content) i).map (·.declaration.name) =
      if (strip l.toList).head? = some '*' then none else some name := by
  have hdeclared := findSome?_of_firstAdmits clear_of_mem_shapes hfirst
  rw [← declaration?_eq, ← hclass] at hdeclared
  obtain ⟨before, after, hshapes, ⟨-, hmarks, -⟩, -⟩ := hfirst
  have hpass := passesOver_of_marks (by simp [hshapes]) hmarks
  split
  · next hstarred =>
    have hnosite : language.siteAt? (lines content) i = none := by
      refine Option.eq_none_iff_forall_ne_some.mpr fun site hsite => ?_
      obtain ⟨l', -, hline', hread, -⟩ := Language.siteAt?_eq_some_iff.mp hsite
      obtain rfl : l = l' := Option.some.inj (hline.symm.trans hline')
      exact Bool.false_ne_true (hread.symm.trans (hpass.trans (decide_eq_true hstarred)))
    rw [hnosite, Option.map_none]
  · next hstarred =>
    have hsite := Language.siteAt?_eq_some_iff.mpr ⟨l, _, hline,
      hpass.trans (decide_eq_false hstarred), hheader, hdeclared, rfl⟩
    rw [hsite, Option.map_some]

/-- A line that has one of the shapes and is no class header starts just one block, with the name
that the first of its shapes marks.  Only if it starts with a star it starts none; then it declares
a generator member. -/
theorem found_unless_starred (path : String) (hline : (lines content)[i]? = some l)
    (hheader : ∀ c, ¬classHeader.Marks (strip l.toList) c)
    (hclass : inClass = true ↔ ∃ c, Dialect.javaScript.Within (lines content) i c)
    (hfirst : FirstAdmits shapes inClass (strip l.toList) shape name) :
    (∃ bs, extractor.extract path content = .ok bs ∧
      (bs.filter fun b => b.span.first = i + 1).map (·.name) =
        if (strip l.toList).head? = some '*' then [] else [some name]) ∧
      ((strip l.toList).head? = some '*' → shape.inClassOnly = true) := by
  have hjavaScript : Dialect.javaScript ∈ Dialect.all := by simp [Dialect.all]
  have hscope : (language.classBefore (lines content) i l).isSome = inClass := by
    rw [Bool.eq_iff_iff, hclass, Option.isSome_iff_exists]
    exact exists_congr fun c => Dialect.classBefore_eq_some_iff hjavaScript hline
  have hname := name_of_siteAt? hline (classHeader_name?_eq_none_iff.mpr hheader) hscope hfirst
  refine ⟨⟨language.blocks path content, rfl, ?_⟩, fun hstarred => ?_⟩
  · have hnames : ((language.blocks path content).filter fun b => b.span.first = i + 1).map
        (·.name) = ((language.siteAt? (lines content) i).map (·.declaration.name)).toList.map
          some := by
      rw [Language.blocks_filter]
      cases language.siteAt? (lines content) i <;> rfl
    rw [hnames, hname]
    split <;> rfl
  · obtain ⟨before, after, hshapes, ⟨-, hmarks, -⟩, -⟩ := hfirst
    obtain ⟨c, hc, -, hstar⟩ := exists_head_of_marks (by simp [hshapes]) hmarks
    exact hstar (Option.some.inj (hc.symm.trans hstarred))

/-- A member is declared where no other shape has a name. -/
theorem firstAdmits_member (hothers : ∀ t ∈ shapes.take 3, t.pattern.name? line = none)
    (hname : memberHeader.name? line = some name) (hword : name ∉ controlWords) :
    FirstAdmits shapes true line { pattern := memberHeader, inClassOnly := true } name := by
  refine ⟨shapes.take 3, [], rfl,
    ⟨fun _ => rfl, clear_memberHeader.name?_eq_some_iff.mp hname, hword⟩,
    fun t ht name' hadmits => ?_⟩
  have hclear := clear_of_mem_shapes t (List.mem_of_mem_take ht)
  cases (hothers t ht).symm.trans (hclear.name?_eq_some_iff.mpr hadmits.2.1)

/-- A generator member with a word before its star is found. -/
theorem found_unless_starred_sample :
    let text := "class C \x7b\n  async *gen() \x7b\n  \x7d\n\x7d\n"
    ∃ bs, extractor.extract "a.js" text = .ok bs ∧
      (bs.filter fun b => b.span.first = 2).map (·.name) = [some "gen"] := by
  intro text
  have hline : (lines text)[1]? = some "  async *gen() \x7b" := by decide +kernel
  have hheader : classHeader.name? (strip "  async *gen() \x7b".toList) = none := by
    decide +kernel
  have hclass : language.classBefore (lines text) 1 "  async *gen() \x7b" = some "C" := by
    decide +kernel
  have hwithin := (Dialect.classBefore_eq_some_iff (d := Dialect.javaScript)
    (by simp [Dialect.all]) hline).mp hclass
  have hfirst : FirstAdmits shapes true (strip "  async *gen() \x7b".toList)
      { pattern := memberHeader, inClassOnly := true } "gen" :=
    firstAdmits_member (by decide +kernel) (by decide +kernel) (by decide)
  obtain ⟨⟨bs, hbs, hnames⟩, -⟩ := found_unless_starred "a.js" hline
    (classHeader_name?_eq_none_iff.mp hheader) (iff_of_true rfl ⟨"C", hwithin⟩) hfirst
  refine ⟨bs, hbs, hnames.trans (if_neg ?_)⟩
  decide +kernel

/-- A generator member is lost, though its line has the shape of a member, stands in a class, is no
class header and starts no comment. -/
theorem generator_lost :
    let text := "class C \x7b\n  *gen() \x7b\n  \x7d\n\x7d\n"
    let line := "  *gen() \x7b"
    (¬"/*".toList <:+: text.toList ∧ (lines text)[1]? = some line ∧
      allBlank line.toList = false ∧ ¬"//".toList <+: strip line.toList ∧
      (∀ c, ¬classHeader.Marks (strip line.toList) c) ∧
      Dialect.javaScript.Within (lines text) 1 "C" ∧
      FirstAdmits shapes true (strip line.toList)
        { pattern := memberHeader, inClassOnly := true } "gen") ∧
      extractor.extract "a.js" text = .ok [] := by
  intro text line
  have hline : (lines text)[1]? = some line := by decide +kernel
  have hheader : classHeader.name? (strip line.toList) = none := by decide +kernel
  have hclass : language.classBefore (lines text) 1 line = some "C" := by decide +kernel
  have hblocks : language.blocks "a.js" text = [] := by
    refine List.isEmpty_iff.mp ?_
    decide +kernel
  refine ⟨⟨by decide +kernel, hline, by decide +kernel, by decide +kernel,
    classHeader_name?_eq_none_iff.mp hheader, ?_, ?_⟩, congrArg Except.ok hblocks⟩
  · exact (Dialect.classBefore_eq_some_iff (by simp [Dialect.all]) hline).mp hclass
  · exact firstAdmits_member (by decide +kernel) (by decide +kernel) (by decide)

end JavaScript

end BlockIndex.Extract
