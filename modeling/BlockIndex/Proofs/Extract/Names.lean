import BlockIndex.Extract.JavaScript
import BlockIndex.Extract.Php
import BlockIndex.Extract.Python
import BlockIndex.Proofs.Extract.Sites
import BlockIndex.Proofs.Header.Edges
import BlockIndex.Proofs.Text.Blank

/-! The names of blocks.  The name of a block stands in its first line where the header of the
declaration marks it, and no word character follows it there.  None comes before it either, but for
one case: a function header of JavaScript lets the keyword `function` and the name touch, and so
takes a name out of the middle of a word (`Grammar.whole_unless_keyword`). -/

namespace BlockIndex.Extract

open Text Header Header.Pattern

/-- A name in a line, with what comes before it and after it. -/
structure Place where
  before : List Char
  name : List Char
  after : List Char
  deriving DecidableEq

namespace Place

variable {p : Place}

def line (p : Place) : List Char := p.before ++ p.name ++ p.after

/-- The name is made of word characters, and no word character follows it. -/
structure Ends (p : Place) : Prop where
  filled : p.name ≠ []
  word : ∀ c ∈ p.name, isWord c = true
  after : ∀ c, p.after.head? = some c → isWord c = false

/-- The name is a whole identifier: no word character comes right before it either. -/
structure Whole (p : Place) : Prop extends Ends p where
  before : ∀ c, p.before.getLast? = some c → isWord c = false

/-- Whether the keyword `function` stands right before the name. -/
def touchesKeyword (p : Place) : Bool := endsWith p.before "function".toList

theorem Whole.touchesKeyword_eq_false (h : p.Whole) : p.touchesKeyword = false := by
  refine Bool.eq_false_iff.mpr fun htouches => ?_
  obtain ⟨front, hfront⟩ := List.isSuffixOf_iff_suffix.mp htouches
  have hlast : p.before.getLast? = some 'n' := by
    rw [← hfront, List.getLast?_append]
    rfl
  exact absurd (h.before 'n' hlast) (by decide)

/-- The place in the line with more characters around it. -/
def widen (p : Place) (front back : List Char) : Place :=
  ⟨front ++ p.before, p.name, p.after ++ back⟩

theorem line_widen (front back : List Char) :
    (p.widen front back).line = front ++ p.line ++ back := by
  simp only [widen, line, List.append_assoc]

variable {front back : List Char}

theorem Ends.widen (h : p.Ends) (hback : ∀ c ∈ back, isBlank c = true) :
    (p.widen front back).Ends where
  filled := h.filled
  word := h.word
  after c hc := by
    change (p.after ++ back).head? = some c at hc
    rw [List.head?_append] at hc
    cases hafter : p.after.head? with
    | some d =>
      rw [hafter] at hc
      exact h.after c (hafter.trans hc)
    | none =>
      rw [hafter, Option.none_or] at hc
      exact isWord_eq_false_of_isBlank (hback c (List.mem_of_mem_head? hc))

theorem Whole.widen (h : p.Whole) (hfront : ∀ c ∈ front, isBlank c = true)
    (hback : ∀ c ∈ back, isBlank c = true) : (p.widen front back).Whole where
  toEnds := h.toEnds.widen hback
  before c hc := by
    change (front ++ p.before).getLast? = some c at hc
    rw [List.getLast?_append] at hc
    cases hbefore : p.before.getLast? with
    | some d =>
      rw [hbefore] at hc
      exact h.before c (hbefore.trans hc)
    | none =>
      rw [hbefore, Option.none_or] at hc
      exact isWord_eq_false_of_isBlank (hfront c (List.mem_of_mem_getLast? hc))

theorem touchesKeyword_widen (h : p.touchesKeyword = true) :
    (p.widen front back).touchesKeyword = true :=
  List.isSuffixOf_iff_suffix.mpr
    ((List.isSuffixOf_iff_suffix.mp h).trans (List.suffix_append front p.before))

end Place

/-! ### The places that headers mark -/

/-- The place of a name in the line in which it was read. -/
def placeOf (line : List Char) (n : Named) : Place :=
  ⟨line.take (line.length - (n.text ++ n.after).length), n.text, n.after⟩

/-- The place of the name that a pattern marks in a line, where the pattern sees the line without
the blank characters around it. -/
def placeIn? (p : Pattern) (line : List Char) : Option Place :=
  (p.named? (strip line)).map fun n =>
    (placeOf (strip line) n).widen (leading line) (trailing line)

/-- What a pattern marks is a name that ends where it should; it is a whole identifier unless it
touches the keyword before it. -/
def EndsNames (p : Pattern) : Prop :=
  ∀ line n, p.named? line = some n → (placeOf line n).line = line ∧ (placeOf line n).Ends ∧
    ((placeOf line n).touchesKeyword = false → (placeOf line n).Whole)

/-- What a pattern marks is a whole identifier. -/
def WholeNames (p : Pattern) : Prop :=
  ∀ line n, p.named? line = some n → (placeOf line n).line = line ∧ (placeOf line n).Whole

/-- No character of a class is a word character. -/
def Apart (f : Char → Bool) : Prop := ∀ c, f c = true → isWord c = false

/-- Patterns that delimit a name before them: they read something, and it does not start with a
word character. -/
structure Delimits (post : List Pattern) : Prop where
  nameless : (sequence post).nameless = true
  filled : (sequence post).nullable = false
  apart : Apart (sequence post).firsts

variable {p : Pattern} {pre post : List Pattern} {line : List Char} {n : Named}

theorem WholeNames.endsNames (h : WholeNames p) : EndsNames p := fun line n hn =>
  ⟨(h line n hn).1, (h line n hn).2.toEnds, fun _ => (h line n hn).2⟩

theorem placeOf_append (front : List Char) (n : Named) :
    placeOf (front ++ (n.text ++ n.after)) n = ⟨front, n.text, n.after⟩ := by
  rw [placeOf, List.length_append, Nat.add_sub_cancel, List.take_left]

/-- An identifier that is marked between other patterns stands in the line, and the characters
before it fit the patterns before it. -/
theorem placeOf_of_stands (h : Stands pre anyWord post line n)
    (hafter : ∀ c, n.after.head? = some c → isWord c = false) :
    (placeOf line n).line = line ∧ (placeOf line n).Ends ∧
      (sequence pre).Fits (placeOf line n).before := by
  obtain ⟨m, hm, hrest⟩ := h.before
  obtain ⟨front, hfront, hfits⟩ := fits_of_mem_readings hm
  change line = front ++ m.rest at hfront
  rw [hfront, hrest, placeOf_append]
  refine ⟨List.append_assoc _ _ _, ⟨h.text.filled rfl, fun c hc => ?_, hafter⟩, hfits⟩
  exact (Bool.or_self _).symm.trans (h.text.all c hc)

theorem Delimits.after (hpost : Delimits post) (h : Stands pre anyWord post line n) (c : Char)
    (hc : n.after.head? = some c) : isWord c = false := by
  obtain ⟨w, ⟨rest, hw⟩, hfits⟩ := h.after
  obtain ⟨d, w, rfl⟩ := List.exists_cons_of_ne_nil (hfits.filled hpost.filled)
  rw [← hw] at hc
  exact hpost.apart c (hfits.first c hc)

/-- An identifier between patterns that end and start with other characters is whole. -/
theorem wholeNames_sequence (pre post : List Pattern) (hpre : Apart (sequence pre).lasts)
    (hpost : Delimits post) : WholeNames (sequence (pre ++ identifier :: post)) :=
  fun line n hn => by
    have hstands := stands_of_named? hpost.nameless hn
    obtain ⟨hline, hends, hfits⟩ := placeOf_of_stands hstands (hpost.after hstands)
    exact ⟨hline, hends, fun c hc => hpre c (hfits.last c hc)⟩

/-- An identifier that is read last is as long as it can be, and so is whole too. -/
theorem wholeNames_concat (pre : List Pattern) (hpre : Apart (sequence pre).lasts) :
    WholeNames (sequence (pre ++ [identifier])) := fun line n hn => by
  obtain ⟨hline, hends, hfits⟩ :=
    placeOf_of_stands (stands_of_named? rfl hn) (fun _ hc => longest_of_named? hn hc)
  exact ⟨hline, hends, fun c hc => hpre c (hfits.last c hc)⟩

/-! ### The headers -/

/-- Neither a blank character nor one of some signs is a word character. -/
theorem apart_of_signs {f : Char → Bool} (signs : List Char)
    (hsigns : signs.any isWord = false)
    (h : ∀ c, f c = true → isBlank c = true ∨ c ∈ signs) : Apart f := fun c hc =>
  (h c hc).elim isWord_eq_false_of_isBlank fun hmem =>
    Bool.eq_false_iff.mpr (List.any_eq_false.mp hsigns c hmem)

theorem Python.wholeNames_functionHeader : WholeNames functionHeader :=
  wholeNames_concat [_, _, _] <| apart_of_signs [] (by decide) fun c hc => by
    simpa [Pattern.sequence, lasts, nullable, gap, several] using hc

namespace Php

theorem wholeNames_functionHeader : WholeNames functionHeader := by
  refine wholeNames_sequence [_, _, _, _, _] [_, _] ?_ ⟨rfl, rfl, ?_⟩
  · refine apart_of_signs ['&'] (by decide) fun c hc => ?_
    simpa [Pattern.sequence, lasts, nullable, spaces, Extract.gap, several, char, Pattern.optional,
      or_comm, or_left_comm] using hc
  · refine apart_of_signs ['('] (by decide) fun c hc => ?_
    simpa [Pattern.sequence, firsts, nullable, spaces, char] using hc

theorem wholeNames_variableHeader : WholeNames variableHeader := by
  refine wholeNames_sequence [_] [_, _, _, _, _, _] ?_ ⟨rfl, rfl, ?_⟩
  · refine apart_of_signs ['$'] (by decide) fun c hc => .inr ?_
    simpa [Pattern.sequence, lasts, char] using hc
  · refine apart_of_signs ['='] (by decide) fun c hc => ?_
    simpa [Pattern.sequence, firsts, nullable, spaces, char] using hc

end Php

namespace JavaScript

/-- The name of a variable comes after a gap. -/
theorem apart_lasts_gap (p q : Pattern) : Apart (sequence [p, q, Extract.gap]).lasts := by
  refine apart_of_signs [] (by decide) fun c hc => ?_
  simpa [Pattern.sequence, lasts, nullable, Extract.gap, several] using hc

/-- The name of a member comes after a gap or a star. -/
theorem apart_lasts_star (s : String) (ss : List String) :
    Apart (sequence [modifiers s ss, Pattern.optional (char '*')]).lasts := by
  refine apart_of_signs ['*'] (by decide) fun c hc => ?_
  simpa [Pattern.sequence, lasts, nullable, Pattern.optional, modifiers, Extract.gap, several,
    char, or_comm] using hc

/-- At least a star or a blank character is read between the keyword and the name, if anything
is. -/
theorem apart_lasts_spaces :
    Apart (sequence [spaces, Pattern.optional (char '*'), spaces]).lasts := by
  refine apart_of_signs ['*'] (by decide) fun c hc => ?_
  simpa [Pattern.sequence, lasts, nullable, spaces, Pattern.optional, char, or_comm,
    or_left_comm] using hc

theorem wholeNames_variableHeader : WholeNames variableHeader := by
  refine wholeNames_sequence [_, _, _] [_, _, _, _, _, _] (apart_lasts_gap _ _) ⟨rfl, rfl, ?_⟩
  refine apart_of_signs [':', '='] (by decide) fun c hc => ?_
  simpa [Pattern.sequence, firsts, nullable, spaces, annotation, Pattern.optional, char] using hc

theorem wholeNames_propertyHeader : WholeNames propertyHeader := by
  refine wholeNames_sequence [] [_, _, _, _, _] (fun _ hc => by cases hc) ⟨rfl, rfl, ?_⟩
  refine apart_of_signs [':'] (by decide) fun c hc => ?_
  simpa [Pattern.sequence, firsts, nullable, spaces, char] using hc

theorem wholeNames_memberHeader : WholeNames memberHeader := by
  refine wholeNames_sequence [_, _] [_, _, _, _, _, _] (apart_lasts_star _ _) ⟨rfl, rfl, ?_⟩
  refine apart_of_signs ['<', '('] (by decide) fun c hc => ?_
  simpa [Pattern.sequence, firsts, nullable, spaces, parameters, Pattern.optional, char, or_comm,
    or_left_comm, or_assoc] using hc

/-- A name that does not touch the keyword is whole: at least a star or a blank character stands
between them. -/
theorem endsNames_functionHeader : EndsNames functionHeader := by
  intro line n hn
  have hpost : Delimits [spaces, .alt (char '(') (char '<')] := by
    refine ⟨rfl, rfl, apart_of_signs ['(', '<'] (by decide) fun c hc => ?_⟩
    simpa [Pattern.sequence, firsts, nullable, spaces, char] using hc
  have hstands := @stands_of_named? line n anyWord [_, _, _, literal "function", _, _, _] _
    hpost.nameless hn
  obtain ⟨m, hm, hrest⟩ := hstands.before
  obtain ⟨hline, hends, -⟩ := placeOf_of_stands hstands (hpost.after hstands)
  obtain ⟨front, k, hfront, -, hk⟩ :=
    exists_of_mem_readings_literal [_, _, _] "function" [_, _, _] hm
  obtain ⟨between, hbetween, hfits⟩ := fits_of_mem_readings hk
  rw [hbetween, ← List.append_assoc] at hfront
  change line = front ++ _ ++ between ++ m.rest at hfront
  rw [hfront, hrest, placeOf_append] at hline hends ⊢
  refine ⟨hline, hends, fun htouches => ⟨hends, fun c hc => ?_⟩⟩
  -- the keyword is the last thing before the name only if nothing was read between them
  have hlast : between.getLast? = some c := by
    cases between with
    | nil =>
      have hkeyword : endsWith (front ++ "function".toList ++ []) "function".toList = true :=
        List.isSuffixOf_iff_suffix.mpr ⟨front, (List.append_nil _).symm⟩
      cases hkeyword.symm.trans htouches
    | cons d between =>
      change (_ ++ d :: between).getLast? = some c at hc
      rwa [List.getLast?_append, List.getLast?_cons, Option.some_or, ← List.getLast?_cons] at hc
  exact apart_lasts_spaces c (hfits.last c hlast)

end JavaScript

/-! ### The names of blocks -/

/-- The shape by which a line starts a declaration: the first one that the line has. -/
def shapeOf? (shapes : List Shape) (inClass : Bool) (line : List Char) : Option Shape :=
  shapes.find? fun s => (s.declaration? inClass line).isSome

theorem exists_shapeOf? {shapes : List Shape} {inClass : Bool} {d : Declaration}
    (h : shapes.findSome? (fun s => s.declaration? inClass line) = some d) :
    ∃ s n, shapeOf? shapes inClass line = some s ∧ s.pattern.named? line = some n ∧
      d.name = String.ofList n.text := by
  obtain ⟨before, s, after, hshapes, hs, hnone⟩ := List.findSome?_eq_some_iff.mp h
  have hfind : shapeOf? shapes inClass line = some s :=
    List.find?_eq_some_iff_append.mpr ⟨by rw [hs, Option.isSome_some], before, after, hshapes,
      fun t ht => by rw [hnone t ht, Option.isSome_none, Bool.not_false]⟩
  have hname : s.name? line = some d.name := by
    unfold Shape.declaration? at hs
    split at hs
    · cases hs
    · obtain ⟨name, hname, rfl⟩ := Option.map_eq_some_iff.mp hs
      exact hname
  obtain ⟨n, hn, heq⟩ := Option.map_eq_some_iff.mp (Option.filter_eq_some_iff.mp hname).1
  exact ⟨s, n, hfind, hn, heq.symm⟩

/-- A language with the header by which a line starts a declaration. -/
structure Grammar where
  language : Language
  header? : (inClass : Bool) → List Char → Option Pattern
  /-- A declaration is called what its header marks. -/
  named : ∀ {inClass line d}, language.declaration? inClass line = some d →
    ∃ p n, header? inClass line = some p ∧ p.named? line = some n ∧ d.name = String.ofList n.text

namespace Grammar

def python : Grammar where
  language := Python.language
  header? _ _ := some Python.functionHeader
  named h := by
    obtain ⟨name, hname, rfl⟩ := Option.map_eq_some_iff.mp h
    obtain ⟨n, hn, rfl⟩ := Option.map_eq_some_iff.mp hname
    exact ⟨_, n, rfl, hn, rfl⟩

def javaScript : Grammar where
  language := JavaScript.language
  header? inClass line := (shapeOf? JavaScript.shapes inClass line).map (·.pattern)
  named h := by
    obtain ⟨s, n, hs, hn, hname⟩ := exists_shapeOf? h
    exact ⟨s.pattern, n, by rw [hs, Option.map_some], hn, hname⟩

def php : Grammar where
  language := Php.language
  header? inClass line := (shapeOf? Php.shapes inClass line).map (·.pattern)
  named h := by
    obtain ⟨s, n, hs, hn, hname⟩ := exists_shapeOf? h
    exact ⟨s.pattern, n, by rw [hs, Option.map_some], hn, hname⟩

def all : List Grammar := [python, javaScript, php]

/-- Where the name of the declaration that a line starts stands in the line. -/
def place? (g : Grammar) (inClass : Bool) (line : List Char) : Option Place :=
  (g.header? inClass (strip line)).bind fun p => placeIn? p line

variable {g : Grammar} {inClass : Bool}

theorem wholeNames_of_header (hg : g ∈ [python, php]) (h : g.header? inClass line = some p) :
    WholeNames p := by
  simp only [List.mem_cons, List.not_mem_nil, or_false] at hg
  rcases hg with rfl | rfl
  · cases h
    exact Python.wholeNames_functionHeader
  · obtain ⟨s, hs, rfl⟩ := Option.map_eq_some_iff.mp h
    have hmem : s ∈ Php.shapes := List.mem_of_find?_eq_some hs
    simp only [Php.shapes, List.mem_cons, List.not_mem_nil, or_false] at hmem
    rcases hmem with rfl | rfl
    · exact Php.wholeNames_functionHeader
    · exact Php.wholeNames_variableHeader

theorem endsNames_of_header (hg : g ∈ all) (h : g.header? inClass line = some p) :
    EndsNames p := by
  simp only [all, List.mem_cons, List.not_mem_nil, or_false] at hg
  rcases hg with rfl | rfl | rfl
  · exact (wholeNames_of_header (by simp) h).endsNames
  · obtain ⟨s, hs, rfl⟩ := Option.map_eq_some_iff.mp h
    have hmem : s ∈ JavaScript.shapes := List.mem_of_find?_eq_some hs
    simp only [JavaScript.shapes, List.mem_cons, List.not_mem_nil, or_false] at hmem
    rcases hmem with rfl | rfl | rfl | rfl
    · exact JavaScript.endsNames_functionHeader
    · exact JavaScript.wholeNames_variableHeader.endsNames
    · exact JavaScript.wholeNames_propertyHeader.endsNames
    · exact JavaScript.wholeNames_memberHeader.endsNames
  · exact (wholeNames_of_header (by simp) h).endsNames

/-- The name of a block is marked in its first line by the header of its declaration. -/
theorem exists_named {path content : String} {b : Block} (hb : b ∈ g.language.blocks path content) :
    ∃ line p n, (lines content)[b.span.first - 1]? = some line ∧
      g.header? b.className.isSome (strip line.toList) = some p ∧
      p.named? (strip line.toList) = some n ∧ b.name = some (String.ofList n.text) := by
  obtain ⟨s, hs, rfl⟩ := Language.mem_blocks_iff.mp hb
  obtain ⟨line, d, hline, -, -, hd, hsite⟩ := Language.siteAt?_eq_some_iff.mp hs
  obtain ⟨p, n, hp, hn, hname⟩ := g.named hd
  have hclass : s.className = g.language.classBefore (lines content) s.line line := by rw [hsite]
  have hdeclared : s.declaration = d := by rw [hsite]
  refine ⟨line, p, n, hline, ?_, hn, ?_⟩
  · change g.header? s.className.isSome _ = some p
    rw [hclass, hp]
  · change some s.declaration.name = _
    rw [hdeclared, hname]

/-- The name of a block stands in its first line as a run of word characters that no word character
follows.  In Python and PHP it is a whole identifier; in every language it is one exactly if it does
not touch the keyword `function`. -/
theorem whole_unless_keyword (hg : g ∈ all) {path content : String} {b : Block}
    (hb : b ∈ g.language.blocks path content) :
    ∃ line place, (lines content)[b.span.first - 1]? = some line ∧
      g.place? b.className.isSome line.toList = some place ∧ place.line = line.toList ∧
      b.name = some (String.ofList place.name) ∧ place.Ends ∧
      (g ∈ [python, php] → place.Whole) ∧ (place.Whole ↔ place.touchesKeyword = false) := by
  obtain ⟨line, p, n, hline, hp, hn, hname⟩ := exists_named hb
  have hfront : ∀ c ∈ leading line.toList, isBlank c = true := fun _ => isBlank_of_mem_leading
  have hback : ∀ c ∈ trailing line.toList, isBlank c = true := fun _ => isBlank_of_mem_trailing
  obtain ⟨heq, hends, hwhole⟩ := endsNames_of_header hg hp _ n hn
  refine ⟨line, (placeOf (strip line.toList) n).widen (leading line.toList)
    (trailing line.toList), hline, ?_, ?_, hname, hends.widen hback, fun hg => ?_, ?_⟩
  · rw [place?, hp, Option.bind_some, placeIn?, hn, Option.map_some]
  · rw [Place.line_widen, heq, leading_append_strip_append_trailing]
  · exact (wholeNames_of_header hg hp _ n hn).2.widen hfront hback
  · refine ⟨Place.Whole.touchesKeyword_eq_false, fun hfree => ?_⟩
    refine (hwhole (Bool.eq_false_iff.mpr fun htouches => ?_)).widen hfront hback
    exact Bool.false_ne_true (hfree.symm.trans (Place.touchesKeyword_widen htouches))

/-- A name after a star. -/
theorem whole_unless_keyword_sample :
    let line := "  function*f() \x7b\x7d"
    ∃ b ∈ javaScript.language.blocks "f.js" line, javaScript ∈ all ∧ b.name = some "f" ∧
      ∃ place, javaScript.place? b.className.isSome line.toList = some place ∧ place.Whole := by
  intro line
  have hjavaScript : javaScript ∈ all := by simp [all]
  have hblock : ∃ b ∈ javaScript.language.blocks "f.js" line,
      b.name = some "f" ∧ b.className = none ∧ b.span.first = 1 := by decide +kernel
  have hline : (lines line)[0]? = some line := by decide +kernel
  have hfree : (javaScript.place? false line.toList).map (·.touchesKeyword) = some false := by
    decide +kernel
  obtain ⟨b, hb, hname, hclass, hfirst⟩ := hblock
  obtain ⟨first, place, hfound, hplace, -, -, -, -, hwhole⟩ := whole_unless_keyword hjavaScript hb
  rw [hfirst] at hfound
  obtain rfl : line = first := Option.some.inj (hline.symm.trans hfound)
  refine ⟨b, hb, hjavaScript, hname, place, hplace, hwhole.mpr ?_⟩
  rw [hclass, Option.isSome_none] at hplace
  rw [hplace] at hfree
  exact Option.some.inj hfree

/-- The name of a called function is cut out of a longer word. -/
theorem call_cut_from_word :
    ∃ b ∈ javaScript.language.blocks "a.js" "functionCall(x)\n", b.name = some "Call" ∧
      ∃ place, javaScript.place? b.className.isSome "functionCall(x)".toList = some place ∧
        place.line = "functionCall(x)".toList ∧ place.name = "Call".toList ∧ ¬place.Whole := by
  have hblock : ∃ b ∈ javaScript.language.blocks "a.js" "functionCall(x)\n",
      b.name = some "Call" ∧ b.className = none := by decide +kernel
  have hplace : javaScript.place? false "functionCall(x)".toList =
      some ⟨"function".toList, "Call".toList, "(x)".toList⟩ := by decide +kernel
  obtain ⟨b, hb, hname, hclass⟩ := hblock
  refine ⟨b, hb, hname, _, by rw [hclass]; exact hplace, rfl, rfl, fun hwhole => ?_⟩
  exact absurd (hwhole.before 'n' rfl) (by decide)

end Grammar

end BlockIndex.Extract
