import BlockIndex.Block.Basic
import BlockIndex.Proofs.Text.Lines
import Mathlib.Data.List.Basic

/-! What the embedding text of a block tells of the block.  The header ends at the first empty line,
and its lines are told apart by their first characters.  So the text tells all that stands in it, if
no field of the header holds a line feed (`showsAs_of_embeddingText_eq`). -/

namespace BlockIndex.Block

variable {b b' : Block} {ls ls' : List (List Char)} {t t' : List Char} {c : Char}

/-- No field of the header holds a line feed. -/
structure OneLine (b : Block) : Prop where
  path : '\n' ∉ b.displayPath.toList
  className : ∀ n, b.className = some n → '\n' ∉ n.toList
  name : ∀ n, b.name = some n → '\n' ∉ n.toList
  commits : ∀ m ∈ b.commits, '\n' ∉ m.toList

/-- Two blocks have the same path that is shown, the same names, line numbers and text, and the same
commits as they are shown. -/
structure ShowsAs (b b' : Block) : Prop where
  path : b.displayPath = b'.displayPath
  className : b.className = b'.className
  name : b.name = b'.name
  first : b.span.first = b'.span.first
  last : b.span.last = b'.span.last
  text : b.text = b'.text
  commits : "; ".intercalate b.commits = "; ".intercalate b'.commits

/-! ### Where the header ends -/

theorem intercalate_append_newline (h : ls ≠ []) :
    ['\n'].intercalate ls ++ ['\n'] = ls.flatMap (· ++ ['\n']) := by
  induction ls with
  | nil => exact absurd rfl h
  | cons l ls ih =>
    cases ls with
    | nil => simp
    | cons l' ls =>
      rw [List.intercalate_cons_cons, List.flatMap_cons, ← ih (List.cons_ne_nil l' ls)]
      simp only [List.append_assoc]

theorem toList_embeddingText (b : Block) : b.embeddingText.toList =
    (b.headerLines.map String.toList).flatMap (· ++ ['\n']) ++ '\n' :: b.text.toList := by
  have hne : b.headerLines.map String.toList ≠ [] := by simp [headerLines]
  rw [← intercalate_append_newline hne, embeddingText, String.toList_append, String.toList_append,
    String.toList_intercalate]
  simp

/-- A text is cut at the first place of a character in one way only. -/
theorem eq_of_append_cons_eq {x x' y y' : List Char} (hx : c ∉ x) (hx' : c ∉ x')
    (heq : x ++ c :: y = x' ++ c :: y') : x = x' ∧ y = y' := by
  induction x generalizing x' with
  | nil =>
    cases x' with
    | nil => exact ⟨rfl, (List.cons.inj heq).2⟩
    | cons d x' => exact absurd ((List.cons.inj heq).1 ▸ List.mem_cons_self) hx'
  | cons d x ih =>
    cases x' with
    | nil => exact absurd ((List.cons.inj heq).1 ▸ List.mem_cons_self) hx
    | cons d' x' =>
      obtain ⟨rfl, hrest⟩ := List.cons.inj heq
      obtain ⟨rfl, rfl⟩ :=
        ih (mt (List.mem_cons_of_mem d) hx) (mt (List.mem_cons_of_mem d) hx') hrest
      exact ⟨rfl, rfl⟩

/-- Lines that are not empty end at the first empty line. -/
theorem lines_inj (h : ∀ l ∈ ls, l ≠ [] ∧ '\n' ∉ l) (h' : ∀ l ∈ ls', l ≠ [] ∧ '\n' ∉ l)
    (heq : ls.flatMap (· ++ ['\n']) ++ '\n' :: t = ls'.flatMap (· ++ ['\n']) ++ '\n' :: t') :
    ls = ls' ∧ t = t' := by
  -- an empty line on one side is no line of the other
  have hnot : ∀ {l r u : List Char}, l ≠ [] ∧ '\n' ∉ l → '\n' :: u ≠ l ++ r := by
    rintro (_ | ⟨d, l⟩) r u ⟨hne, hl⟩ heq
    · exact hne rfl
    · exact hl ((List.cons.inj heq).1 ▸ List.mem_cons_self)
  induction ls generalizing ls' with
  | nil =>
    cases ls' with
    | nil => exact ⟨rfl, (List.cons.inj heq).2⟩
    | cons l' ls' =>
      rw [List.flatMap_cons, List.append_assoc, List.append_assoc] at heq
      exact absurd heq (hnot (h' l' List.mem_cons_self))
  | cons l ls ih =>
    cases ls' with
    | nil =>
      rw [List.flatMap_cons, List.append_assoc, List.append_assoc] at heq
      exact absurd heq.symm (hnot (h l List.mem_cons_self))
    | cons l' ls' =>
      obtain ⟨hl, hls⟩ := List.forall_mem_cons.mp h
      obtain ⟨hl', hls'⟩ := List.forall_mem_cons.mp h'
      simp only [List.flatMap_cons, List.append_assoc, List.cons_append, List.nil_append] at heq
      obtain ⟨rfl, hrest⟩ := eq_of_append_cons_eq hl.2 hl'.2 heq
      obtain ⟨rfl, rfl⟩ := ih hls hls' hrest
      exact ⟨rfl, rfl⟩

/-! ### The lines of the header -/

/-- Fields with a label before each. -/
def labelled (label : String) (fields : List String) : List String := fields.map (label ++ ·)

/-- The lines that start with a character. -/
def linesWith (c : Char) (ls : List String) : List String :=
  ls.filter fun l => l.toList.head? == some c

/-- The line numbers as they are shown. -/
def spanText (b : Block) : String := toString b.span.first ++ "-" ++ toString b.span.last

/-- The commits as they are shown, if there are any. -/
def commitsText (b : Block) : List String :=
  if b.commits.isEmpty then [] else ["; ".intercalate b.commits]

theorem labelled_injective {label : String} {fs fs' : List String}
    (h : labelled label fs = labelled label fs') : fs = fs' := by
  refine List.map_injective_iff.mpr (fun f f' hf => ?_) h
  have hlist := congrArg String.toList hf
  simp only [String.toList_append] at hlist
  exact String.toList_inj.mp (List.append_cancel_left hlist)

theorem linesWith_append (c : Char) (ls ls' : List String) :
    linesWith c (ls ++ ls') = linesWith c ls ++ linesWith c ls' := List.filter_append ..

/-- Labelled fields start with the first character of the label. -/
theorem linesWith_labelled {label : String} {d : Char} (h : label.toList.head? = some d) (c : Char)
    (fs : List String) :
    linesWith c (labelled label fs) = if d = c then labelled label fs else [] := by
  have hhead : ∀ l ∈ labelled label fs, l.toList.head? = some d := by
    intro l hl
    obtain ⟨f, -, rfl⟩ := List.mem_map.mp hl
    rw [String.toList_append, List.head?_append, h]
    rfl
  split
  · next hd =>
    refine List.filter_eq_self.mpr fun l hl => ?_
    rw [hhead l hl, hd, beq_self_eq_true]
  · next hd =>
    refine List.filter_eq_nil_iff.mpr fun l hl => ?_
    rw [hhead l hl, beq_iff_eq, Option.some.injEq]
    exact hd

theorem headerLines_eq (b : Block) : b.headerLines =
    labelled "File: " [b.displayPath] ++ labelled "Class: " b.className.toList ++
      labelled "Method/Function: " b.name.toList ++ labelled "Lines: " [b.spanText] ++
      labelled "Recent commits: " b.commitsText := by
  have hlines : labelled "Lines: " [b.spanText] =
      ["Lines: " ++ toString b.span.first ++ "-" ++ toString b.span.last] := by
    simp only [labelled, spanText, List.map_cons, List.map_nil, String.append_assoc]
  rw [hlines]
  unfold headerLines labelled commitsText
  cases b.className <;> cases b.name <;> cases b.commits.isEmpty <;> rfl

/-- Each label has a first character of its own. -/
theorem linesWith_headerLines (c : Char) (b : Block) : linesWith c b.headerLines =
    (if 'F' = c then labelled "File: " [b.displayPath] else []) ++
      (if 'C' = c then labelled "Class: " b.className.toList else []) ++
      (if 'M' = c then labelled "Method/Function: " b.name.toList else []) ++
      (if 'L' = c then labelled "Lines: " [b.spanText] else []) ++
      (if 'R' = c then labelled "Recent commits: " b.commitsText else []) := by
  simp only [headerLines_eq, linesWith_append]
  rw [linesWith_labelled (d := 'F') rfl, linesWith_labelled (d := 'C') rfl,
    linesWith_labelled (d := 'M') rfl, linesWith_labelled (d := 'L') rfl,
    linesWith_labelled (d := 'R') rfl]

theorem not_mem_toString {n : Nat} (hc : c.isDigit = false) : c ∉ (toString n).toList := by
  intro hn
  rw [Nat.toString_eq_repr, Nat.toList_repr] at hn
  have hdigit := Nat.isDigit_of_mem_toDigits (by decide) (by decide) hn
  exact Bool.false_ne_true (hc.symm.trans hdigit)

/-- Line numbers are read off the text that shows them. -/
theorem span_of_spanText_eq (h : b.spanText = b'.spanText) :
    b.span.first = b'.span.first ∧ b.span.last = b'.span.last := by
  have hnumber : ∀ m n : Nat, (toString m).toList = (toString n).toList → m = n := by
    intro m n hmn
    simpa only [Nat.toString_eq_repr, Nat.toList_repr, Nat.ofDigitChars_ten_toDigits]
      using congrArg (Nat.ofDigitChars 10 · 0) hmn
  have hlist := congrArg String.toList h
  simp only [spanText, String.toList_append, List.append_assoc] at hlist
  obtain ⟨hfirst, hlast⟩ := eq_of_append_cons_eq (not_mem_toString rfl)
    (not_mem_toString rfl) hlist
  exact ⟨hnumber _ _ hfirst, hnumber _ _ hlast⟩

/-- No commits are shown as the empty text is. -/
theorem intercalate_of_commitsText_eq (h : b.commitsText = b'.commitsText) :
    "; ".intercalate b.commits = "; ".intercalate b'.commits := by
  have hget : ∀ b : Block, b.commitsText.headD "" = "; ".intercalate b.commits := by
    intro b
    unfold commitsText
    split
    · next hnil => rw [List.isEmpty_iff.mp hnil]; rfl
    · rfl
  rw [← hget, h, hget]

theorem showsAs_of_headerLines_eq (h : b.headerLines = b'.headerLines) (htext : b.text = b'.text) :
    b.ShowsAs b' := by
  have hpath : [b.displayPath] = [b'.displayPath] := labelled_injective
    (by simpa [linesWith_headerLines] using congrArg (linesWith 'F') h)
  have hclass : b.className.toList = b'.className.toList := labelled_injective
    (by simpa [linesWith_headerLines] using congrArg (linesWith 'C') h)
  have hname : b.name.toList = b'.name.toList := labelled_injective
    (by simpa [linesWith_headerLines] using congrArg (linesWith 'M') h)
  have hspan : [b.spanText] = [b'.spanText] := labelled_injective
    (by simpa [linesWith_headerLines] using congrArg (linesWith 'L') h)
  have hcommits : b.commitsText = b'.commitsText := labelled_injective
    (by simpa [linesWith_headerLines] using congrArg (linesWith 'R') h)
  have hoption : ∀ {o o' : Option String}, o.toList = o'.toList → o = o' := by
    rintro (_ | _) (_ | _) ho <;> simp_all
  obtain ⟨hfirst, hlast⟩ := span_of_spanText_eq (List.cons.inj hspan).1
  exact ⟨(List.cons.inj hpath).1, hoption hclass, hoption hname, hfirst, hlast, htext,
    intercalate_of_commitsText_eq hcommits⟩

/-! ### What the text tells -/

theorem newline_not_mem_spanText (b : Block) : '\n' ∉ b.spanText.toList := by
  rw [spanText, String.toList_append, String.toList_append]
  exact List.not_mem_append (List.not_mem_append (not_mem_toString rfl) (by decide))
    (not_mem_toString rfl)

theorem newline_not_mem_of_mem_labelled {label : String} {fs : List String} {l : List Char}
    (hne : label.toList ≠ []) (hlabel : '\n' ∉ label.toList) (hfs : ∀ f ∈ fs, '\n' ∉ f.toList)
    (hl : l ∈ (labelled label fs).map String.toList) : l ≠ [] ∧ '\n' ∉ l := by
  obtain ⟨_, hfield, rfl⟩ := List.mem_map.mp hl
  obtain ⟨f, hf, rfl⟩ := List.mem_map.mp hfield
  rw [String.toList_append]
  exact ⟨List.append_ne_nil_of_left_ne_nil hne _,
    List.not_mem_append hlabel (hfs f hf)⟩

theorem OneLine.of_mem_headerLines (h : b.OneLine) {l : List Char}
    (hl : l ∈ b.headerLines.map String.toList) : l ≠ [] ∧ '\n' ∉ l := by
  simp only [headerLines_eq, List.map_append, List.mem_append] at hl
  rcases hl with (((hl | hl) | hl) | hl) | hl
  · refine newline_not_mem_of_mem_labelled (by decide) (by decide) (fun f hf => ?_) hl
    exact List.mem_singleton.mp hf ▸ h.path
  · refine newline_not_mem_of_mem_labelled (by decide) (by decide) (fun f hf => ?_) hl
    exact h.className f (Option.mem_toList.mp hf)
  · refine newline_not_mem_of_mem_labelled (by decide) (by decide) (fun f hf => ?_) hl
    exact h.name f (Option.mem_toList.mp hf)
  · refine newline_not_mem_of_mem_labelled (by decide) (by decide) (fun f hf => ?_) hl
    exact List.mem_singleton.mp hf ▸ newline_not_mem_spanText b
  · refine newline_not_mem_of_mem_labelled (by decide) (by decide) (fun f hf => ?_) hl
    unfold commitsText at hf
    split at hf
    · cases hf
    · rw [List.mem_singleton.mp hf, String.toList_intercalate, Text.mem_intercalate (by decide)]
      rintro ⟨l, hl, hnewline⟩
      obtain ⟨m, hm, rfl⟩ := List.mem_map.mp hl
      exact h.commits m hm hnewline

/-- The embedding text tells what stands in it. -/
theorem showsAs_of_embeddingText_eq (h : b.OneLine) (h' : b'.OneLine)
    (heq : b.embeddingText = b'.embeddingText) : b.ShowsAs b' := by
  have hlist := congrArg String.toList heq
  rw [toList_embeddingText, toList_embeddingText] at hlist
  obtain ⟨hlines, htext⟩ := lines_inj (fun l => h.of_mem_headerLines)
    (fun l => h'.of_mem_headerLines) hlist
  exact showsAs_of_headerLines_eq
    (List.map_injective_iff.mpr (fun _ _ => String.toList_inj.mp) hlines)
    (String.toList_inj.mp htext)

end BlockIndex.Block
