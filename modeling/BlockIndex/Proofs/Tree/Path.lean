import BlockIndex.Proofs.Text.Lines
import BlockIndex.Tree.Disk

/-! Paths made of the parts that a written path can have.  Such a path is read back from its text,
so its text stands for it alone; and the texts below a directory lead to different files. -/

namespace BlockIndex

namespace Text

theorem splitAt_eq_splitOn (c : Char) (s : List Char) : splitAt c s = s.splitOn c := by
  induction s with
  | nil => rfl
  | cons d s ih =>
    rw [List.splitOn_cons_eq_if_modifyHead, splitAt, ih]
    simp only [beq_iff_eq]
    split
    · rfl
    · cases h : s.splitOn c with
      | nil => exact absurd h (List.splitOn_ne_nil c s)
      | cons l ls => rfl

end Text

namespace Path

/-- A part that a written path can have. -/
abbrev IsPart (n : String) : Prop :=
  n ≠ "" ∧ n ≠ "." ∧ '/' ∉ n.toList ∧ '\x00' ∉ n.toList

/-- A name that a file or a directory can have. -/
abbrev IsName (n : String) : Prop := IsPart n ∧ n ≠ ".."

/-- A path with a possible root and possible parts. -/
structure Normal (p : Path) : Prop where
  root : p.root = "" ∨ p.root = "/" ∨ p.root = "//"
  parts : ∀ n ∈ p.parts, IsPart n

/-- A text that leads to a file below a directory: names with slashes between them. -/
def IsBelow (file : String) : Prop :=
  ∃ way : List String, way ≠ [] ∧ (∀ n ∈ way, IsName n) ∧ file = "/".intercalate way

variable {p q root : Path} {parts : List String} {file other : String}

theorem toList_intercalate_slash :
    ("/".intercalate parts).toList = ['/'].intercalate (parts.map String.toList) := by
  rw [String.toList_intercalate]
  rfl

theorem head_intercalate_ne (h : ∀ n ∈ parts, IsPart n) :
    ("/".intercalate parts).toList.head? ≠ some '/' := by
  rw [toList_intercalate_slash]
  cases parts with
  | nil => simp
  | cons n parts =>
    obtain ⟨hne, -, hslash, -⟩ := h n (by simp)
    have hhead : (['/'].intercalate ((n :: parts).map String.toList)).head? = n.toList.head? := by
      cases hn : n.toList with
      | nil => exact absurd (String.toList_eq_nil_iff.mp hn) hne
      | cons c cs => cases parts <;> simp [List.intercalate_cons_cons, hn]
    rw [hhead]
    exact fun hc => hslash (List.mem_of_head? hc)

theorem partsOf_intercalate (h : ∀ n ∈ parts, IsPart n) :
    partsOf ("/".intercalate parts).toList = parts := by
  have hkept : parts.filter (fun p => !p.isEmpty && p != ".") = parts := by
    refine List.filter_eq_self.mpr fun n hn => ?_
    simpa [String.isEmpty_iff] using ⟨(h n hn).1, (h n hn).2.1⟩
  unfold partsOf
  rw [Text.splitAt_eq_splitOn, toList_intercalate_slash]
  cases hp : parts with
  | nil => rfl
  | cons n ns =>
    have hslash : ∀ n ∈ parts.map String.toList, '/' ∉ n := by
      simpa using fun n hn => (h n hn).2.2.1
    rw [← hp, List.splitOn_intercalate '/' hslash (by simp [hp])]
    simpa [Function.comp_def] using hkept

theorem partsOf_slash (s : List Char) : partsOf ('/' :: s) = partsOf s := by
  simp [partsOf, Text.splitAt]

theorem rootOf_of_head_ne {s : List Char} (h : s.head? ≠ some '/') :
    rootOf s = "" ∧ rootOf ('/' :: s) = "/" ∧ rootOf ('/' :: '/' :: s) = "//" := by
  cases s with
  | nil => exact ⟨rfl, rfl, rfl⟩
  | cons c s =>
    have hc : ¬c = '/' := fun e => h (by simp [e])
    refine ⟨?_, ?_, ?_⟩ <;> simp [rootOf, hc]

theorem toList_slash_append (s : String) : ("/" ++ s).toList = '/' :: s.toList := by
  rw [String.toList_append]
  rfl

theorem ofString_intercalate (h : ∀ n ∈ parts, IsPart n) :
    ofString ("/".intercalate parts) = ⟨"", parts⟩ := by
  rw [ofString, (rootOf_of_head_ne (head_intercalate_ne h)).1, partsOf_intercalate h]

/-- A path is read back from its text. -/
theorem ofString_toString (h : p.Normal) : ofString p.toString = p := by
  obtain ⟨r, parts⟩ := p
  obtain ⟨hroot, hparts⟩ := h
  obtain ⟨-, h1, h2⟩ := rootOf_of_head_ne (head_intercalate_ne hparts)
  have hp := partsOf_intercalate hparts
  rcases hroot with rfl | rfl | rfl
  · cases parts with
    | nil => decide
    | cons n ns =>
      have ht : toString ⟨"", n :: ns⟩ = "/".intercalate (n :: ns) := by simp [toString]
      rw [ht, ofString_intercalate hparts]
  · have ht : (toString ⟨"/", parts⟩).toList = '/' :: ("/".intercalate parts).toList :=
      toList_slash_append _
    rw [ofString, ht, h1, partsOf_slash, hp]
  · have ht : (toString ⟨"//", parts⟩).toList = '/' :: '/' :: ("/".intercalate parts).toList := by
      rw [← toList_slash_append, ← toList_slash_append, ← String.append_assoc]
      rfl
    rw [ofString, ht, h2, partsOf_slash, partsOf_slash, hp]

theorem toString_injective (hp : p.Normal) (hq : q.Normal) (h : p.toString = q.toString) :
    p = q := by
  rw [← ofString_toString hp, h, ofString_toString hq]

/-- The text of a normal path does not hold the character that ends a name. -/
theorem Normal.not_mem_toString (h : p.Normal) : '\x00' ∉ p.toString.toList := by
  have hparts : '\x00' ∉ ("/".intercalate p.parts).toList := by
    rw [toList_intercalate_slash, Text.mem_intercalate (by decide)]
    rintro ⟨n, hn, hc⟩
    obtain ⟨part, hpart, rfl⟩ := List.mem_map.mp hn
    exact (h.parts part hpart).2.2.2 hc
  unfold toString
  split
  · decide
  · rw [String.toList_append, List.mem_append]
    rintro (hc | hc)
    · rcases h.root with hr | hr | hr <;> simp [hr] at hc
    · exact hparts hc

/-! ### Files below a directory -/

theorem IsBelow.ofString_eq (h : IsBelow file) :
    ∃ way : List String, way ≠ [] ∧ (∀ n ∈ way, IsName n) ∧ file = "/".intercalate way ∧
      ofString file = ⟨"", way⟩ := by
  obtain ⟨way, hne, hway, rfl⟩ := h
  exact ⟨way, hne, hway, rfl, ofString_intercalate fun n hn => (hway n hn).1⟩

theorem IsBelow.isEmpty_eq (h : IsBelow file) : file.isEmpty = false := by
  obtain ⟨way, hne, -, -, heq⟩ := h.ofString_eq
  cases hf : file.isEmpty with
  | false => rfl
  | true =>
    rw [String.isEmpty_iff.mp hf] at heq
    exact absurd (congrArg Path.parts heq).symm hne

/-- A name put behind a path leads below the same directory. -/
theorem IsBelow.append {n : String} (h : IsBelow file) (hn : IsName n) :
    IsBelow (file ++ "/" ++ n) := by
  obtain ⟨way, hne, hway, rfl⟩ := h
  refine ⟨way ++ [n], by simp, fun m hm => ?_, ?_⟩
  · rcases List.mem_append.mp hm with hm | hm
    · exact hway m hm
    · exact List.mem_singleton.mp hm ▸ hn
  · rw [String.intercalate_append_of_ne_nil hne (by simp), String.intercalate_singleton]

theorem isBelow_of_isName {n : String} (hn : IsName n) : IsBelow n :=
  ⟨[n], by simp, by simpa using hn, by rw [String.intercalate_singleton]⟩

/-- The path at which a file below a root is read. -/
def below (root : Path) (file : String) : Path := root.join (ofString file)

section Below

variable (hroot : root.Normal)
include hroot

theorem IsBelow.below_eq (h : IsBelow file) :
    ∃ way : List String, (∀ n ∈ way, IsName n) ∧ file = "/".intercalate way ∧
      root.below file = ⟨root.root, root.parts ++ way⟩ ∧ (root.below file).Normal := by
  obtain ⟨way, -, hway, rfl, heq⟩ := h.ofString_eq
  have hb : root.below ("/".intercalate way) = ⟨root.root, root.parts ++ way⟩ := by
    simp [below, join, heq, isAbsolute]
  refine ⟨way, hway, rfl, hb, hb ▸ ⟨hroot.root, fun n hn => ?_⟩⟩
  rcases List.mem_append.mp hn with hn | hn
  · exact hroot.parts n hn
  · exact (hway n hn).1

/-- The path of a file below a root is read back from its text. -/
theorem IsBelow.ofString_below (h : IsBelow file) :
    ofString (root.below file).toString = root.below file :=
  ofString_toString (h.below_eq hroot).choose_spec.2.2.2

/-- Different files below a root have paths with different texts. -/
theorem IsBelow.below_injective (h : IsBelow file) (h' : IsBelow other)
    (heq : (root.below file).toString = (root.below other).toString) : file = other := by
  obtain ⟨way, -, rfl, hb, hn⟩ := h.below_eq hroot
  obtain ⟨way', -, rfl, hb', hn'⟩ := h'.below_eq hroot
  have hp := toString_injective hn hn' heq
  rw [hb, hb'] at hp
  rw [List.append_cancel_left (Path.mk.inj hp).2]

end Below

end Path

end BlockIndex
