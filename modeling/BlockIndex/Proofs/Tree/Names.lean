import BlockIndex.Proofs.Tree.Path
import BlockIndex.Tree.Scanner

/-! Trees in which every entry has a name that a file can have.  A scan of such a tree finds only
files below its top, and the paths of these hold no character that ends a name. -/

namespace BlockIndex

namespace Tree

variable {α : Type}

mutual

/-- Every entry at any depth has a name that a file can have. -/
def Named : Tree α → Prop
  | .file _ => True
  | .directory es => NamedEntries es

/-- Every entry, here and at any depth, has a name that a file can have. -/
def NamedEntries : List (String × Tree α) → Prop
  | [] => True
  | (name, t) :: es => Path.IsName name ∧ t.Named ∧ NamedEntries es

end

theorem NamedEntries.of_lookup {name : String} {t : Tree α} {es : List (String × Tree α)}
    (h : NamedEntries es) (ht : es.lookup name = some t) : t.Named := by
  induction es with
  | nil => cases ht
  | cons e es ih =>
    obtain ⟨n, c⟩ := e
    rw [List.lookup_cons] at ht
    split at ht
    · cases ht
      exact h.2.1
    · exact ih h.2.2 ht

theorem Named.child? {t c : Tree α} {name : String} (h : t.Named) (hc : t.child? name = some c) :
    c.Named := by
  cases t with
  | file _ => cases hc
  | directory es => exact NamedEntries.of_lookup h hc

theorem Named.find? {t c : Tree α} {way : List String} (h : t.Named)
    (hc : t.find? way = some c) : c.Named := by
  induction way generalizing t with
  | nil =>
    cases hc
    exact h
  | cons p ps ih =>
    obtain ⟨d, hd, hc⟩ := Option.bind_eq_some_iff.mp hc
    exact ih (h.child? hd) hc

theorem NamedEntries.isName {e : String × Tree α} {es : List (String × Tree α)}
    (h : NamedEntries es) (he : e ∈ es) : Path.IsName e.1 := by
  induction es with
  | nil => cases he
  | cons e' es ih =>
    rcases List.mem_cons.mp he with rfl | he
    · exact h.1
    · exact ih h.2.2 he

/-- The path of a directory: the top, or below it. -/
def IsPlace (directory : String) : Prop := directory = "" ∨ Path.IsBelow directory

theorem IsPlace.isBelow_pathIn {directory name : String} (h : IsPlace directory)
    (hn : Path.IsName name) : Path.IsBelow (pathIn directory name) := by
  unfold pathIn
  rcases h with rfl | h
  · simpa using Path.isBelow_of_isName hn
  · rw [h.isEmpty_eq]
    exact h.append hn

mutual

theorem Named.isBelow_of_mem_scanAt {s : Selection} {directory file : String} {t : Tree α}
    (h : t.Named) (hd : IsPlace directory) (hf : file ∈ t.scanAt s directory) :
    Path.IsBelow file := by
  match t with
  | .file _ => cases hf
  | .directory es =>
    rw [scanAt] at hf
    rcases List.mem_append.mp hf with hf | hf
    · obtain ⟨e, he, rfl⟩ := List.mem_map.mp hf
      have he := (List.mem_filter.mp (List.mem_filter.mp he).1).1
      exact hd.isBelow_pathIn (NamedEntries.isName h (List.mem_mergeSort.mp he))
    · obtain ⟨r, hr, hf⟩ := List.mem_flatMap.mp hf
      exact NamedEntries.isBelow_of_mem_scanEntries h hd (List.mem_mergeSort.mp hr) hf

theorem NamedEntries.isBelow_of_mem_scanEntries {s : Selection} {directory file : String}
    {es : List (String × Tree α)} {r : String × List String} (h : NamedEntries es)
    (hd : IsPlace directory) (hr : r ∈ scanEntries s directory es) (hf : file ∈ r.2) :
    Path.IsBelow file := by
  match es with
  | [] => cases hr
  | (name, t) :: es =>
    rw [scanEntries] at hr
    split at hr
    · rcases List.mem_cons.mp hr with rfl | hr
      · exact Named.isBelow_of_mem_scanAt h.2.1 (.inr (hd.isBelow_pathIn h.1)) hf
      · exact NamedEntries.isBelow_of_mem_scanEntries h.2.2 hd hr hf
    · exact NamedEntries.isBelow_of_mem_scanEntries h.2.2 hd hr hf

end

end Tree

namespace Disk

variable {α : Type} {d : Disk α}

theorem named_of_locate {p : Path} {t : Tree α} (h : d.tree.Named) (ht : d.locate p = .ok t) :
    t.Named := by
  unfold locate at ht
  cases hw : d.way p with
  | error e => simp [hw, Except.bind] at ht
  | ok way =>
    simp only [hw, Except.bind] at ht
    cases hf : d.tree.find? way with
    | none => simp [hf] at ht
    | some c =>
      rw [hf] at ht
      cases ht
      exact h.find? hf

theorem walk_ne_badName {t : Tree α} {here : List String} {parts : List String} :
    walk t here parts ≠ .error .badName := by
  induction parts generalizing here with
  | nil => simp [walk]
  | cons p ps ih =>
    unfold walk
    split
    · exact ih
    · simp
    · simp

/-- A path without the character that ends a name is not refused for its name. -/
theorem read_ne_badName {p : Path} (h : '\x00' ∉ p.toString.toList) :
    d.read p ≠ .error .badName := by
  have hway : d.way p ≠ .error .badName := by
    unfold way
    rw [if_neg (by simpa using h)]
    exact walk_ne_badName
  unfold read locate
  cases hw : d.way p with
  | error e => simpa [Except.bind, hw] using hway
  | ok way =>
    simp only [Except.bind]
    cases d.tree.find? way with
    | none => simp
    | some t => cases t <;> simp

theorem read_eq_badName_iff {p : Path} :
    d.read p = .error .badName ↔ '\x00' ∈ p.toString.toList := by
  constructor
  · exact fun h => Classical.byContradiction fun hname => read_ne_badName hname h
  · intro h
    have hname : p.toString.toList.contains '\x00' = true := by simpa using h
    simp only [read, locate, way, hname]
    rfl

end Disk

/-- A scan finds only files below its root. -/
theorem Scanner.isBelow_of_mem_files {s : Scanner} {d : Disk Bytes} {file : String}
    (h : d.tree.Named) (hf : file ∈ s.files d) : Path.IsBelow file := by
  unfold files at hf
  split at hf
  · next t ht => exact (Disk.named_of_locate h ht).isBelow_of_mem_scanAt (.inl rfl) hf
  · cases hf

end BlockIndex
