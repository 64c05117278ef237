import BlockIndex.Proofs.Tree.Listing
import Mathlib.Data.List.Infix

/-! What a scan finds, and in which order.  The walk is followed by the ways of the files: for each
directory the ways of its files, then those that lead through its directories (`exists_ways`).  The
ways that a selection reaches and their order leave one list only, so the order of the listings is
lost. -/

namespace BlockIndex

/-! ### The order of a walk -/

/-- The order of a walk on the ways below a directory: its files before what lies in its
directories, both in the order of their names. -/
inductive Tree.Precedes : List String → List String → Prop
  | file {a b : String} (h : a < b) : Precedes [a] [b]
  | above {a b : String} {way : List String} (hw : way ≠ []) : Precedes [a] (b :: way)
  | directory {a b : String} {way way' : List String} (h : a < b) (hw : way ≠ [])
      (hw' : way' ≠ []) : Precedes (a :: way) (b :: way')
  | inside {a : String} {way way' : List String} (h : Precedes way way') :
      Precedes (a :: way) (a :: way')

theorem Tree.Precedes.asymm {way way' : List String} (h : Precedes way way') :
    ¬ Precedes way' way := by
  induction h with
  | file h =>
    intro h'
    cases h' with
    | file h' => exact String.lt_asymm h h'
    | above hw => exact hw rfl
    | directory _ hw _ => exact hw rfl
    | inside h' => cases h'
  | above hw =>
    intro h'
    cases h' with
    | file _ => exact hw rfl
    | above _ => exact hw rfl
    | directory _ _ hw' => exact hw' rfl
    | inside h' => cases h'
  | directory h hw hw' =>
    intro h'
    cases h' with
    | file _ => exact hw rfl
    | above _ => exact hw' rfl
    | directory h' _ _ => exact String.lt_asymm h h'
    | inside _ => exact String.lt_irrefl _ h
  | inside h ih =>
    intro h'
    cases h' with
    | file h' => exact String.lt_irrefl _ h'
    | above hw => cases h
    | directory h' _ _ => exact String.lt_irrefl _ h'
    | inside h' => exact ih h'

theorem Tree.Precedes.ne {way way' : List String} (h : Precedes way way') : way ≠ way' := by
  rintro rfl
  exact h.asymm h

/-- What a list in the order of a walk holds determines it. -/
theorem Tree.eq_of_precedes {ways ways' : List (List String)} (h : ways.Pairwise Precedes)
    (h' : ways'.Pairwise Precedes) (hmem : ∀ way, way ∈ ways ↔ way ∈ ways') : ways = ways' := by
  have hperm : ways.Perm ways' :=
    (List.perm_ext_iff_of_nodup (h.imp Precedes.ne) (h'.imp Precedes.ne)).mpr hmem
  exact hperm.eq_of_pairwise (fun _ _ _ _ hlt hgt => absurd hgt hlt.asymm) h h'

/-! ### What a selection reaches -/

/-- A selection takes the file at the end of a way from the directory `dir` and enters every
directory that the way leads through. -/
structure Selection.Reaches (s : Selection) (dir way : List String) : Prop where
  takes : ∀ name, way.getLast? = some name → s.takes name ("/".intercalate (dir ++ way)) = true
  enters : ∀ up name rest, way = up ++ name :: rest → rest ≠ [] →
    s.enters name ("/".intercalate (dir ++ (up ++ [name]))) = true

namespace Tree

variable {α : Type} {s : Selection} {dir way : List String} {name : String}
  {es : List (String × Tree α)} {t t' : Tree α}

theorem reaches_singleton :
    s.Reaches dir [name] ↔ s.takes name ("/".intercalate (dir ++ [name])) = true := by
  constructor
  · exact fun h => h.takes name rfl
  · intro h
    refine ⟨fun n hn => ?_, fun up n rest hway hrest => ?_⟩
    · cases hn
      exact h
    · cases up with
      | nil => exact absurd (List.cons.inj hway).2.symm hrest
      | cons u up => simp at hway

theorem reaches_cons (hway : way ≠ []) :
    s.Reaches dir (name :: way) ↔
      s.enters name ("/".intercalate (dir ++ [name])) = true ∧ s.Reaches (dir ++ [name]) way := by
  constructor
  · intro h
    refine ⟨h.enters [] name way rfl hway, fun n hn => ?_, fun up n rest heq hrest => ?_⟩
    · simpa using h.takes n (by rw [List.getLast?_cons_of_ne_nil hway, hn])
    · simpa using h.enters (name :: up) n rest (by simp [heq]) hrest
  · rintro ⟨henter, h⟩
    refine ⟨fun n hn => ?_, fun up n rest heq hrest => ?_⟩
    · simpa using h.takes n (by rw [← hn, List.getLast?_cons_of_ne_nil hway])
    · cases up with
      | nil =>
        obtain ⟨rfl, rfl⟩ := List.cons.inj heq
        exact henter
      | cons u up =>
        obtain ⟨rfl, rfl⟩ := List.cons.inj heq
        simpa using h.enters up n rest rfl hrest

/-! ### The walk -/

theorem pathIn_intercalate (hdir : ∀ n ∈ dir, Path.IsName n) :
    pathIn ("/".intercalate dir) name = "/".intercalate (dir ++ [name]) := by
  unfold pathIn
  by_cases hnil : dir = []
  · subst hnil
    simp
  · have hbelow : Path.IsBelow ("/".intercalate dir) := ⟨dir, hnil, hdir, rfl⟩
    rw [hbelow.isEmpty_eq, String.intercalate_append_of_ne_nil hnil (by simp)]
    simp

theorem scanEntries_eq (s : Selection) (directory : String) (es : List (String × Tree α)) :
    scanEntries s directory es =
      (es.filter fun e => e.2.isDirectory && s.enters e.1 (pathIn directory e.1)).map
        fun e => (e.1, scanAt s (pathIn directory e.1) e.2) := by
  induction es with
  | nil => rfl
  | cons e es ih =>
    obtain ⟨name, t⟩ := e
    rw [scanEntries, ih, List.filter_cons]
    split <;> rfl

theorem inNameOrder_map {β γ : Type} (f : String × β → γ) (xs : List (String × β)) :
    inNameOrder (xs.map fun x => (x.1, f x)) = (inNameOrder xs).map fun x => (x.1, f x) :=
  Eq.symm (List.map_mergeSort fun _ _ _ _ => rfl)

theorem mem_inNameOrder {β : Type} {xs : List (String × β)} {x : String × β} :
    x ∈ inNameOrder xs ↔ x ∈ xs := List.mem_mergeSort

theorem pairwise_inNameOrder {β : Type} {xs : List (String × β)} (h : (xs.map (·.1)).Nodup) :
    (inNameOrder xs).Pairwise fun x y => x.1 < y.1 := by
  have hle : (inNameOrder xs).Pairwise fun x y => !decide (y.1 < x.1) := by
    unfold inNameOrder
    refine List.pairwise_mergeSort (fun x y z hxy hyz => ?_) (fun x y => ?_) xs
    · simp only [Bool.not_eq_true', decide_eq_false_iff_not, String.not_lt] at hxy hyz ⊢
      exact String.le_trans hxy hyz
    · simp only [Bool.or_eq_true, Bool.not_eq_true', decide_eq_false_iff_not, String.not_lt]
      exact String.le_total x.1 y.1
  have hne : (inNameOrder xs).Pairwise fun x y => x.1 ≠ y.1 := by
    have hperm : ((inNameOrder xs).map (·.1)).Perm (xs.map (·.1)) :=
      (List.mergeSort_perm ..).map _
    exact List.pairwise_map.mp (hperm.nodup_iff.mpr h)
  refine (hle.and hne).imp fun hxy => ?_
  obtain ⟨hle, hne⟩ := hxy
  simp only [Bool.not_eq_true', decide_eq_false_iff_not, String.not_lt] at hle
  exact String.not_le.mp fun hyx => hne (String.le_antisymm hle hyx)

/-! ### Ways in the order of a walk -/

/-- The paths, seen from above the directory `dir`, of the ways below it with some property, in the
order of a walk. -/
def Walks (dir paths : List String) (P : List String → Prop) : Prop :=
  ∃ ways : List (List String), paths = ways.map (fun way => "/".intercalate (dir ++ way)) ∧
    ways.Pairwise Precedes ∧ ∀ way, way ∈ ways ↔ P way

namespace Walks

variable {paths paths' : List String} {P Q : List String → Prop}

theorem congr (h : Walks dir paths P) (hPQ : ∀ way, P way ↔ Q way) : Walks dir paths Q := by
  obtain ⟨ways, hpaths, horder, hmem⟩ := h
  exact ⟨ways, hpaths, horder, fun way => (hmem way).trans (hPQ way)⟩

theorem append (h : Walks dir paths P) (h' : Walks dir paths' Q)
    (hPQ : ∀ way way', P way → Q way' → Precedes way way') :
    Walks dir (paths ++ paths') fun way => P way ∨ Q way := by
  obtain ⟨ways, rfl, horder, hmem⟩ := h
  obtain ⟨ways', rfl, horder', hmem'⟩ := h'
  refine ⟨ways ++ ways', by rw [List.map_append], ?_, fun way => ?_⟩
  · refine List.pairwise_append.mpr ⟨horder, horder', fun way hway way' hway' => ?_⟩
    exact hPQ way way' ((hmem way).mp hway) ((hmem' way').mp hway')
  · rw [List.mem_append, hmem, hmem']

theorem inside (h : Walks (dir ++ [name]) paths P) :
    Walks dir paths fun way => ∃ rest, way = name :: rest ∧ P rest := by
  obtain ⟨ways, rfl, horder, hmem⟩ := h
  refine ⟨ways.map (name :: ·), by simp [Function.comp_def], ?_, fun way => ?_⟩
  · exact List.pairwise_map.mpr (horder.imp Precedes.inside)
  · simp only [List.mem_map, hmem]
    exact exists_congr fun rest => by rw [and_comm, eq_comm]

theorem nil (h : ∀ way, ¬ P way) : Walks dir [] P := ⟨[], rfl, .nil, fun way => by simp [h]⟩

theorem singleton (name : String) :
    Walks dir ["/".intercalate (dir ++ [name])] fun way => way = [name] :=
  ⟨[[name]], rfl, List.pairwise_singleton .., fun _ => List.mem_singleton⟩

/-- What lies in directories, one after another in the order of their names. -/
theorem flatMap {β : Type} {xs : List (String × β)} {f : String × β → List String}
    {P : String × β → List String → Prop} (hxs : xs.Pairwise fun x y => x.1 < y.1)
    (h : ∀ x ∈ xs, Walks (dir ++ [x.1]) (f x) (P x)) (hP : ∀ x ∈ xs, ∀ way, P x way → way ≠ []) :
    Walks dir (xs.flatMap f) fun way => ∃ x ∈ xs, ∃ rest, way = x.1 :: rest ∧ P x rest := by
  induction xs with
  | nil => exact nil (by simp)
  | cons x xs ih =>
    obtain ⟨hx, hxs⟩ := List.pairwise_cons.mp hxs
    obtain ⟨hfirst, hrest⟩ := List.forall_mem_cons.mp h
    obtain ⟨hPfirst, hPrest⟩ := List.forall_mem_cons.mp hP
    refine (hfirst.inside.append (ih hxs hrest hPrest) ?_).congr fun way => by simp
    rintro _ _ ⟨way, rfl, hway⟩ ⟨y, hy, way', rfl, hway'⟩
    exact .directory (hx y hy) (hPfirst way hway) (hPrest y hy way' hway')

/-- The files of a directory, in the order of their names. -/
theorem map {β : Type} {xs : List (String × β)} (hxs : xs.Pairwise fun x y => x.1 < y.1) :
    Walks dir (xs.map fun x => "/".intercalate (dir ++ [x.1])) fun way =>
      ∃ x ∈ xs, way = [x.1] := by
  induction xs with
  | nil => exact nil (by simp)
  | cons x xs ih =>
    obtain ⟨hx, hxs⟩ := List.pairwise_cons.mp hxs
    refine ((singleton x.1).append (ih hxs) ?_).congr fun way => by simp
    rintro _ _ rfl ⟨y, hy, rfl⟩
    exact .file (hx y hy)

end Walks

/-! ### What a scan finds -/

/-- The way leads from the directory `dir`, at which the tree lies, to a file that is reached. -/
structure Finds (t : Tree α) (s : Selection) (dir way : List String) : Prop where
  ne_nil : way ≠ []
  file : ∃ content, t.find? way = some (.file content)
  reaches : s.Reaches dir way

theorem walks_takenFiles (hd : (es.map (·.1)).Nodup) (hdir : ∀ n ∈ dir, Path.IsName n) :
    Walks dir (takenFiles s ("/".intercalate dir) es) fun way =>
      ∃ name content, (name, .file content) ∈ es ∧ way = [name] ∧ s.Reaches dir way := by
  unfold takenFiles
  simp only [pathIn_intercalate hdir, List.filter_filter]
  refine (Walks.map ((pairwise_inNameOrder hd).filter _)).congr fun way => ?_
  simp only [List.mem_filter, mem_inNameOrder, Bool.and_eq_true, Bool.not_eq_true']
  constructor
  · rintro ⟨⟨name, t⟩, ⟨he, htakes, hfile⟩, rfl⟩
    cases t with
    | file content => exact ⟨name, content, he, rfl, reaches_singleton.mpr htakes⟩
    | directory es => cases hfile
  · rintro ⟨name, content, he, rfl, hreach⟩
    exact ⟨(name, .file content), ⟨he, reaches_singleton.mp hreach, rfl⟩, rfl⟩

theorem scanAt_directory (hdir : ∀ n ∈ dir, Path.IsName n) :
    scanAt s ("/".intercalate dir) (.directory es) =
      takenFiles s ("/".intercalate dir) es ++
        (inNameOrder (es.filter fun e =>
          e.2.isDirectory && s.enters e.1 ("/".intercalate (dir ++ [e.1])))).flatMap fun e =>
            scanAt s ("/".intercalate (dir ++ [e.1])) e.2 := by
  rw [scanAt, scanEntries_eq]
  simp only [pathIn_intercalate hdir]
  rw [inNameOrder_map (fun e => scanAt s ("/".intercalate (dir ++ [e.1])) e.2), List.flatMap_map]

theorem finds_directory (hd : (es.map (·.1)).Nodup) :
    (directory es).Finds s dir way ↔
      (∃ name content, (name, .file content) ∈ es ∧ way = [name] ∧ s.Reaches dir way) ∨
        ∃ e, (e ∈ es ∧ e.2.isDirectory = true ∧
          s.enters e.1 ("/".intercalate (dir ++ [e.1])) = true) ∧
            ∃ rest, way = e.1 :: rest ∧ e.2.Finds s (dir ++ [e.1]) rest := by
  constructor
  · rintro ⟨hne, ⟨content, hfile⟩, hreach⟩
    obtain ⟨name, rest, rfl⟩ := List.exists_cons_of_ne_nil hne
    obtain ⟨t, hchild, hfile⟩ := Option.bind_eq_some_iff.mp hfile
    have he := (child?_eq_some hd).mp hchild
    cases rest with
    | nil =>
      cases hfile
      exact .inl ⟨name, content, he, rfl, hreach⟩
    | cons n rest =>
      obtain ⟨henter, hreach⟩ := (reaches_cons (List.cons_ne_nil _ _)).mp hreach
      cases t with
      | file c => simp [find?_file_cons] at hfile
      | directory es' =>
        exact .inr ⟨(name, .directory es'), ⟨he, rfl, henter⟩, n :: rest, rfl,
          List.cons_ne_nil _ _, ⟨content, hfile⟩, hreach⟩
  · rintro (⟨name, content, he, rfl, hreach⟩ | ⟨e, ⟨he, -, henter⟩, rest, rfl, hrest⟩)
    · have hchild := (child?_eq_some hd).mpr he
      exact ⟨List.cons_ne_nil _ _, ⟨content, by rw [find?, hchild]; rfl⟩, hreach⟩
    · have hchild := (child?_eq_some hd).mpr he
      obtain ⟨hne, ⟨content, hfile⟩, hreach⟩ := hrest
      exact ⟨List.cons_ne_nil _ _, ⟨content, by rw [find?, hchild]; exact hfile⟩,
        (reaches_cons hne).mpr ⟨henter, hreach⟩⟩

/-- A scan below the directory `dir` finds what the selection reaches, in the order of a walk. -/
theorem walks_scanAt (hn : t.Named) (hd : t.Distinct) (hdir : ∀ n ∈ dir, Path.IsName n) :
    Walks dir (scanAt s ("/".intercalate dir) t) (t.Finds s dir) := by
  induction t using Tree.induction generalizing dir with
  | file content =>
    rw [scanAt]
    refine .nil fun way hway => ?_
    obtain ⟨hne, ⟨c, hfile⟩, -⟩ := hway
    cases way with
    | nil => exact hne rfl
    | cons name way => simp [find?_file_cons] at hfile
  | directory es ih =>
    obtain ⟨hnames, hdistinct⟩ := hd
    rw [scanAt_directory hdir]
    refine ((walks_takenFiles hnames hdir).append
      (.flatMap (P := fun e => e.2.Finds s (dir ++ [e.1])) ?_ ?_ ?_) ?_).congr ?_
    · refine pairwise_inNameOrder ?_
      exact hnames.sublist (List.filter_sublist.map _)
    · intro e he
      have he := (List.mem_filter.mp (mem_inNameOrder.mp he)).1
      have hname := namedEntries_iff.mp hn e he
      refine ih e he hname.2 (distinctEntries_iff.mp hdistinct e he) ?_
      exact List.forall_mem_append.mpr ⟨hdir, List.forall_mem_singleton.mpr hname.1⟩
    · exact fun e _ way hway => hway.ne_nil
    · rintro _ _ ⟨name, content, -, rfl, -⟩ ⟨e, -, way, rfl, hway⟩
      exact .above hway.ne_nil
    · simpa only [mem_inNameOrder, List.mem_filter, Bool.and_eq_true] using
        fun way => (finds_directory hnames).symm

theorem Named.isName_of_find? (h : t.Named) (hfind : t.find? way = some t') :
    ∀ n ∈ way, Path.IsName n := by
  induction way generalizing t with
  | nil => simp
  | cons name way ih =>
    obtain ⟨c, hchild, hfind⟩ := Option.bind_eq_some_iff.mp hfind
    refine List.forall_mem_cons.mpr ⟨?_, ih (h.child? hchild) hfind⟩
    cases t with
    | file content => cases hchild
    | directory es =>
      obtain ⟨before, after, rfl, -⟩ := List.lookup_eq_some_iff.mp hchild
      exact (namedEntries_iff.mp h (name, c) (by simp)).1

end Tree

/-! ### Scanners -/

/-- Only the last name of a path counts for its suffix. -/
theorem Path.suffix_intercalate {way : List String} {name : String} (h : ∀ n ∈ way, IsName n)
    (hlast : way.getLast? = some name) :
    (ofString ("/".intercalate way)).suffix = (ofString name).suffix := by
  have hname : ∀ n ∈ [name], IsPart n := by simpa using (h name (List.mem_of_getLast? hlast)).1
  have hpath := ofString_intercalate hname
  have hway := ofString_intercalate fun n hn => (h n hn).1
  rw [String.intercalate_singleton] at hpath
  simp [suffix, fileName, hway, hpath, hlast]

namespace Scanner

variable {α : Type} {s : Scanner} {extensions : List String} {t : Tree α} {file : String}
  {way : List String}

/-- A way below the root leads to a file that a scanner for some extensions is to find. -/
structure Wants (s : Scanner) (extensions : List String) (t : Tree α) (file : String)
    (way : List String) : Prop where
  path : file = "/".intercalate way
  isFile : ∃ content, t.find? way = some (.file content)
  suffix : Text.lower (Path.ofString file).suffix ∈ extensions.map Text.lower
  unclosed : ".git" ∉ way.dropLast
  kept : s.selection.ignores file false = false
  entered : ∀ up, up ≠ [] → up <+: way → up ≠ way →
    s.selection.ignores ("/".intercalate up) true = false

section Extensions

variable (hs : s.selection.extensions = extensions.map Text.lower)
include hs

theorem Wants.finds (hne : way ≠ []) (hn : t.Named) (h : s.Wants extensions t file way) :
    t.Finds s.selection [] way := by
  obtain ⟨content, hfind⟩ := h.isFile
  have hpath := h.path
  subst hpath
  refine ⟨hne, h.isFile, fun name hlast => ?_, fun up name rest hway hrest => ?_⟩
  · have hsuffix := h.suffix
    rw [Path.suffix_intercalate (hn.isName_of_find? hfind) hlast, ← hs] at hsuffix
    have hkept := h.kept
    simp [Selection.takes, hsuffix, hkept]
  · have hlast : way.dropLast = up ++ name :: rest.dropLast := by
      rw [hway, List.dropLast_append_of_ne_nil (List.cons_ne_nil _ _),
        List.dropLast_cons_of_ne_nil hrest]
    have hname : name ≠ ".git" := fun heq => h.unclosed (by simp [hlast, heq])
    have hentered := h.entered (up ++ [name]) (by simp) ⟨rest, by simp [hway]⟩
      (by simp [hway, Ne.symm hrest])
    simp [Selection.enters, Selection.closedDirectories, hname, hentered]

theorem wants_of_finds (hn : t.Named) (h : t.Finds s.selection [] way) :
    s.Wants extensions t ("/".intercalate way) way := by
  obtain ⟨hne, ⟨content, hfind⟩, hreach⟩ := h
  have hlast := List.getLast?_eq_some_getLast hne
  have htakes := hreach.takes _ hlast
  simp only [Selection.takes, List.nil_append, Bool.and_eq_true, List.contains_iff_mem,
    Bool.not_eq_true'] at htakes
  have henters : ∀ up name rest, way = up ++ name :: rest → rest ≠ [] →
      name ≠ ".git" ∧ s.selection.ignores ("/".intercalate (up ++ [name])) true = false := by
    intro up name rest hway hrest
    simpa [Selection.enters, Selection.closedDirectories] using hreach.enters up name rest hway hrest
  refine ⟨rfl, ⟨content, hfind⟩, ?_, fun hgit => ?_, htakes.2, fun up hup hpre hproper => ?_⟩
  · rw [Path.suffix_intercalate (hn.isName_of_find? hfind) hlast, ← hs]
    exact htakes.1
  · obtain ⟨up, rest, hdrop⟩ := List.append_of_mem hgit
    have hway : way = up ++ ".git" :: (rest ++ [way.getLast hne]) := by
      rw [← List.cons_append, ← List.append_assoc, ← hdrop, List.dropLast_append_getLast]
    exact (henters up ".git" _ hway (by simp)).1 rfl
  · obtain ⟨rest, rfl⟩ := hpre
    have hrest : rest ≠ [] := fun hnil => hproper (by simp [hnil])
    have hsplit := List.dropLast_append_getLast hup
    rw [← hsplit]
    exact (henters up.dropLast (up.getLast hup) rest (by rw [List.append_cons, hsplit]) hrest).2

variable {d : Disk Bytes} {es : List (String × Tree Bytes)}

/-- A scan returns the files below the root that the extensions and the patterns leave, each once,
in the order of a walk by names, however the directories are listed. -/
theorem files_exact (hroot : d.locate s.root = .ok (.directory es))
    (hn : (Tree.directory es).Named) (hd : (Tree.directory es).Distinct) :
    (s.files d).Nodup ∧
      (∀ file, file ∈ s.files d ↔ ∃ way, s.Wants extensions (.directory es) file way) ∧
        (∃ ways : List (List String), s.files d = ways.map ("/".intercalate ·) ∧
          ways.Pairwise Tree.Precedes) ∧
          ∀ d' t', d'.locate s.root = .ok t' → (Tree.directory es).Relisted t' →
            s.files d' = s.files d := by
  have hscan : ∀ {d : Disk Bytes} {t}, d.locate s.root = .ok t → s.files d = t.scan s.selection :=
    fun h => by rw [files, h]
  have hwalk : ∀ {t : Tree Bytes}, t.Named → t.Distinct →
      Tree.Walks [] (t.scan s.selection) (t.Finds s.selection []) :=
    fun hn hd => Tree.walks_scanAt hn hd (by simp)
  obtain ⟨ways, hpaths, horder, hmem⟩ := hwalk hn hd
  simp only [List.nil_append] at hpaths
  rw [hscan hroot, hpaths]
  refine ⟨?_, fun file => ?_, ⟨ways, rfl, horder⟩, fun d' t' hroot' hlisted => ?_⟩
  · refine List.pairwise_map.mpr (horder.imp_of_mem fun {way way'} hway hway' hlt heq => ?_)
    obtain ⟨-, ⟨_, hfind⟩, -⟩ := (hmem way).mp hway
    obtain ⟨-, ⟨_, hfind'⟩, -⟩ := (hmem way').mp hway'
    have hparts := Path.ofString_intercalate fun n h => (hn.isName_of_find? hfind n h).1
    rw [heq, Path.ofString_intercalate fun n h => (hn.isName_of_find? hfind' n h).1] at hparts
    exact hlt.ne (Path.mk.inj hparts).2.symm
  · constructor
    · intro hfile
      obtain ⟨way, hway, rfl⟩ := List.mem_map.mp hfile
      exact ⟨way, wants_of_finds hs hn ((hmem way).mp hway)⟩
    · rintro ⟨way, hway⟩
      have hne : way ≠ [] := by
        rintro rfl
        obtain ⟨content, hfind⟩ := hway.isFile
        cases hfind
      exact List.mem_map.mpr ⟨way, (hmem way).mpr (hway.finds hs hne hn), hway.path.symm⟩
  · obtain ⟨ways', hpaths', horder', hmem'⟩ := hwalk (hlisted.named hn) (hlisted.distinct hd)
    have hsame : ways' = ways := Tree.eq_of_precedes horder' horder fun way => by
      rw [hmem, hmem']
      exact ⟨fun h => ⟨h.ne_nil, by simpa only [hlisted.find?_eq_file hd] using h.file, h.reaches⟩,
        fun h => ⟨h.ne_nil, by simpa only [hlisted.find?_eq_file hd] using h.file, h.reaches⟩⟩
    rw [hscan hroot', hpaths', hsame]
    simp only [List.nil_append]

end Extensions

end Scanner

namespace Sample

/-- A directory with files below it that are not looked for, left out or out of the way. -/
def listing : List (String × Tree Bytes) :=
  [("src", .directory [("b.PY", .file []), ("a.py", .file []), ("a.md", .file [])]),
    (".git", .directory [("c.py", .file [])]),
    ("build", .directory [("kept", .directory [("d.py", .file [])])]),
    ("z.py", .file [])]

def scanner : Scanner := ⟨⟨"", []⟩, ⟨[".Py"].map Text.lower, ["build/"]⟩⟩

def disk (es : List (String × Tree Bytes)) : Disk Bytes := ⟨.directory es, []⟩

theorem locate_disk (es : List (String × Tree Bytes)) :
    (disk es).locate scanner.root = .ok (.directory es) := by
  have hname : scanner.root.toString.toList.contains '\x00' = false := by decide
  simp only [Disk.locate, Disk.way, hname]
  rfl

theorem named_listing : (Tree.directory listing).Named := by
  simp only [listing, Tree.Named, Tree.NamedEntries]
  and_intros <;> decide

theorem distinct_listing : (Tree.directory listing).Distinct := by
  simp only [listing, Tree.Distinct, Tree.DistinctEntries]
  decide

end Sample

/-- The capital extension is found and what lies below a directory that is left out is not; another
order of the listing makes no difference. -/
theorem Scanner.files_exact_sample :
    (Sample.scanner.files (Sample.disk Sample.listing)).Nodup ∧
      "src/b.PY" ∈ Sample.scanner.files (Sample.disk Sample.listing) ∧
      "build/kept/d.py" ∉ Sample.scanner.files (Sample.disk Sample.listing) ∧
      Sample.scanner.files (Sample.disk Sample.listing.reverse) =
        Sample.scanner.files (Sample.disk Sample.listing) := by
  obtain ⟨honce, hwants, -, hsame⟩ := @files_exact Sample.scanner [".Py"] rfl
    (Sample.disk Sample.listing) Sample.listing (Sample.locate_disk _) Sample.named_listing
    Sample.distinct_listing
  refine ⟨honce, (hwants _).mpr ⟨["src", "b.PY"], ?_⟩, fun hfile => ?_, ?_⟩
  · refine ⟨by decide, ⟨[], rfl⟩, by decide +kernel, by decide, by decide +kernel, ?_⟩
    have hups : ∀ up ∈ ["src", "b.PY"].inits, up ≠ [] → up ≠ ["src", "b.PY"] →
        Sample.scanner.selection.ignores ("/".intercalate up) true = false := by decide +kernel
    exact fun up hne hpre hproper => hups up ((List.mem_inits ..).mpr hpre) hne hproper
  · obtain ⟨way, hway⟩ := (hwants _).mp hfile
    obtain ⟨content, hfind⟩ := hway.isFile
    have hparts := Path.ofString_intercalate fun n h =>
      (Sample.named_listing.isName_of_find? hfind n h).1
    rw [← hway.path, (by decide +kernel :
      Path.ofString "build/kept/d.py" = ⟨"", ["build", "kept", "d.py"]⟩)] at hparts
    obtain ⟨-, rfl⟩ := Path.mk.inj hparts
    have hbuild := hway.entered ["build"] (by simp) ⟨["kept", "d.py"], rfl⟩ (by simp)
    exact absurd hbuild (by decide +kernel)
  · exact hsame _ _ (Sample.locate_disk _) (.here (List.reverse_perm _).symm)

end BlockIndex
