import BlockIndex.Proofs.Tree.Names
import Mathlib.Data.List.Perm.Basic

/-! Listings of a tree.  A directory lists its entries in some order, and no name twice.  The same
tree may be listed in other orders (`Relisted`); what a way leads to does not depend on them. -/

namespace BlockIndex.Tree

variable {α : Type} {t t' : Tree α} {es es' : List (String × Tree α)} {name : String}
  {way : List String} {content : α}

/-- What holds of files, and of a directory if it holds of what it lists, holds of every tree. -/
@[elab_as_elim]
theorem induction {P : Tree α → Prop} (file : ∀ content, P (.file content))
    (directory : ∀ es, (∀ e ∈ es, P e.2) → P (.directory es)) (t : Tree α) : P t :=
  @Tree.rec α P (fun es => ∀ e ∈ es, P e.2) (fun e => P e.2) file directory
    (fun _ he => nomatch he) (fun _ _ he hes => List.forall_mem_cons.mpr ⟨he, hes⟩)
    (fun _ _ h => h) t

mutual

/-- No directory lists a name twice. -/
def Distinct : Tree α → Prop
  | .file _ => True
  | .directory es => (es.map (·.1)).Nodup ∧ DistinctEntries es

def DistinctEntries : List (String × Tree α) → Prop
  | [] => True
  | (_, t) :: es => t.Distinct ∧ DistinctEntries es

end

/-- The same tree, with the entries of some directories listed in another order. -/
inductive Relisted : Tree α → Tree α → Prop
  | here {es es' : List (String × Tree α)} (h : es.Perm es') :
      Relisted (.directory es) (.directory es')
  | inside {es es' : List (String × Tree α)} {name : String} {t t' : Tree α} (h : Relisted t t') :
      Relisted (.directory (es ++ (name, t) :: es')) (.directory (es ++ (name, t') :: es'))
  | trans {t t' t'' : Tree α} (h : Relisted t t') (h' : Relisted t' t'') : Relisted t t''

theorem namedEntries_iff : NamedEntries es ↔ ∀ e ∈ es, Path.IsName e.1 ∧ e.2.Named := by
  induction es with
  | nil => simp [NamedEntries]
  | cons e es ih => simp only [NamedEntries, List.forall_mem_cons, ih, and_assoc]

theorem distinctEntries_iff : DistinctEntries es ↔ ∀ e ∈ es, e.2.Distinct := by
  induction es with
  | nil => simp [DistinctEntries]
  | cons e es ih => simp only [DistinctEntries, List.forall_mem_cons, ih]

/-! ### What a way leads to -/

/-- In a list that has no key twice looking up a key gives what stands with it. -/
theorem lookup_eq_some_iff_mem {β : Type} {es : List (String × β)} {key : String} {x : β}
    (h : (es.map (·.1)).Nodup) : es.lookup key = some x ↔ (key, x) ∈ es := by
  induction es with
  | nil => simp
  | cons e es ih =>
    obtain ⟨k, y⟩ := e
    obtain ⟨hnot, h⟩ := List.nodup_cons.mp h
    by_cases hk : key = k
    · subst hk
      have hnone : (key, x) ∉ es := fun he => hnot (List.mem_map.mpr ⟨(key, x), he, rfl⟩)
      simp [hnone, eq_comm]
    · have test : (key == k) = false := beq_eq_false_iff_ne.mpr hk
      simp [List.lookup_cons, test, ih h, hk]

/-- In a directory that lists no name twice a name leads to what is listed with it. -/
theorem child?_eq_some (h : (es.map (·.1)).Nodup) :
    (directory es).child? name = some t ↔ (name, t) ∈ es := lookup_eq_some_iff_mem h

theorem child?_congr (h : (es.map (·.1)).Nodup) (h' : (es'.map (·.1)).Nodup)
    (hmem : ∀ t, (name, t) ∈ es ↔ (name, t) ∈ es') :
    (directory es).child? name = (directory es').child? name :=
  Option.ext fun t => by rw [child?_eq_some h, child?_eq_some h', hmem]

/-- A way that is not at its end leads on only from a directory. -/
theorem find?_file_cons : (file content).find? (name :: way) = none := rfl

namespace Relisted

theorem distinct (h : t.Relisted t') (ht : t.Distinct) : t'.Distinct := by
  induction h with
  | here h =>
    obtain ⟨hnames, hbelow⟩ := ht
    refine ⟨(h.map _).nodup_iff.mp hnames, distinctEntries_iff.mpr fun e he => ?_⟩
    exact distinctEntries_iff.mp hbelow e (h.mem_iff.mpr he)
  | @inside es es' name t t' _ ih =>
    obtain ⟨hnames, hbelow⟩ := ht
    refine ⟨by simpa using hnames, distinctEntries_iff.mpr fun e he => ?_⟩
    have hbelow := distinctEntries_iff.mp hbelow
    rcases List.mem_append.mp he with he | he
    · exact hbelow e (by simp [he])
    · rcases List.mem_cons.mp he with rfl | he
      · exact ih (hbelow (name, t) (by simp))
      · exact hbelow e (by simp [he])
  | trans _ _ ih ih' => exact ih' (ih ht)

theorem named (h : t.Relisted t') (ht : t.Named) : t'.Named := by
  induction h with
  | here h =>
    refine namedEntries_iff.mpr fun e he => ?_
    exact namedEntries_iff.mp ht e (h.mem_iff.mpr he)
  | @inside es es' name t t' _ ih =>
    have ht := namedEntries_iff.mp ht
    refine namedEntries_iff.mpr fun e he => ?_
    rcases List.mem_append.mp he with he | he
    · exact ht e (by simp [he])
    · rcases List.mem_cons.mp he with rfl | he
      · obtain ⟨hname, hnamed⟩ := ht (name, t) (by simp)
        exact ⟨hname, ih hnamed⟩
      · exact ht e (by simp [he])
  | trans _ _ ih ih' => exact ih' (ih ht)

/-- The order in which entries are listed does not matter for what a way leads to. -/
theorem find?_eq_file (h : t.Relisted t') (ht : t.Distinct) :
    t.find? way = some (.file content) ↔ t'.find? way = some (.file content) := by
  induction h generalizing way with
  | @here es es' h =>
    cases way with
    | nil => simp [find?]
    | cons name way =>
      have hnames := (h.map (·.1)).nodup_iff.mp ht.1
      have hchild : (directory es).child? name = (directory es').child? name :=
        child?_congr ht.1 hnames fun t => h.mem_iff
      simp only [find?, hchild]
  | @inside es es' name t t' h ih =>
    have ht' := (Relisted.inside h).distinct ht
    have hbelow : t.Distinct := distinctEntries_iff.mp ht.2 (name, t) (by simp)
    cases way with
    | nil => simp [find?]
    | cons n way =>
      by_cases hn : n = name
      · subst hn
        have hchild := (child?_eq_some ht.1).mpr
          (show (n, t) ∈ es ++ (n, t) :: es' by simp)
        have hchild' := (child?_eq_some ht'.1).mpr
          (show (n, t') ∈ es ++ (n, t') :: es' by simp)
        simpa only [find?, hchild, hchild', Option.bind_some] using ih hbelow
      · have hchild : (directory (es ++ (name, t) :: es')).child? n =
            (directory (es ++ (name, t') :: es')).child? n :=
          child?_congr ht.1 ht'.1 fun c => by simp [hn]
        simp only [find?, hchild]
  | trans h _ ih ih' => exact (ih ht).trans (ih' (h.distinct ht))

end Relisted

end BlockIndex.Tree
