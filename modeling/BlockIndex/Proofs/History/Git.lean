import BlockIndex.History.Git
import BlockIndex.Proofs.Text.Rows
import Mathlib.Algebra.Order.BigOperators.Group.List
import Mathlib.Algebra.Order.Group.Nat

/-! The subjects in what git prints.  A subject that no character inside it divides is one message;
every other one is read as several (`one_message_each_iff`), so that there can be more messages than
commits were asked for. -/

namespace BlockIndex

/-- Lists put together are equal exactly if they are pairwise equal, if those of one side are never
the longer ones. -/
theorem flatMap_eq_flatMap_iff {α β : Type} {f g : α → List β} {xs : List α}
    (h : ∀ x ∈ xs, (g x).length ≤ (f x).length) :
    xs.flatMap f = xs.flatMap g ↔ ∀ x ∈ xs, f x = g x := by
  induction xs with
  | nil => simp
  | cons x xs ih =>
    obtain ⟨hx, hxs⟩ := List.forall_mem_cons.mp h
    rw [List.flatMap_cons, List.flatMap_cons, List.forall_mem_cons, ← ih hxs]
    constructor
    · intro heq
      have hrest : (xs.flatMap g).length ≤ (xs.flatMap f).length := by
        rw [List.length_flatMap, List.length_flatMap]
        exact List.sum_le_sum fun y hy => hxs y hy
      have hlen := congrArg List.length heq
      rw [List.length_append, List.length_append] at hlen
      exact List.append_inj heq (by omega)
    · rintro ⟨hx, hrest⟩
      rw [hx, hrest]

namespace Git

open Text

variable {git : Git} {root path : Path} {file errors : String} {commits : Int} {ss : List String}

/-- What git prints for subjects, one on each line. -/
def printed (ss : List String) : String := String.ofList (ss.flatMap fun s => s.toList ++ ['\n'])

/-- The messages that subjects are: a subject without the blank characters around it, unless it is
blank. -/
def messages (ss : List String) : List String :=
  ss.flatMap fun s => (stripped s.toList).map String.ofList

/-- The messages that are read of a subject. -/
def messagesOf (s : String) : List String := (rowTexts s.toList).map String.ofList

theorem subjects_eq (output : String) : subjects output = messagesOf output := by
  have hrows : (rows output).map (fun r => strip r.toList) =
      (rowChars (unifyLineEnds output.toList)).map strip := by
    simp [rows, Function.comp_def]
  rw [messagesOf, ← rowTexts_unifyLineEnds, subjects, hrows, rowTexts]

/-- The messages of printed subjects are those of each subject in turn. -/
theorem subjects_printed (ss : List String) : subjects (printed ss) = ss.flatMap messagesOf := by
  rw [subjects_eq, messagesOf, printed, String.toList_ofList]
  induction ss with
  | nil => rfl
  | cons s ss ih =>
    have hsplit : (s.toList ++ ['\n']) ++ ss.flatMap (fun s => s.toList ++ ['\n']) =
        s.toList ++ '\n' :: ss.flatMap fun s => s.toList ++ ['\n'] := by
      rw [List.append_assoc, List.singleton_append]
    rw [List.flatMap_cons, hsplit, rowTexts_append_cons rfl, List.map_append, ih,
      List.flatMap_cons, messagesOf]

theorem map_ofList_inj {xs ys : List (List Char)} :
    xs.map String.ofList = ys.map String.ofList ↔ xs = ys :=
  List.map_inj_right fun _ _ h => String.ofList_injective h

theorem length_messages_le (ss : List String) : (messages ss).length ≤ ss.length := by
  induction ss with
  | nil => exact Nat.le_refl 0
  | cons s ss ih =>
    have hone : (stripped s.toList).length ≤ 1 := List.length_filter_le _ _
    have hcons : (messages (s :: ss)).length =
        (stripped s.toList).length + (messages ss).length := by
      simp [messages]
    rw [hcons, List.length_cons]
    omega

theorem lastCommits_of_finished {output : String} (hpath : pathIn root file = .ok path)
    (hgit : git (logOf commits path) = .finished 0 output errors) :
    (git.lastCommits root file commits).2 = .ok (subjects output) := by
  simp [lastCommits, hpath, hgit]

/-- When git prints subjects, one on each line, the messages are those of each subject in turn.
They are the subjects that are not blank, each stripped, exactly if no subject holds the end of a
row between characters that are not blank; and then there are no more than were asked for. -/
theorem one_message_each_iff (hpath : pathIn root file = .ok path)
    (hgit : git (logOf commits path) = .finished 0 (printed ss) errors)
    (hlen : (ss.length : Int) ≤ commits) :
    (git.lastCommits root file commits).2 = .ok (ss.flatMap messagesOf) ∧
      ((git.lastCommits root file commits).2 = .ok (messages ss) ↔
        ∀ s ∈ ss, ∀ c ∈ strip s.toList, endsRow c = false) ∧
      ((messages ss).length : Int) ≤ commits := by
  have hall : (git.lastCommits root file commits).2 = .ok (ss.flatMap messagesOf) := by
    rw [lastCommits_of_finished hpath hgit, subjects_printed]
  have hle : ∀ s ∈ ss, ((stripped s.toList).map String.ofList).length ≤ (messagesOf s).length := by
    intro s _
    rw [messagesOf, List.length_map, List.length_map]
    exact length_stripped_le s.toList
  refine ⟨hall, ?_, ?_⟩
  · rw [hall, Except.ok.injEq, messages, flatMap_eq_flatMap_iff hle]
    refine forall₂_congr fun s _ => ?_
    rw [messagesOf, map_ofList_inj, rowTexts_eq_stripped_iff]
  · have hmost := length_messages_le ss
    omega

namespace Sample

/-- A git that prints the same for every command. -/
def printing (output : String) : Git := fun _ => .finished 0 output ""

theorem pathIn_repo : pathIn ⟨"/", ["repo"]⟩ "a.py" = .ok ⟨"", ["a.py"]⟩ := by
  have hpath : Path.ofString "a.py" = ⟨"", ["a.py"]⟩ := by decide +kernel
  rw [pathIn, hpath]
  rfl

end Sample

theorem one_message_each_iff_sample :
    let ss := ["fix parser", " ", "add\ttests\r"]
    let git := Sample.printing (printed ss)
    (∀ s ∈ ss, ∀ c ∈ strip s.toList, endsRow c = false) ∧
      messages ss = ["fix parser", "add\ttests"] ∧
      (git.lastCommits ⟨"/", ["repo"]⟩ "a.py" 3).2 = .ok ["fix parser", "add\ttests"] := by
  intro ss git
  have hnone : (ss.any fun s => (strip s.toList).any endsRow) = false := by decide +kernel
  have hplain : ∀ s ∈ ss, ∀ c ∈ strip s.toList, endsRow c = false := by
    intro s hs c hc
    have hs' := Bool.eq_false_iff.mpr (List.any_eq_false.mp hnone s hs)
    exact Bool.eq_false_iff.mpr (List.any_eq_false.mp hs' c hc)
  have hmessages : messages ss = ["fix parser", "add\ttests"] := by decide +kernel
  refine ⟨hplain, hmessages, ?_⟩
  rw [← hmessages]
  exact (one_message_each_iff Sample.pathIn_repo rfl (by decide)).2.1.mpr hplain

/-- A subject with a line separator inside it is read as two messages, though one commit was asked
for. -/
theorem subject_divided :
    let ss := ["fix\u2028parser"]
    let git := Sample.printing (printed ss)
    (∀ s ∈ ss, '\n' ∉ s.toList) ∧ ss.length = 1 ∧ messages ss = ss ∧
      (git.lastCommits ⟨"/", ["repo"]⟩ "a.py" 1).2 = .ok ["fix", "parser"] := by
  intro ss git
  have hsubjects : subjects (printed ss) = ["fix", "parser"] := by decide +kernel
  refine ⟨by decide +kernel, rfl, by decide +kernel, ?_⟩
  rw [lastCommits_of_finished Sample.pathIn_repo rfl, hsubjects]

end Git

end BlockIndex
