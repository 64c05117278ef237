import BlockIndex.Proofs.Run.Detection
import BlockIndex.Proofs.Tree.Names
import Mathlib.Control.Basic

/-! Detection on paths as they are given.  A path that is no text is never processed: it is skipped if
its file cannot be read or the store refuses to look it up, and otherwise it ends detection
(`JudgedGiven`).  What becomes of the store is what becomes of it when only the paths that are texts
are given (`Each.texts`). -/

namespace BlockIndex

variable {f : Faults} {disk : Disk Bytes} {raw : RawFiles} {root : Path} {s s' : Store}
  {q : GivenPath} {files : List GivenPath} {ws : List Verdict} {w : Verdict} {text : String}

/-! ### Texts -/

namespace GivenPath

theorem mapM_char?_eq_some {cs : List Char} :
    q.mapM PathUnit.char? = some cs ↔ q = cs.map .char := by
  induction q generalizing cs with
  | nil => cases cs <;> simp
  | cons u q ih =>
    rw [List.mapM_cons, Option.bind_eq_bind, Option.bind_eq_some_iff]
    cases u with
    | byte b =>
      have hnone : ∀ c, PathUnit.char? (.byte b) ≠ some c := fun c => nofun
      cases cs <;> simp [hnone]
    | char c =>
      simp only [PathUnit.char?, Option.some.injEq, exists_eq_left', Option.bind_eq_bind,
        Option.bind_eq_some_iff, ih]
      cases cs with
      | nil => simp
      | cons d cs =>
        simp only [Option.pure_def, Option.some.injEq, List.cons.injEq, List.map_cons]
        constructor
        · rintro ⟨cs', rfl, rfl, rfl⟩
          exact ⟨rfl, rfl⟩
        · rintro ⟨hc, rfl⟩
          exact ⟨cs, rfl, PathUnit.char.inj hc, rfl⟩

theorem text?_eq_some_iff : q.text? = some text ↔ q = ofText text := by
  unfold text? ofText
  rw [Option.map_eq_some_iff]
  constructor
  · rintro ⟨cs, hcs, rfl⟩
    rw [String.toList_ofList]
    exact mapM_char?_eq_some.mp hcs
  · intro h
    exact ⟨text.toList, mapM_char?_eq_some.mpr h, String.ofList_toList⟩

@[simp] theorem text?_ofText (text : String) : (ofText text).text? = some text :=
  text?_eq_some_iff.mpr rfl

@[simp] theorem shown_ofText (text : String) : (ofText text).shown = text := by
  have hchars : text.toList.flatMap (fun c => [c]) = text.toList := by simp
  rw [ofText, shown, List.flatMap_map]
  exact (congrArg String.ofList hchars).trans String.ofList_toList

/-- The paths that are texts. -/
def texts (files : List GivenPath) : List String := files.filterMap text?

/-- Detection goes past a path: it is a text without the character that ends a name, or its file
cannot be read. -/
def IsSafe (root : Path) (raw : RawFiles) (q : GivenPath) : Prop :=
  match q.text? with
  | some text => '\x00' ∉ (root.below text).toString.toList
  | none => ∃ reason, raw q = .error (.refused reason)

end GivenPath

open GivenPath

/-- What may become of a path that is given. -/
inductive JudgedGiven (f : Faults) (disk : Disk Bytes) (raw : RawFiles) (root : Path)
    (q : GivenPath) (s : Store) : Verdict → Store → Prop
  | text {text : String} {w : Verdict} {s' : Store} (h : q.text? = some text)
      (safe : q.IsSafe root raw) (judged : JudgedFile f disk root text s w s') :
      JudgedGiven f disk raw root q s w s'
  | unreadable (h : q.text? = none) (safe : q.IsSafe root raw) :
      JudgedGiven f disk raw root q s .skipped s
  | unread {bytes : Bytes} (h : q.text? = none) (read : raw q = .ok bytes)
      (refused : s.Refuses f (.fingerprint q.shown)) : JudgedGiven f disk raw root q s .skipped s

theorem JudgedGiven.isClosed_eq (h : JudgedGiven f disk raw root q s w s') :
    s'.isClosed = s.isClosed := by
  cases h with
  | text _ _ judged => exact judged.isClosed_eq
  | unreadable _ _ => rfl
  | unread _ _ _ => rfl

/-- Detection went past each path, or the store may have refused to look it up. -/
theorem Each.isSafe_or_refused (h : Each (JudgedGiven f disk raw root) files s ws s')
    (hq : q ∈ files) : q.IsSafe root raw ∨
      q.text? = none ∧ (∃ bytes, raw q = .ok bytes) ∧ s.Refuses f (.fingerprint q.shown) := by
  induction h with
  | nil => cases hq
  | @cons a as b bs s t u head tail ih =>
    rcases List.mem_cons.mp hq with rfl | hq
    · cases head with
      | text _ safe _ => exact .inl safe
      | unreadable _ safe => exact .inl safe
      | unread hnone read refused => exact .inr ⟨hnone, ⟨_, read⟩, refused⟩
    · refine (ih hq).imp_right fun ⟨hnone, hread, hrefused⟩ => ⟨hnone, hread, ?_⟩
      rwa [Store.Refuses, head.isClosed_eq] at hrefused

theorem Each.isSafe_of_text (h : Each (JudgedGiven f disk raw root) files s ws s')
    (hq : q ∈ files) (htext : q.text? = some text) : q.IsSafe root raw := by
  rcases h.isSafe_or_refused hq with hsafe | ⟨hnone, -⟩
  · exact hsafe
  · cases hnone.symm.trans htext

/-- Judging given paths does to the store what judging those does that are texts, with the same
verdicts; the others are skipped. -/
theorem Each.texts (h : Each (JudgedGiven f disk raw root) files s ws s') :
    ∃ ws', Each (JudgedFile f disk root) (GivenPath.texts files) s ws' s' ∧
      (∀ text w, (text, w) ∈ (GivenPath.texts files).zip ws' ↔ (ofText text, w) ∈ files.zip ws) ∧
      ∀ q w, (q, w) ∈ files.zip ws → q.text? = none → w = .skipped := by
  induction h with
  | nil => exact ⟨[], .nil, by simp [GivenPath.texts], by simp⟩
  | @cons a as b bs s t u head tail ih =>
    obtain ⟨ws', heach, hmem, hskipped⟩ := ih
    have other (hnone : a.text? = none) (hb : b = .skipped) (ht : t = s) :
        ∃ ws', Each (JudgedFile f disk root) (GivenPath.texts (a :: as)) s ws' u ∧
          (∀ text w, (text, w) ∈ (GivenPath.texts (a :: as)).zip ws' ↔
            (ofText text, w) ∈ (a :: as).zip (b :: bs)) ∧
          ∀ q w, (q, w) ∈ (a :: as).zip (b :: bs) → q.text? = none → w = .skipped := by
      subst ht
      have hne (text : String) : ofText text ≠ a := by
        rintro rfl
        cases (text?_ofText text).symm.trans hnone
      refine ⟨ws', by simpa [GivenPath.texts, hnone] using heach, fun text w => ?_, ?_⟩
      · rw [show GivenPath.texts (a :: as) = GivenPath.texts as by simp [GivenPath.texts, hnone],
          hmem, List.zip_cons_cons, List.mem_cons]
        simp [hne text]
      · rintro q w hq hq'
        rcases List.mem_cons.mp hq with hq | hq
        · cases hq
          exact hb
        · exact hskipped q w hq hq'
    cases head with
    | @text text _ _ htext _ judged =>
      obtain rfl := text?_eq_some_iff.mp htext
      refine ⟨b :: ws', by simpa [GivenPath.texts] using Each.cons judged heach,
        fun text' w => ?_, ?_⟩
      · have hinj : ofText text' = ofText text ↔ text' = text := by
          rw [← text?_eq_some_iff, text?_ofText, Option.some.injEq, eq_comm]
        simp [GivenPath.texts, ← hmem, hinj]
      · rintro q w hq hq'
        rcases List.mem_cons.mp hq with hq | hq
        · cases hq
          cases htext.symm.trans hq'
        · exact hskipped q w hq hq'
    | unreadable hnone _ => exact other hnone rfl rfl
    | unread hnone _ _ => exact other hnone rfl rfl

namespace Run

variable {v : View}

theorem judge_of_badName {file : String} (h : disk.read (root.below file) = .error .badName) :
    judge disk root file = throw (.access .badName file) := by
  unfold judge
  simp only [show root.join (Path.ofString file) = root.below file from rfl, h]

theorem wp_judgeGiven {Q : Except Failure Verdict → View → Prop}
    (bad : ¬q.IsSafe root raw → ∀ e, Q (.error e) v)
    (h : ∀ w s', JudgedGiven f disk raw root q v.store w s' → Q (.ok w) { v with store := s' }) :
    wp f (judgeGiven disk raw root q) Q v := by
  unfold judgeGiven
  cases htext : q.text? with
  | some text =>
    dsimp only
    by_cases hname : '\x00' ∈ (root.below text).toString.toList
    · rw [judge_of_badName (Disk.read_eq_badName_iff.mpr hname)]
      exact wp_throw (bad (by simpa [IsSafe, htext] using hname) _)
    · have hsafe : q.IsSafe root raw := by simpa [IsSafe, htext] using hname
      refine wp_judge (fun hb => absurd (Disk.read_eq_badName_iff.mp hb) hname) fun w s' hj => ?_
      exact h w s' (.text htext hsafe hj)
  | none =>
    dsimp only
    unfold judgeRaw
    cases hraw : raw q with
    | error e =>
      cases e with
      | badName => exact wp_throw (bad (by simp [IsSafe, htext, hraw]) _)
      | refused reason =>
        have hsafe : q.IsSafe root raw := by simp [IsSafe, htext, hraw]
        exact wp_bind (wp_warn (wp_pure (h _ _ (.unreadable htext hsafe))))
    | ok bytes =>
      refine wp_bind (wp_attempt (wp_ask (fun hr e => ?_) (fun hl => nomatch hl) fun _ => ?_))
      · exact wp_bind (wp_warn (wp_pure (h _ _ (.unread htext hraw hr))))
      · exact wp_throw (bad (by simp [IsSafe, htext, hraw]) _)

theorem wp_detectGiven {Q : Except Failure (ChangeReport GivenPath) → View → Prop}
    (bad : ∀ q ∈ files, ¬q.IsSafe root raw → ∀ e v', Q (.error e) v')
    (h : ∀ ws s', Each (JudgedGiven f disk raw root) files v.store ws s' →
      Q (.ok ⟨files.zip ws⟩) { v with store := s' }) :
    wp f (detectGiven disk raw root files) Q v :=
  wp_detectWith (E := fun q _ => ¬q.IsSafe root raw)
    (fun _ _ _ hfails hjudged => wp_judgeGiven (fun hq e => hfails e hq) hjudged)
    (fun _ _ _ _ _ q hq e he => bad q hq he e _) h

/-- Detection returns if it goes past each path. -/
theorem exists_detectGiven {w : World} (h : ∀ q ∈ files, q.IsSafe root raw) :
    ∃ r, (outcome (detectGiven disk raw root files) w).1 = .ok r := by
  have hreturns : wp w.faults (detectGiven disk raw root files) (fun r _ => ∃ report, r = .ok report)
      w.view :=
    wp_detectGiven (fun q hq hbad => absurd (h q hq) hbad) fun ws s' _ => ⟨_, rfl⟩
  exact hreturns.at_world

/-- What detection returns comes from judging the paths one after the other. -/
theorem detectGiven_each {w : World} {r : ChangeReport GivenPath}
    (h : (outcome (detectGiven disk raw root files) w).1 = .ok r) :
    ∃ ws, r = ⟨files.zip ws⟩ ∧ Each (JudgedGiven w.faults disk raw root) files w.store ws
      (outcome (detectGiven disk raw root files) w).2.store := by
  have hdetect : wp w.faults (detectGiven disk raw root files)
      (fun r v => ∀ report, r = .ok report → ∃ ws, report = ⟨files.zip ws⟩ ∧
        Each (JudgedGiven w.faults disk raw root) files w.store ws v.store) w.view := by
    refine wp_detectGiven (fun _ _ _ _ _ report hr => nomatch hr) fun ws s' he report hr => ?_
    cases hr
    exact ⟨ws, rfl, he⟩
  exact hdetect.at_world r h

/-! ### Detection on texts -/

theorem judgeAll_ofText (names : List String) :
    judgeAll (judgeGiven disk raw root) (names.map ofText) =
      List.map (Prod.map ofText id) <$> judgeAll (judge disk root) names := by
  induction names with
  | nil => simp [judgeAll]
  | cons name names ih =>
    have hjudge : judgeGiven disk raw root (ofText name) = judge disk root name := by
      simp [judgeGiven]
    simp [judgeAll, hjudge, ih, Prod.map]

/-- Where all paths are texts, detection on given paths is detection. -/
theorem detectGiven_ofText (names : List String) :
    detectGiven disk raw root (names.map ofText) =
      (fun r => ⟨r.verdicts.map (Prod.map ofText id)⟩) <$> detect disk root names := by
  have hfilter (p : Verdict → Bool) (vs : List (String × Verdict)) :
      ((vs.map (Prod.map ofText id)).filter fun e => p e.2).map (·.1) =
        (((vs.filter fun e => p e.2).map (·.1)).map ofText) := by
    rw [List.filter_map, List.map_map, List.map_map]
    rfl
  unfold detectGiven detect detectWith
  rw [judgeAll_ofText, map_bind]
  refine bind_congr fun _ => ?_
  rw [map_bind, bind_map_left]
  refine bind_congr fun vs => ?_
  have hprocessed : (⟨vs.map (Prod.map ofText id)⟩ : ChangeReport GivenPath).processed =
      ((⟨vs⟩ : ChangeReport).processed).map ofText := by
    exact hfilter Verdict.isProcessed vs
  have hsummary : (⟨vs.map (Prod.map ofText id)⟩ : ChangeReport GivenPath).summary =
      (⟨vs⟩ : ChangeReport).summary := by
    have hwith (v : Verdict) : (⟨vs.map (Prod.map ofText id)⟩ : ChangeReport GivenPath).filesWith v =
        ((⟨vs⟩ : ChangeReport).filesWith v).map ofText := by
      exact hfilter (fun w => w == v) vs
    unfold ChangeReport.summary
    simp only [hprocessed, hwith, List.length_map]
  simp [hprocessed, hsummary]

/-- Detection returns unless a path holds the character that ends a name. -/
theorem detect_returns_iff {names : List String} {w : World} :
    (∃ r, (outcome (detect disk root names) w).1 = .ok r) ↔
      ∀ name ∈ names, '\x00' ∉ (root.below name).toString.toList := by
  let raw : RawFiles := fun _ => .error .badName
  have hsafe (name : String) : (ofText name).IsSafe root raw ↔
      '\x00' ∉ (root.below name).toString.toList := by simp [IsSafe]
  have hgiven : (∃ r, (outcome (detect disk root names) w).1 = .ok r) ↔
      ∃ r, (outcome (detectGiven disk raw root (names.map ofText)) w).1 = .ok r := by
    rw [detectGiven_ofText, outcome_map]
    cases (outcome (detect disk root names) w).1 <;> simp [Except.map]
  rw [hgiven]
  constructor
  · rintro ⟨r, hr⟩ name hname
    obtain ⟨ws, -, he⟩ := detectGiven_each hr
    exact (hsafe name).mp (he.isSafe_of_text (List.mem_map_of_mem hname) (text?_ofText name))
  · intro hnames
    refine exists_detectGiven fun q hq => ?_
    obtain ⟨name, hname, rfl⟩ := List.mem_map.mp hq
    exact (hsafe name).mpr (hnames name hname)

end Run

end BlockIndex
