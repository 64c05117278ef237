import BlockIndex.Extract.Languages
import BlockIndex.Proofs.Extract.Yield

/-! The extractors that come with the program note the path that they are given in every block, and
so does each registry that is built of them (`Registry.keepsPaths_ofExtensions`). -/

namespace BlockIndex

namespace Extract

variable {path : String} {ls : List String} {b : Block}

theorem Language.path_of_blockAt? {lang : Language} {scope : Option Scope} {i : Nat}
    {line : String} (hb : lang.blockAt? path ls scope i line = some b) : b.path = path := by
  obtain ⟨d, -, hb⟩ := Option.bind_eq_some_iff.mp hb
  obtain ⟨span, -, rfl⟩ := Option.map_eq_some_iff.mp hb
  rfl

theorem Language.path_of_mem_blocksFrom {lang : Language} {rest : List String}
    {scope : Option Scope} {i : Nat} (hb : b ∈ lang.blocksFrom path ls scope i rest) :
    b.path = path := by
  induction rest generalizing scope i with
  | nil => cases hb
  | cons l rest ih =>
    unfold Language.blocksFrom at hb
    split at hb
    · exact ih hb
    · split at hb
      · exact ih hb
      · rcases List.mem_append.mp hb with hb | hb
        · exact path_of_blockAt? (Option.mem_toList.mp hb)
        · exact ih hb

theorem Language.path_of_mem_blocks {lang : Language} {content : String}
    (hb : b ∈ lang.blocks path content) : b.path = path :=
  path_of_mem_blocksFrom hb

theorem Go.path_of_mem_blocks {parse : Go.Parser} {content : String}
    (hb : b ∈ Go.blocks parse path content) : b.path = path := by
  obtain ⟨d, -, hb⟩ := List.mem_filterMap.mp hb
  obtain ⟨span, -, rfl⟩ := Option.map_eq_some_iff.mp hb
  rfl

theorem Plain.path_of_mem_blocks {limit : Int} {content : String}
    (hb : b ∈ Plain.blocks limit path content) : b.path = path := by
  obtain ⟨c, -, hb⟩ := List.mem_filterMap.mp hb
  obtain ⟨span, -, rfl⟩ := Option.map_eq_some_iff.mp hb
  rfl

end Extract

namespace Registry

open Extract

variable {parseGo : Go.Parser}

/-- Each extractor that comes with the program notes the path that it is given. -/
theorem keepsPath_of_mem_candidates {limit : Int} {e : Extractor}
    (he : e ∈ candidates parseGo limit) : e.KeepsPath := by
  intro path content bs hbs b hb
  simp only [candidates, List.mem_cons, List.not_mem_nil, or_false] at he
  rcases he with rfl | rfl | rfl | rfl | rfl <;> cases hbs
  · exact Language.path_of_mem_blocks hb
  · exact Language.path_of_mem_blocks hb
  · exact Language.path_of_mem_blocks hb
  · exact Go.path_of_mem_blocks hb
  · exact Plain.path_of_mem_blocks hb

/-- Enrolling adds none but the given extractors. -/
theorem mem_of_mem_enroll {extensions : List String} {r : Registry} {es : List Extractor}
    {e : Extractor} (he : e ∈ (enroll extensions r es).1.extractors) :
    e ∈ r.extractors ∨ e ∈ es := by
  induction es generalizing r with
  | nil => exact .inl he
  | cons e' es ih =>
    unfold enroll at he
    split at he
    · rcases ih he with he | he
      · unfold register at he
        split at he
        · exact .inl he
        · rcases List.mem_append.mp he with he | he
          · exact .inl he
          · exact .inr (List.mem_singleton.mp he ▸ List.mem_cons_self)
      · exact .inr (List.mem_cons_of_mem e' he)
    · exact (ih he).imp_right (List.mem_cons_of_mem e')

section OfExtensions

variable {extensions : List String} {limit : Int} {r : Registry} {log : List LogLine}

/-- A registry for some extensions has extractors that come with the program. -/
theorem mem_candidates_of_ofExtensions (h : ofExtensions parseGo extensions limit = .ok (r, log))
    {e : Extractor} (he : e ∈ r.extractors) : e ∈ candidates parseGo limit := by
  unfold ofExtensions at h
  split at h
  · cases h
  · have hr : (enroll extensions empty (candidates parseGo limit)).1 = r :=
      congrArg Prod.fst (Except.ok.inj h)
    rw [← hr] at he
    exact (mem_of_mem_enroll he).resolve_left fun hnil => nomatch hnil

/-- A registry for some extensions notes the paths that it is given. -/
theorem keepsPaths_ofExtensions (h : ofExtensions parseGo extensions limit = .ok (r, log)) :
    r.KeepsPaths :=
  fun _ he => keepsPath_of_mem_candidates (mem_candidates_of_ofExtensions h he)

/-- A registry for some extensions has no extractor for files without an extension. -/
theorem find?_empty (h : ofExtensions parseGo extensions limit = .ok (r, log)) :
    r.find? "" = none := by
  have hlower : Text.lower "" = "" := by decide +kernel
  refine List.find?_eq_none.mpr fun e he => ?_
  have hmem := mem_candidates_of_ofExtensions h he
  simp only [candidates, List.mem_cons, List.not_mem_nil, or_false] at hmem
  rw [Extractor.claims, hlower]
  rcases hmem with rfl | rfl | rfl | rfl | rfl <;>
    simp [Python.extractor, JavaScript.extractor, Php.extractor, Go.extractor, Plain.extractor,
      Plain.kinds]

end OfExtensions

end Registry

end BlockIndex
