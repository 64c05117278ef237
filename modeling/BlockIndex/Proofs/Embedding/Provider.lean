import BlockIndex.Embedding.Provider

/-! What a run relies on in a provider: it gives one vector for each text, and each vector answers
the text of its place.  A provider that asks a service keeps the count, because answers with another
count are refused. -/

namespace BlockIndex

namespace Provider

/-- A provider gives one vector for each text. -/
def KeepsCount (p : Provider) : Prop :=
  ∀ earlier texts timeout vs, (p earlier texts timeout).vectors = .ok vs → vs.length = texts.length

/-- A provider fails only by refusing. -/
def OnlyRefuses (p : Provider) : Prop :=
  ∀ earlier texts timeout e, (p earlier texts timeout).vectors = .error e →
    ∃ refusal, e = .provider refusal

/-- Whatever it is asked, a provider gives each text the vector that a function gives it. -/
def Computes (p : Provider) (g : String → Vector) : Prop :=
  ∀ earlier texts timeout, (p earlier texts timeout).vectors = .ok (texts.map g)

/-- No request takes a provider longer than so many ticks. -/
def TakesAtMost (p : Provider) (cost : Int) : Prop :=
  ∀ earlier texts timeout, (p earlier texts timeout).cost ≤ cost

/-- Of the requests that were made, request `i` brought a vector for a text. -/
def Answers (p : Provider) (calls : Array ProviderCall) (i : Nat) (e : String × Vector) : Prop :=
  ∃ call vs, calls[i]? = some call ∧ (p i call.texts call.timeout).vectors = .ok vs ∧
    e ∈ call.texts.zip vs

variable {p : Provider} {g : String → Vector} {calls : Array ProviderCall} {i : Nat}
  {e : String × Vector}

theorem Computes.onlyRefuses (h : p.Computes g) : p.OnlyRefuses := by
  intro earlier texts timeout e he
  rw [h] at he
  cases he

theorem Computes.keepsCount (h : p.Computes g) : p.KeepsCount := by
  intro earlier texts timeout vs hvs
  rw [h] at hvs
  cases hvs
  exact List.length_map g

/-- A later request takes back no answer. -/
theorem Answers.push (h : p.Answers calls i e) (call : ProviderCall) :
    p.Answers (calls.push call) i e := by
  obtain ⟨c, vs, hc, hr, he⟩ := h
  have hi : i < calls.size := (Array.getElem?_eq_some_iff.mp hc).choose
  exact ⟨c, vs, by rw [Array.getElem?_push_lt hi, ← hc, Array.getElem?_eq_getElem hi], hr, he⟩

theorem answers_push {texts : List String} {timeout : Int} {vs : List Vector}
    (hr : (p calls.size texts timeout).vectors = .ok vs) (he : e ∈ texts.zip vs) :
    p.Answers (calls.push ⟨texts, timeout⟩) calls.size e :=
  ⟨⟨texts, timeout⟩, vs, Array.getElem?_push_size, hr, he⟩

end Provider

/-! ### Services -/

namespace Service

theorem bind_eq_ok {α β ε : Type} {x : Except ε α} {g : α → Except ε β} {b : β}
    (h : x >>= g = .ok b) : ∃ a, x = .ok a ∧ g a = .ok b := by
  cases x with
  | error e => cases h
  | ok a => exact ⟨a, rfl, h⟩

theorem length_of_mapM {α β ε : Type} {g : α → Except ε β} {xs : List α} {ys : List β}
    (h : xs.mapM g = .ok ys) : ys.length = xs.length := by
  induction xs generalizing ys with
  | nil =>
    cases h
    rfl
  | cons x xs ih =>
    rw [List.mapM_cons] at h
    obtain ⟨y, -, h⟩ := bind_eq_ok h
    obtain ⟨zs, hz, h⟩ := bind_eq_ok h
    cases h
    simp [ih hz]

theorem length_insertKeyed {x : Json × Json} {xs ys : List (Json × Json)}
    (h : insertKeyed x xs = some ys) : ys.length = xs.length + 1 := by
  induction xs generalizing ys with
  | nil =>
    cases h
    rfl
  | cons y xs ih =>
    obtain ⟨b, -, h⟩ := Option.bind_eq_some_iff.mp h
    cases b with
    | false =>
      cases h
      rfl
    | true =>
      obtain ⟨zs, hz, rfl⟩ := Option.map_eq_some_iff.mp h
      simp [ih hz]

theorem length_foldlM_insertKeyed {xs done ys : List (Json × Json)}
    (h : xs.foldlM (fun done x => insertKeyed x done) done = some ys) :
    ys.length = done.length + xs.length := by
  induction xs generalizing done with
  | nil =>
    cases h
    rfl
  | cons x xs ih =>
    rw [List.foldlM_cons] at h
    obtain ⟨next, hn, h⟩ := Option.bind_eq_some_iff.mp h
    rw [ih h, length_insertKeyed hn, List.length_cons]
    omega

theorem length_sortKeyed {xs ys : List (Json × Json)} (h : sortKeyed xs = some ys) :
    ys.length = xs.length := by
  obtain ⟨zs, hz, rfl⟩ := Option.map_eq_some_iff.mp h
  simpa using length_foldlM_insertKeyed hz

theorem length_readAll {count : Nat} {o : Outcome} {vs : List Vector}
    (h : readAll count o = .ok vs) : vs.length = count := by
  obtain ⟨ms, -, h⟩ := bind_eq_ok h
  split at h
  · cases h
  · next xs _ =>
    split at h
    · cases h
    · next hc =>
      obtain ⟨keys, hk, h⟩ := bind_eq_ok h
      split at h
      · cases h
      · next sorted hs =>
        rw [length_of_mapM h, length_sortKeyed hs, List.length_zip, length_of_mapM hk]
        simpa using hc

/-- A provider that asks a service gives one vector for each text. -/
theorem keepsCount_provider (s : Service) (send : Request → Outcome) (cost : Int) :
    (s.provider send cost).KeepsCount := by
  intro earlier texts timeout vs h
  unfold Service.provider at h
  simp only at h
  split at h
  · next text =>
    obtain ⟨v, hv, rfl⟩ : ∃ v, (s.embed send text timeout).2 = .ok v ∧ [v] = vs := by
      cases hv : (s.embed send text timeout).2 with
      | error e => simp [hv, Except.map] at h
      | ok v => exact ⟨v, rfl, by simpa [hv, Except.map] using h⟩
    rfl
  · unfold embedAll at h
    split at h
    · next he =>
      cases h
      simp [List.isEmpty_iff.mp he]
    · exact length_readAll h

end Service

namespace Sample

/-- A provider that refuses its first request. -/
def hesitant : Provider := fun earlier texts _ =>
  ⟨1, if earlier = 0 then .error (.provider (.refused "busy"))
    else .ok (texts.map fun text => [.whole text.length])⟩

theorem onlyRefuses_hesitant : hesitant.OnlyRefuses := by
  intro earlier texts timeout e he
  unfold hesitant at he
  split at he
  · cases he
    exact ⟨_, rfl⟩
  · cases he

theorem keepsCount_hesitant : hesitant.KeepsCount := by
  intro earlier texts timeout vs hvs
  unfold hesitant at hvs
  split at hvs
  · cases hvs
  · cases hvs
    exact List.length_map _

end Sample

end BlockIndex
