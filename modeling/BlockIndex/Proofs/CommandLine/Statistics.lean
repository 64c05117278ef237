import BlockIndex.Backend.Libraries
import BlockIndex.Proofs.Run.Backfill
import BlockIndex.Proofs.Run.Project

/-! Statistics of the stores that commands make.  However a store came about (`Built`), it holds only
vectors of the kind that the providers gave (`Store.Given`).  If these are not empty and finite, then
the statistics of the store can be computed if and only if all vectors have one length: vectors of
several models cannot be taken as one table.  Tables are the work of a library, of which no more is
taken for granted than `Magnitude.Arrays.Lawful` says. -/

namespace BlockIndex

/-- A provider gives only vectors of a kind. -/
def Provider.Gives (p : Provider) (P : Vector → Prop) : Prop :=
  ∀ earlier texts timeout vs, (p earlier texts timeout).vectors = .ok vs → ∀ x ∈ vs, P x

/-- A vector has components, and each is a finite number. -/
def Vector.IsFinite (x : Vector) : Prop :=
  x ≠ [] ∧ ∀ a ∈ x, ∃ negative m e, a.toDouble? = some (.finite negative m e)

/-- The store is open and all vectors in it are of a kind. -/
structure Store.Given (P : Vector → Prop) (s : Store) : Prop where
  isOpen : s.isClosed = false
  vectors : ∀ r ∈ s.rows, ∀ x, r.vector = some x → P x

variable {P : Vector → Prop} {s s' : Store} {f : Faults} {v v' : View} {ix : Indexer} {b : Block}

/-! ### The vectors that a store is given -/

namespace Store.Given

theorem empty : Store.Given P {} := ⟨rfl, fun _ hr => nomatch hr⟩

theorem of_subset (h : s.Given P) (hrows : s'.rows ⊆ s.rows) (hopen : s'.isClosed = s.isClosed) :
    s'.Given P :=
  ⟨hopen.trans h.isOpen, fun r hr => h.vectors r (hrows hr)⟩

theorem deleteBlocks {file : String} (h : s.Given P) : (s.deleteBlocks file).Given P :=
  h.of_subset List.filter_sublist.subset rfl

theorem save? {vec : Option Vector} {text : String} {id : Nat} (h : s.Given P)
    (hvec : ∀ x, vec = some x → P x) (hsave : s.save? b vec text = some (id, s')) :
    s'.Given P := by
  obtain ⟨-, -, rfl⟩ := Store.save?_eq_some.mp hsave
  refine ⟨h.isOpen, fun r hr x hx => ?_⟩
  rcases List.mem_append.mp hr with hr | hr
  · exact h.vectors r hr x hx
  · obtain rfl := List.mem_singleton.mp hr
    exact hvec x (Option.filter_eq_some_iff.mp hx).1

theorem setVector? {id : Nat} {x : Vector} (h : s.Given P) (hx : P x)
    (hs : s.setVector? id x = some s') : s'.Given P := by
  obtain rfl := Store.rows_setVector? hs
  refine ⟨h.isOpen, fun r hr y hy => ?_⟩
  obtain ⟨a, ha, rfl⟩ := List.mem_map.mp hr
  unfold Row.given at hy
  split at hy
  · cases hy
    exact hx
  · exact h.vectors a ha y hy

theorem pruned {current : List String} (hp : Pruned f current s s') (h : s.Given P) :
    s'.Given P := by
  cases hp with
  | unread _ => exact h
  | pruned he =>
    refine he.keeps (fun file _ s _ s' hf hs => ?_) h
    cases hf with
    | kept _ => exact hs
    | emptied _ => exact hs.deleteBlocks
    | forgotten => exact hs.deleteBlocks.of_subset (List.Subset.refl _) rfl

theorem judged {disk : Disk Bytes} {root : Path} {file : String} {w : Verdict}
    (hj : JudgedFile f disk root file s w s') (h : s.Given P) : s'.Given P := by
  cases hj with
  | unreadable _ => exact h
  | readable _ hj =>
    cases hj with
    | unset _ _ _ =>
      split
      · exact h.deleteBlocks
      · exact h
    | recorded _ _ =>
      unfold Store.record
      split
      · exact h.deleteBlocks.of_subset (List.Subset.refl _) rfl
      · exact h.of_subset (List.Subset.refl _) rfl
    | _ => exact h

theorem detected {report : ChangeReport} (hd : Detected f ix s report s') (h : s.Given P) :
    s'.Given P := by
  obtain ⟨s₁, ws, hp, hj, -⟩ := hd.pruned_judged
  exact hj.keeps (fun _ _ _ _ _ hj hs => hs.judged hj) (h.pruned hp)

theorem each_marked {files : List String} {done : List Bool}
    (hm : Each (Marked f) files s done s') (h : s.Given P) : s'.Given P := by
  refine hm.keeps (fun file _ s _ s' hf hs => ?_) h
  cases hf with
  | marked => exact hs.of_subset (by simp) (s.isClosed_marked file)
  | _ => exact hs

/-- A block is saved with what a request brought, if with anything. -/
theorem stores {supply : Option Supply} {bs : List Block} {t : Tally}
    {r : Except Failure Run.Progress} (hP : ∀ c, supply = some c → c.provider.Gives P)
    (hst : Stage.Stores f supply ⟨bs, { tally := t }, v⟩ r v') (h : v.store.Given P) :
    v'.store.Given P := by
  refine hst.keeps (I := fun v => v.store.Given P) ⟨fun _ _ _ _ hv => hv, ?_⟩ h
  intro b _ vec v id s hbrings hv hsave
  refine hv.save? (fun x hx => ?_) hsave
  cases supply with
  | none => cases hx.symm.trans hbrings
  | some c =>
    obtain ⟨i, y, -, hy, call, vs, -, hreply, hmem⟩ := hbrings
    cases hx.symm.trans hy
    exact hP c rfl _ _ _ _ hreply _ (List.of_mem_zip hmem).2

theorem fill {group : List (Row × Vector)} {t t' : Tally} {us : List Unit}
    (he : Each (Filled f) group (t, s) us (t', s')) (hgroup : ∀ e ∈ group, P e.2)
    (h : s.Given P) : s'.Given P := by
  refine he.keeps (I := fun t => t.2.Given P) (fun e hem t _ t' hstep ht => ?_) h
  cases hstep with
  | missed _ => exact ht
  | filled hs => exact ht.setVector? (hgroup _ hem) hs

theorem fills {c : Supply} {groups : List (List Row)} {t : Tally} {r : Except Failure Tally}
    (hP : c.provider.Gives P) (hf : Fills f c groups t v r v') (h : v.store.Given P) :
    v'.store.Given P := by
  have paired {g : List Row} {v : View} {vs : List Vector}
      (reply : (c.reply v (g.map (·.text))).vectors = .ok vs) : ∀ e ∈ g.zip vs, P e.2 :=
    fun e he => hP _ _ _ _ reply _ (List.of_mem_zip he).2
  induction hf with
  | done => exact h
  | late _ => exact h
  | refused _ _ _ ih => exact ih h
  | broken _ _ => exact h
  | filled _ reply each _ ih => exact ih (fill each (paired reply) h)
  | large _ reply hd each _ _ => exact fill each (fun e he => paired reply e (hd.subset he)) h

theorem indexed {deferred : Bool} {r : Except Failure Tally}
    (hP : ∀ p, ix.provider = some p → p.Gives P) (hx : Indexed f ix deferred v r v')
    (h : v.store.Given P) : v'.store.Given P := by
  have hsupply : ∀ c, Run.supplyAt ix deferred v.clock = some c → c.provider.Gives P :=
    fun c hc => hP _ (Run.provider_of_supplyAt hc)
  cases hx with
  | badName hp _ hj _ _ => exact hj.keeps (fun _ _ _ _ _ hj hs => hs.judged hj) (h.pruned hp)
  | idle hd _ => exact h.detected hd
  | noProvider hd _ _ => exact h.detected hd
  | failed hd hst => exact (h.detected hd).stores hsupply hst
  | stored hd hst hm => exact ((h.detected hd).stores hsupply hst).each_marked hm

theorem backfilled {r : Except Failure Tally} (hP : ∀ p, ix.provider = some p → p.Gives P)
    (hx : Backfilled f ix v r v') (h : v.store.Given P) : v'.store.Given P := by
  cases hx with
  | failed hp hf => exact h.fills (hP _ hp) hf
  | filled hp hf => exact h.fills (hP _ hp) hf
  | _ => exact h

end Store.Given

/-! ### Commands -/

namespace CommandLine

open Run

variable {d : Disk Bytes} {c : Settings} {command : Command} {words : List String}
  {w : Surroundings}

/-- The indexer of a command has the provider that the settings name, or none. -/
theorem wp_indexer {withProvider : Bool} {Q : Except Failure Indexer → View → Prop}
    (failed : ∀ e, Q (.error e) v)
    (done : ∀ ix, (∀ p, ix.provider = some p → p = w.provider (c.apiKey.getD "") c.model) →
      Q (.ok ix) v) :
    wp f (indexer w d c withProvider) Q v := by
  unfold indexer
  split
  · exact wp_throw (failed _)
  · refine wp_bind (wp_logAll (wp_bind (wp_logAll ?_)))
    dsimp only [andThen]
    split
    · refine wp_pure (done _ fun p hp => ?_)
      simpa using (Option.ite_none_right_eq_some.mp hp).2.symm
    · refine wp_bind (wp_info (wp_pure (done _ fun p hp => ?_)))
      simpa using (Option.ite_none_right_eq_some.mp hp).2.symm

/-- What a command that indexes or fills in vectors does keeps the vectors of a kind. -/
theorem wp_carryOut (hc : command ∈ [.run, .preprocess, .embed])
    (hP : ∀ key model, (w.provider key model).Gives P) (h : v.store.Given P) :
    wp f (carryOut w d c command) (fun _ v' => v'.store.Given P) v := by
  have hix {ix : Indexer}
      (hp : ∀ p, ix.provider = some p → p = w.provider (c.apiKey.getD "") c.model) :
      ∀ p, ix.provider = some p → p.Gives P := fun p hs => hp p hs ▸ hP _ _
  have ending {x : Run Tally} (hx : wp f x (fun _ v' => v'.store.Given P) v) :
      wp f (x >>= fun _ => pure (d, "")) (fun _ v' => v'.store.Given P) v := by
    refine wp_bind (hx.mono fun r v' hv' => ?_)
    cases r with
    | ok t => exact wp_pure (Q := fun _ v' => v'.store.Given P) hv'
    | error e => exact hv'
  simp only [List.mem_cons, List.not_mem_nil, or_false] at hc
  rcases hc with rfl | rfl | rfl
  · refine wp_bind (wp_indexer (fun _ => h) fun ix hp => ending ?_)
    exact wp_indexProject fun r v' hx => h.indexed (hix hp) hx
  · refine wp_bind (wp_indexer (fun _ => h) fun ix hp => ending ?_)
    exact wp_indexProject fun r v' hx => h.indexed (hix hp) hx
  · refine wp_bind (wp_indexer (fun _ => h) fun ix hp => ending ?_)
    exact wp_backfill fun r v' hx => h.backfilled (hix hp) hx

/-- The words ask for a command, its settings can be read, and the library of databases finds a store
in the file that they name. -/
structure Opens (w : Surroundings) (words : List String) (command : Command) (c : Settings)
    (s : Store) (d : Disk Bytes) : Prop where
  settings : ∃ a environment lines, Arguments.ofWords words = .ok a ∧ a.command = command ∧
    EnvFile.load w.libraries.loadEnv w.disk w.environment a.envFile = .ok (environment, lines) ∧
      settingsOf w environment a = .ok c
  name : '\x00' ∉ c.database.toList
  database : Store.openFile w.libraries.database w.disk (Path.ofString c.database) = .ok (s, d)

/-- The program then carries out the command with the store. -/
theorem Opens.ending_eq (h : Opens w words command c s d) :
    (program w words).ending =
      (withStore w c command (Path.ofString c.database) s d).ending := by
  obtain ⟨a, environment, lines, ha, rfl, henv, hc⟩ := h.settings
  have hname : ¬c.database.toList.contains '\x00' = true := by simpa using h.name
  unfold program
  rw [ha]
  dsimp only
  unfold withArguments
  rw [henv]
  dsimp only
  rw [hc]
  dsimp only
  unfold withSettings
  rw [if_neg hname, h.database]

/-- The store that is kept when a command was carried out with a store. -/
def storeAfter (w : Surroundings) (d : Disk Bytes) (c : Settings) (command : Command) (s : Store) :
    Store :=
  { (outcome (carryOut w d c command) { store := { s with now := w.now }, clock := w.clock }).2.store
    with now := none }

/-- A store that commands have made, one after the other, each in its own surroundings and with its
own settings.  Whatever comes of them, the providers give only vectors of a kind. -/
inductive Built (P : Vector → Prop) : Store → Prop
  | empty : Built P {}
  | carriedOut {s : Store} {w : Surroundings} {words : List String} {command : Command}
      {c : Settings} {d : Disk Bytes} (h : Built P s) (opens : Opens w words command c s d)
      (hc : command ∈ [.run, .preprocess, .embed])
      (hP : ∀ key model, (w.provider key model).Gives P) : Built P (storeAfter w d c command s)

theorem Built.given (h : Built P s) : s.Given P := by
  induction h with
  | empty => exact Store.Given.empty
  | @carriedOut s w _ command c d _ _ hc hP ih =>
    have hs : Store.Given P { s with now := w.now } := ih.of_subset (List.Subset.refl _) rfl
    let world : World := { store := { s with now := w.now }, clock := w.clock }
    have hrun : wp world.faults (carryOut w d c command) (fun _ v' => v'.store.Given P) world.view :=
      wp_carryOut hc hP hs
    exact hrun.at_world.of_subset (List.Subset.refl _) rfl

end CommandLine

/-! ### Statistics -/

/-- All vectors of a store have one length. -/
def Store.OneLength (s : Store) : Prop := ∀ x ∈ s.vectors, ∀ y ∈ s.vectors, x.length = y.length

instance : Decidable s.OneLength :=
  inferInstanceAs (Decidable (∀ x ∈ s.vectors, ∀ y ∈ s.vectors, x.length = y.length))

namespace Magnitude

variable {vs : List Vector}

theorem exists_mapM {α β : Type} {g : α → Option β} {xs : List α} (h : ∀ a ∈ xs, ∃ b, g a = some b) :
    ∃ ys, xs.mapM g = some ys := by
  induction xs with
  | nil => exact ⟨[], rfl⟩
  | cons a xs ih =>
    obtain ⟨b, hb⟩ := h a List.mem_cons_self
    obtain ⟨ys, hys⟩ := ih fun a ha => h a (List.mem_cons_of_mem _ ha)
    exact ⟨b :: ys, by simp [List.mapM_cons, hb, hys]⟩

/-- What a library says of its tables: finite vectors of one length make up a table, and vectors of
different lengths make up none. -/
structure Arrays.Lawful (a : Arrays) : Prop where
  table : ∀ vs : List Vector, (∀ x ∈ vs, x.IsFinite) →
    (∀ x ∈ vs, ∀ y ∈ vs, x.length = y.length) → ∃ rows, a.table vs = .ok rows
  ragged : ∀ vs : List Vector, (¬∀ x ∈ vs, ∀ y ∈ vs, x.length = y.length) →
    a.table vs = .error (.ragged vs.length)

theorem Arrays.Lawful.exists_summary {a : Arrays} (ha : a.Lawful) (hfinite : ∀ x ∈ vs, x.IsFinite)
    (h : ∀ x ∈ vs, ∀ y ∈ vs, x.length = y.length) : ∃ o, summary a vs = .ok o := by
  unfold summary
  split
  · exact ⟨none, rfl⟩
  · obtain ⟨rows, hrows⟩ := ha.table vs hfinite h
    rw [hrows]
    exact ⟨_, rfl⟩

theorem Arrays.Lawful.summary_of_ragged {a : Arrays} (ha : a.Lawful)
    (h : ¬∀ x ∈ vs, ∀ y ∈ vs, x.length = y.length) :
    summary a vs = .error (.ragged vs.length) := by
  unfold summary
  split
  · next hnil =>
    rw [List.isEmpty_iff.mp hnil] at h
    exact absurd (fun x hx => nomatch hx) h
  · rw [ha.ragged vs h]

/-- The library of this project keeps its word. -/
theorem lawful_library : Backend.Arrays.library.Lawful where
  table vs hfinite h := by
    have hany : ¬(vs.any fun y => y.length != (vs.headD []).length) = true := by
      cases vs with
      | nil => simp
      | cons x vs => simpa using fun y hy => h y (List.mem_cons_of_mem _ hy) x List.mem_cons_self
    obtain ⟨rows, hrows⟩ : ∃ rows, (vs.mapM fun y => y.mapM Scalar.toDouble?) = some rows :=
      exists_mapM fun y hy => exists_mapM fun a ha =>
        let ⟨_, _, _, hd⟩ := (hfinite y hy).2 a ha
        ⟨_, hd⟩
    refine ⟨rows, ?_⟩
    show Backend.Arrays.table vs = _
    unfold Backend.Arrays.table
    rw [if_neg hany, hrows]
  ragged vs h := by
    have hany : (vs.any fun y => y.length != (vs.headD []).length) = true := by
      refine Decidable.by_contra fun hany => h ?_
      have hx : ∀ y ∈ vs, y.length = (vs.headD []).length := by simpa using hany
      exact fun y hy z hz => (hx y hy).trans (hx z hz).symm
    show Backend.Arrays.table vs = _
    unfold Backend.Arrays.table
    rw [if_pos hany]

end Magnitude

namespace CommandLine

open Run

variable {d : Disk Bytes} {c : Settings} {words : List String} {w : Surroundings} {path : Path}

theorem wp_stats (ha : w.libraries.arrays.Lawful) (h : v.store.Given Vector.IsFinite) :
    wp Faults.none (carryOut w d c .stats)
      (fun r _ => (v.store.OneLength → ∃ output, r = .ok (d, output)) ∧
        (¬v.store.OneLength → r = .error (.vectors (.ragged v.store.vectors.length)))) v := by
  have hfinite : ∀ x ∈ v.store.vectors, x.IsFinite := fun x hx =>
    let ⟨r, hr, hx⟩ := List.mem_filterMap.mp hx
    h.vectors r hr x hx
  have reading {α β : Type} {call : StoreCall} {g : Store → α} {next : α → Run β}
      {Q : Except Failure β → View → Prop} (hfits : call.fits = true)
      (hnext : wp Faults.none (next (g v.store)) Q v) :
      wp Faults.none (ask call g >>= next) Q v :=
    wp_bind (wp_ask (fun hr => absurd hr (Store.not_refuses h.isOpen))
      (fun hl => Bool.noConfusion (hl.symm.trans hfits)) fun _ => hnext)
  refine reading rfl (reading rfl ?_)
  by_cases hlen : v.store.OneLength
  · obtain ⟨o, ho⟩ := ha.exists_summary hfinite hlen
    rw [ho]
    exact wp_pure ⟨fun _ => ⟨_, rfl⟩, fun hn => absurd hlen hn⟩
  · rw [ha.summary_of_ragged hlen]
    exact wp_throw ⟨fun hl => absurd hl hlen, fun _ => rfl⟩

/-- With a store of finite vectors the statistics command ends well if they have one length. -/
theorem ending_withStore (ha : w.libraries.arrays.Lawful) (h : s.Given Vector.IsFinite) :
    (withStore w c .stats path s d).ending =
      if s.OneLength then .finished 0 else .failed (.vectors (.ragged s.vectors.length)) := by
  let world : World := { store := { s with now := w.now }, clock := w.clock }
  have hs : world.view.store.Given Vector.IsFinite := h.of_subset (List.Subset.refl _) rfl
  have hrun : wp world.faults (carryOut w d c .stats) _ world.view := wp_stats ha hs
  obtain ⟨hone, hragged⟩ := hrun.at_world
  unfold withStore
  dsimp only
  by_cases hlen : s.OneLength
  · obtain ⟨output, ho⟩ := hone hlen
    have hr : (carryOut w d c .stats).run.run world =
        (.ok (d, output), (outcome (carryOut w d c .stats) world).2) := Prod.ext ho rfl
    rw [hr, if_pos hlen]
  · have hr : (carryOut w d c .stats).run.run world =
        (.error (.vectors (.ragged s.vectors.length)),
          (outcome (carryOut w d c .stats) world).2) := Prod.ext (hragged hlen) rfl
    rw [hr, if_neg hlen]
    rfl

/-- On every store that commands have made the statistics command ends well if and only if all
vectors have one length; if not, it fails, and no line of the log reports the failure. -/
theorem Built.ending_stats_iff (h : Built Vector.IsFinite s) (ha : w.libraries.arrays.Lawful)
    (opens : Opens w words .stats c s d) :
    ((program w words).ending = .finished 0 ↔ s.OneLength) ∧
      (¬s.OneLength →
        (program w words).ending = .failed (.vectors (.ragged s.vectors.length))) := by
  rw [opens.ending_eq, ending_withStore ha h.given]
  split
  · next hlen => exact ⟨⟨fun _ => hlen, fun _ => rfl⟩, fun hn => absurd hlen hn⟩
  · next hlen => exact ⟨⟨(nomatch ·), fun hl => absurd hl hlen⟩, fun _ => rfl⟩

/-! ### Two models -/

namespace Sample

def environment (model : String) : EnvFile.Variables :=
  [("OPENAI_API_KEY", "k"), ("FILE_EXTENSIONS", ".md"), ("DB_PATH", "/db"), ("TOKEN_LIMIT", "1"),
   ("EMBED_TIMEOUT_MINUTES", "1"), ("EMBEDDING_MODEL", model)]

def settings (model : String) : Settings where
  apiKey := some "k"
  extensions := [".md"]
  database := "/db"
  tokenLimit := 1
  model := model
  timeoutMinutes := 1

def ones (n : Nat) : Vector := List.replicate n (.real (Double.ofInt 1))

/-- The number of components that a model gives. -/
def dimensions (model : String) : Nat := if model = "large" then 2 else 1

/-- A disk with a file of two lines below the working directory, and with other files beside that. -/
def disk (files : List (String × Tree Bytes)) : Disk Bytes :=
  ⟨.directory (("src", .directory [("a.md", .file [120, 10, 121])]) :: files), ["src"]⟩

/-- Each request takes as long as all of them may take, so a run makes one. -/
def surroundings (files : List (String × Tree Bytes)) (model : String) : Surroundings where
  libraries := Backend.libraries
  disk := disk files
  environment := environment model
  git := fun _ => .finished 128 "" ""
  provider := fun _ model _ texts _ =>
    ⟨Ticks.ofSeconds 60, .ok (texts.map fun _ => ones (dimensions model))⟩
  now := none

/-- The disk after the database was opened. -/
def opened (d : Disk Bytes) : Disk Bytes :=
  ((Store.openFile Backend.Database.library d (Path.ofString "/db")).toOption.map (·.2)).getD d

def row (n : Nat) (hn : 1 ≤ n) (text : String) (x : Vector) : Row where
  id := n
  block := { path := "/src/a.md", kind := .markdown, span := ⟨n, n, hn, Nat.le_refl n⟩, text
             relativePath := some "a.md" }
  vector := some x
  text := "File: a.md\nLines: " ++ toString n ++ "-" ++ toString n ++ "\n\n" ++ text
  createdAt := none

/-- After the first run the second line has no row and the file is marked. -/
def afterSmall : Store where
  rows := [row 1 Nat.one_pos "x" (ones 1)]
  fingerprints := [("a.md", retryMark ++ Digest.md5 [120, 10, 121])]
  lastId := 1

def afterLarge : Store where
  rows := [row 1 Nat.one_pos "x" (ones 1), row 2 Nat.two_pos "y" (ones 2)]
  fingerprints := [("a.md", Digest.md5 [120, 10, 121])]
  lastId := 2

def database (s : Store) : List (String × Tree Bytes) := [("db", .file (Backend.Database.toBytes s))]

variable {files : List (String × Tree Bytes)} {model : String} {command : Command}

theorem eq_ok_of_toOption {ε α : Type} {r : Except ε α} {a : α} (h : r.toOption = some a) :
    r = .ok a := by
  cases r with
  | error e => cases h
  | ok b =>
    cases h
    rfl

theorem opens (ha : (Arguments.ofWords words).toOption = some { command })
    (henv : (EnvFile.load Backend.EnvFile.load (disk files) (environment model) ".env").toOption =
      some (environment model, []))
    (hc : (settingsOf (surroundings files model) (environment model) { command }).toOption =
      some (settings model))
    (hs : (Store.openFile Backend.Database.library (disk files)
      (Path.ofString "/db")).toOption.map (·.1) = some s) :
    Opens (surroundings files model) words command (settings model) s (opened (disk files)) where
  settings := ⟨_, _, _, eq_ok_of_toOption ha, rfl, eq_ok_of_toOption henv, eq_ok_of_toOption hc⟩
  name := (by decide : '\x00' ∉ "/db".toList)
  database := by
    unfold opened
    show Store.openFile Backend.Database.library (disk files) (Path.ofString "/db") = _
    cases ho : Store.openFile Backend.Database.library (disk files) (Path.ofString "/db") with
    | error e =>
      rw [ho] at hs
      cases hs
    | ok r =>
      rw [ho] at hs
      cases hs
      rfl

theorem isFinite_ones {n : Nat} (h : n ≠ 0) : (ones n).IsFinite := by
  refine ⟨by simpa [ones] using h, fun a ha => ?_⟩
  obtain ⟨-, rfl⟩ := List.mem_replicate.mp ha
  have hone : Double.ofInt 1 = .finite false (2 ^ 52) (-52) := by decide +kernel
  exact ⟨_, _, _, congrArg some hone⟩

theorem gives_ones (files : List (String × Tree Bytes)) (model : String) :
    ∀ key name, ((surroundings files model).provider key name).Gives Vector.IsFinite := by
  intro key name earlier texts timeout vs hvs x hx
  cases hvs
  obtain ⟨text, -, rfl⟩ := List.mem_map.mp hx
  refine isFinite_ones ?_
  unfold dimensions
  split <;> decide

theorem built_afterSmall : Built Vector.IsFinite afterSmall := by
  have hopens : Opens (surroundings [] "small") ["run"] .run (settings "small") {}
      (opened (disk [])) :=
    opens (by decide +kernel) (by decide +kernel) (by decide +kernel) (by decide +kernel)
  have hafter : storeAfter (surroundings [] "small") (opened (disk [])) (settings "small") .run {} =
      afterSmall := by decide +kernel
  exact hafter ▸ .carriedOut .empty hopens (by simp) (gives_ones _ _)

theorem built_afterLarge : Built Vector.IsFinite afterLarge := by
  have hopens : Opens (surroundings (database afterSmall) "large") ["run"] .run (settings "large")
      afterSmall (opened (disk (database afterSmall))) :=
    opens (by decide +kernel) (by decide +kernel) (by decide +kernel) (by decide +kernel)
  have hafter : storeAfter (surroundings (database afterSmall) "large")
      (opened (disk (database afterSmall))) (settings "large") .run afterSmall = afterLarge := by
    decide +kernel
  exact hafter ▸ .carriedOut built_afterSmall hopens (by simp) (gives_ones _ _)

end Sample

/-- After a run with one model the statistics command ends well. -/
theorem ending_stats_sample :
    Built Vector.IsFinite Sample.afterSmall ∧
      (∃ d, Opens (Sample.surroundings (Sample.database Sample.afterSmall) "small") ["stats"] .stats
        (Sample.settings "small") Sample.afterSmall d) ∧
      (program (Sample.surroundings (Sample.database Sample.afterSmall) "small") ["stats"]).ending =
        .finished 0 := by
  have hopens : Opens (Sample.surroundings (Sample.database Sample.afterSmall) "small") ["stats"]
      .stats (Sample.settings "small") Sample.afterSmall _ :=
    Sample.opens (by decide +kernel) (by decide +kernel) (by decide +kernel) (by decide +kernel)
  have hends := Sample.built_afterSmall.ending_stats_iff Magnitude.lawful_library hopens
  exact ⟨Sample.built_afterSmall, ⟨_, hopens⟩, hends.1.mpr (by decide +kernel)⟩

/-- After two runs with models whose vectors have different lengths the statistics command fails. -/
theorem ending_stats_two_models :
    ∃ s w d c, Built Vector.IsFinite s ∧ Opens w ["stats"] .stats c s d ∧
      (program w ["stats"]).ending = .failed (.vectors (.ragged 2)) := by
  have hopens : Opens (Sample.surroundings (Sample.database Sample.afterLarge) "small") ["stats"]
      .stats (Sample.settings "small") Sample.afterLarge _ :=
    Sample.opens (by decide +kernel) (by decide +kernel) (by decide +kernel) (by decide +kernel)
  have hlen : ¬Sample.afterLarge.OneLength := by decide +kernel
  refine ⟨_, _, _, _, Sample.built_afterLarge, hopens, ?_⟩
  rw [hopens.ending_eq, ending_withStore Magnitude.lawful_library
    Sample.built_afterLarge.given, if_neg hlen]
  rfl

end CommandLine

end BlockIndex
