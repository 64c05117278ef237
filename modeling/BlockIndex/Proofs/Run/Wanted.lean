import BlockIndex.Proofs.Run.Asked

/-! The blocks that want a vector, whatever calls the store refuses.  Of a list these are the blocks
that are found missing, each identity once; a block that cannot be looked up is left out.  While the
list is gone through, what was asked for and what waits are the blocks found so far
(`Stage.Searched`); so at the end either all of them were asked for or the time was over. -/

namespace BlockIndex

open Relation

/-- The blocks of a list that want a vector.  Where a look-up may be refused there is more than one
outcome. -/
inductive Wanted (f : Faults) (s : Store) : List Identity → List Block → List Block → Prop
  | nil {seen : List Identity} : Wanted f s seen [] []
  | seen {seen : List Identity} {b : Block} {bs rest : List Block} (h : b.identity ∈ seen)
      (tail : Wanted f s seen bs rest) : Wanted f s seen (b :: bs) rest
  | unread {seen : List Identity} {b : Block} {bs rest : List Block} (h : b.identity ∉ seen)
      (refused : s.Refuses f (.holds b)) (tail : Wanted f s (b.identity :: seen) bs rest) :
      Wanted f s seen (b :: bs) rest
  | held {seen : List Identity} {b : Block} {bs rest : List Block} (h : b.identity ∉ seen)
      (held : s.holds b = true) (tail : Wanted f s (b.identity :: seen) bs rest) :
      Wanted f s seen (b :: bs) rest
  | missing {seen : List Identity} {b : Block} {bs rest : List Block} (h : b.identity ∉ seen)
      (missing : s.holds b = false) (tail : Wanted f s (b.identity :: seen) bs rest) :
      Wanted f s seen (b :: bs) (b :: rest)

variable {f : Faults} {k : Supply} {s s' : Store} {seen : List Identity} {bs rest : List Block}
  {calls : List ProviderCall} {v v' : View}

namespace Wanted

end Wanted

theorem Saved.isClosed_eq {e : Block × Option Vector} {p p' : Run.Progress}
    (h : Saved f e (p, s) () (p', s')) : s'.isClosed = s.isClosed := by
  cases h with
  | saved hsave =>
    obtain ⟨-, -, rfl⟩ := Store.save?_eq_some.mp hsave
    rfl
  | missed _ => rfl

namespace Stage

/-- A stage on the way: what was asked for and what waits are the blocks found so far; with those
that will be found in what is left they are the blocks that want a vector.  No answer about a block
that is still to be looked up has changed. -/
structure Searched (f : Faults) (v : View) (bs : List Block) (calls : List ProviderCall)
    (c : Stage) : Prop where
  requests : c.view.requests.toList = v.requests.toList ++ calls
  found : ∃ found : List Block,
    calls.flatMap (·.texts) ++ c.progress.texts = found.map (·.embeddingText) ∧
      ∀ rest, Wanted f v.store c.progress.seen c.todo rest →
        Wanted f v.store [] bs (found ++ rest)
  seen : ∀ b ∈ c.progress.waiting, b.identity ∈ c.progress.seen
  holds : ∀ b, b.identity ∉ c.progress.seen → c.view.store.holds b = v.store.holds b
  isClosed : c.view.store.isClosed = v.store.isClosed

variable {c c' : Stage}

/-- A step that asks for the blocks that wait. -/
theorem Searched.ask (hc : Searched f v bs calls c)
    (hreq : c'.view.requests = (k.after c.view c.progress.texts).requests)
    (htodo : c'.todo = c.todo) (hseen : c'.progress.seen = c.progress.seen)
    (hwait : c'.progress.waiting = [])
    (hholds : ∀ b, b.identity ∉ c.progress.seen → c'.view.store.holds b = c.view.store.holds b)
    (hclosed : c'.view.store.isClosed = c.view.store.isClosed) :
    Searched f v bs (calls ++ [k.call c.view c.progress.texts]) c' where
  requests := by
    rw [hreq, Supply.after, Array.toList_push, hc.requests, List.append_assoc]
    rfl
  found := by
    obtain ⟨found, htexts, hfound⟩ := hc.found
    refine ⟨found, ?_, by rwa [htodo, hseen]⟩
    have hnone : c'.progress.texts = [] := by rw [Run.Progress.texts, hwait, List.map_nil]
    rw [← htexts, hnone]
    simp [Supply.call]
  seen := fun b hb => by
    rw [hwait] at hb
    cases hb
  holds := fun b hb => by
    rw [hseen] at hb
    exact (hholds b hb).trans (hc.holds b hb)
  isClosed := hclosed.trans hc.isClosed

end Stage

end BlockIndex
