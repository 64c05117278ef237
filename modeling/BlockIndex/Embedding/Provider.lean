import BlockIndex.Embedding.Service

/-! Providers of vectors as a run sees them: each request takes some time and gives vectors or
fails. -/

namespace BlockIndex

structure Reply where
  /-- The ticks that the request takes. -/
  cost : Int
  vectors : Except ServiceError (List Vector)

/-- A provider: for the number of earlier requests, the texts and the time left what comes of the
request. -/
abbrev Provider := (earlier : Nat) → (texts : List String) → (timeout : Int) → Reply

structure ProviderCall where
  texts : List String
  timeout : Int
  deriving DecidableEq, Repr

/-- The provider that asks a service, with the time that each request takes. -/
def Service.provider (s : Service) (send : Request → Outcome) (cost : Int) : Provider :=
  fun _ texts timeout =>
    ⟨cost, match texts with
      | [text] => (s.embed send text timeout).2.map fun v => [v]
      | _ => (s.embedAll send texts timeout).2⟩

end BlockIndex
