import BlockIndex.Block.Basic

/-! Calls to the store and how they fail.  A call is refused when the store is closed, when a block's
place is taken, when a row does not exist, or for a reason of the store's own. -/

namespace BlockIndex

inductive StoreCall where
  | fingerprint (path : String)
  | setFingerprint (path text : String)
  | dropFingerprint (path : String)
  | tracked
  | deleteBlocks (path : String)
  | holds (b : Block)
  | save (b : Block)
  | setVector (id : Int)
  | pending
  | rows
  | vectors
  | statistics
  deriving DecidableEq, Repr

/-- What a call fails to do. -/
def StoreCall.failure : StoreCall → String
  | .fingerprint path => "failed to read hash for " ++ path
  | .setFingerprint path _ => "failed to update hash for " ++ path
  | .dropFingerprint path => "failed to delete hash for " ++ path
  | .tracked => "failed to list tracked files"
  | .deleteBlocks path => "failed to delete blocks for " ++ path
  | .holds b => "failed to check existence of " ++ b.summary
  | .save b => "failed to save " ++ b.summary
  | .setVector id => "failed to update embedding for block " ++ toString id
  | .pending => "failed to load blocks without embeddings"
  | .rows => "failed to read blocks"
  | .vectors => "failed to read embeddings"
  | .statistics => "failed to compute statistics"

/-- The least number that does not fit the store, which has 64 bits for each. -/
def StoreCall.limit : Nat := Nat.pow 2 63

/-- Whether the numbers of a call fit the store. -/
def StoreCall.fits : StoreCall → Bool
  | .holds b => b.span.last < limit
  | .save b => b.span.last < limit
  | .setVector id => -limit ≤ id && id < limit
  | _ => true

inductive StoreError where
  | closed (call : StoreCall)
  | taken (b : Block)
  | noRow (id : Int)
  /-- A refusal in the store's own words. -/
  | refused (text : String)
  deriving DecidableEq, Repr

def StoreError.message : StoreError → String
  | .closed call => call.failure ++ ": Cannot operate on a closed database."
  | .taken b =>
    (StoreCall.save b).failure ++ ": UNIQUE constraint failed: index 'idx_block_identity'"
  | .noRow id => "block " ++ toString id ++ " does not exist"
  | .refused text => text

/-- Refusals in the store's own words, by the number of the call and the call. -/
abbrev Faults := Nat → StoreCall → Option String

def Faults.none : Faults := fun _ _ => Option.none

end BlockIndex
