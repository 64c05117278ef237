/-! What a part of the program needs before it can start. -/

namespace BlockIndex

/-- What is missing or out of range. -/
inductive SetupError where
  | tokenLimit
  | noKey
  /-- Blocks are to be stored with vectors, but nothing computes them. -/
  | noProvider
  /-- Vectors are to be filled in, but nothing computes them. -/
  | noProviderForPending
  deriving DecidableEq, Repr

def SetupError.message : SetupError → String
  | .tokenLimit => "token_limit must be at least 1"
  | .noKey => "OpenAI API key required for embedding service"
  | .noProvider => "an embedding service is required unless embeddings are deferred"
  | .noProviderForPending => "an embedding service is required to backfill embeddings"

end BlockIndex
