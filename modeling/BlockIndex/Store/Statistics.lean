import BlockIndex.Store.Basic

/-! Numbers about a store. -/

namespace BlockIndex

structure Statistics where
  total : Nat
  withVector : Nat
  files : Nat
  /-- The kinds that occur, in the order of their names, and how many rows are of each. -/
  kinds : List (BlockKind × Nat)
  /-- The length of the first stored vector, 0 if there is none. -/
  dimensions : Nat
  deriving DecidableEq, Repr

def Statistics.withoutVector (s : Statistics) : Nat := s.total - s.withVector

def BlockKind.inNameOrder : List BlockKind :=
  [.classLike, .config, .function, .markdown, .method, .struct, .text, .yaml]

namespace Store

def countOf (s : Store) (k : BlockKind) : Nat := s.rows.countP fun r => r.block.kind == k

def statistics (s : Store) : Statistics where
  total := s.rows.length
  withVector := s.vectors.length
  files := (s.rows.map (·.block.path)).eraseDups.length
  kinds := (BlockKind.inNameOrder.map fun k => (k, s.countOf k)).filter fun e => e.2 != 0
  dimensions := (s.vectors.head?.getD []).length

end Store

end BlockIndex
