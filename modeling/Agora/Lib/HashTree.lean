import Mathlib.Data.List.Induction

/-!
# Hash trees

A binary tree of hashes over a list of leaves, built level by level: the nodes
of a level are paired from the left, and an odd one moves up as it is. A hash
may have collisions, so what it is asked to keep apart is only what the two
trees at hand feed to it. Then their roots tell the leaves: by `root_injective`
equal roots come from equal trees, and a tree lists its leaves in order, however
often a node moved up.
-/

namespace Agora.Lib

variable {α ι η : Type}

inductive HashTree (α : Type) where
  | leaf (a : α)
  | node (left right : HashTree α)

namespace HashTree

section Hashing

variable (hash : ι → η) (leafInput : α → ι) (nodeInput : η → η → ι)

def root : HashTree α → η
  | leaf a => hash (leafInput a)
  | node left right => hash (nodeInput left.root right.root)

/-- What is hashed for the root. -/
def inputs : HashTree α → List ι
  | leaf a => [leafInput a]
  | node left right =>
    nodeInput (root hash leafInput nodeInput left) (root hash leafInput nodeInput right) ::
      (left.inputs ++ right.inputs)

def leaves : HashTree α → List α
  | leaf a => [a]
  | node left right => left.leaves ++ right.leaves

/-- The root is the hash of an input. -/
theorem exists_root_eq (t : HashTree α) :
    ∃ x ∈ t.inputs hash leafInput nodeInput, t.root hash leafInput nodeInput = hash x := by
  cases t with
  | leaf a => exact ⟨_, List.mem_singleton_self _, rfl⟩
  | node left right => exact ⟨_, List.mem_cons_self, rfl⟩

variable {hash leafInput nodeInput} {t u : HashTree α}

/-- **Equal roots come from equal trees**, unless the hash collides on their inputs. -/
theorem root_injective
    (hleaf : ∀ a ∈ t.leaves, ∀ b ∈ u.leaves, leafInput a = leafInput b → a = b)
    (hnode : ∀ x y x' y', nodeInput (hash x) (hash y) = nodeInput (hash x') (hash y') →
      hash x = hash x' ∧ hash y = hash y')
    (hne : ∀ a l r, leafInput a ≠ nodeInput l r)
    (hcoll : ∀ x ∈ t.inputs hash leafInput nodeInput, ∀ y ∈ u.inputs hash leafInput nodeInput,
      hash x = hash y → x = y)
    (h : t.root hash leafInput nodeInput = u.root hash leafInput nodeInput) : t = u := by
  induction t generalizing u with
  | leaf a =>
    cases u with
    | leaf b =>
      have hinput := hcoll _ (List.mem_singleton_self _) _ (List.mem_singleton_self _) h
      rw [hleaf a (List.mem_singleton_self _) b (List.mem_singleton_self _) hinput]
    | node left right =>
      exact absurd (hcoll _ (List.mem_singleton_self _) _ List.mem_cons_self h) (hne _ _ _)
  | node left right ihl ihr =>
    cases u with
    | leaf b =>
      exact absurd (hcoll _ List.mem_cons_self _ (List.mem_singleton_self _) h).symm (hne _ _ _)
    | node left' right' =>
      have hinput := hcoll _ List.mem_cons_self _ List.mem_cons_self h
      -- the roots of the subtrees are hashes
      obtain ⟨x, -, hx⟩ := exists_root_eq hash leafInput nodeInput left
      obtain ⟨y, -, hy⟩ := exists_root_eq hash leafInput nodeInput right
      obtain ⟨x', -, hx'⟩ := exists_root_eq hash leafInput nodeInput left'
      obtain ⟨y', -, hy'⟩ := exists_root_eq hash leafInput nodeInput right'
      rw [hx, hy, hx', hy'] at hinput
      obtain ⟨hl, hr⟩ := hnode _ _ _ _ hinput
      have hleft : left = left' := by
        refine ihl (fun a ha b hb => ?_) (fun p hp q hq => ?_) (by rw [hx, hx', hl])
        · exact hleaf a (List.mem_append_left _ ha) b (List.mem_append_left _ hb)
        · exact hcoll p (List.mem_cons_of_mem _ (List.mem_append_left _ hp)) q
            (List.mem_cons_of_mem _ (List.mem_append_left _ hq))
      have hright : right = right' := by
        refine ihr (fun a ha b hb => ?_) (fun p hp q hq => ?_) (by rw [hy, hy', hr])
        · exact hleaf a (List.mem_append_right _ ha) b (List.mem_append_right _ hb)
        · exact hcoll p (List.mem_cons_of_mem _ (List.mem_append_right _ hp)) q
            (List.mem_cons_of_mem _ (List.mem_append_right _ hq))
      rw [hleft, hright]

end Hashing

/-! ## Levels -/

/-- The next level; an odd tree moves up. -/
def pairs : List (HashTree α) → List (HashTree α)
  | left :: right :: rest => node left right :: pairs rest
  | level => level

theorem length_pairs_le (level : List (HashTree α)) : (pairs level).length ≤ level.length := by
  induction level using pairs.induct with
  | case1 left right rest ih =>
    simp only [pairs, List.length_cons]
    omega
  | case2 level h =>
    have heq : pairs level = level := by rw [pairs]; exact h
    exact Nat.le_of_eq (congrArg List.length heq)

/-- The levels up to the last one. -/
def build : List (HashTree α) → List (HashTree α)
  | left :: right :: rest => build (pairs (left :: right :: rest))
  | level => level
termination_by level => level.length
decreasing_by
  have := length_pairs_le rest
  simp only [pairs, List.length_cons]
  omega

theorem leaves_pairs (level : List (HashTree α)) :
    (pairs level).flatMap leaves = level.flatMap leaves := by
  induction level using pairs.induct with
  | case1 left right rest ih =>
    simp only [pairs, List.flatMap_cons, leaves, ih, List.append_assoc]
  | case2 level h => rw [pairs]; exact h

theorem leaves_build (level : List (HashTree α)) :
    (build level).flatMap leaves = level.flatMap leaves := by
  induction level using build.induct with
  | case1 left right rest ih => rw [build, ih, leaves_pairs]
  | case2 level h => rw [build]; exact h

theorem exists_build_eq (left : HashTree α) (rest : List (HashTree α)) :
    ∃ t, build (left :: rest) = [t] := by
  generalize hlevel : left :: rest = level
  induction level using build.induct generalizing left rest with
  | case1 first second others ih =>
    rw [build]
    exact ih (node first second) (pairs others) rfl
  | case2 level h =>
    cases rest with
    | nil =>
      refine ⟨left, ?_⟩
      rw [← hlevel, build]
      simp
    | cons right rest => exact absurd hlevel.symm (h left right rest)

end HashTree

end Agora.Lib
