import Mathlib.Data.List.Nodup
import Mathlib.Data.List.Sort
import Mathlib.Data.Prod.Lex

/-!
# Sorted sets

A set whose members have scores, kept in the order of the scores and, where
these are equal, of the members. `addNX` adds a member that is not there yet;
`first` lists the members in front, and `remove` of these leaves the others:
`entries_remove_first`. Of two members the one with the lower score is in
front: `mem_of_score_lt`.
-/

namespace Agora.Lib

variable {σ α : Type} [LinearOrder σ] [LinearOrder α]

structure ZSet (σ α : Type) [LinearOrder σ] [LinearOrder α] where
  entries : List (σ × α)
  sorted : entries.Pairwise fun x y => toLex x ≤ toLex y
  distinct : (entries.map Prod.snd).Nodup
  deriving DecidableEq

namespace ZSet

variable (z : ZSet σ α)

def empty : ZSet σ α := ⟨[], .nil, .nil⟩

def members : List α := z.entries.map Prod.snd

/-- The member with the score, unless it is there already. -/
def addNX (score : σ) (member : α) : ZSet σ α :=
  if h : member ∈ z.members then z
  else
    { entries := z.entries.orderedInsert (fun x y => toLex x ≤ toLex y) (score, member)
      sorted := by
        have : Std.Total (α := σ × α) fun x y => toLex x ≤ toLex y :=
          ⟨fun x y => le_total (toLex x) (toLex y)⟩
        have : IsTrans (σ × α) fun x y => toLex x ≤ toLex y := ⟨fun _ _ _ => le_trans⟩
        exact z.sorted.orderedInsert _ _
      distinct := by
        rw [((List.perm_orderedInsert _ _ _).map Prod.snd).nodup_iff, List.map_cons]
        exact List.nodup_cons.mpr ⟨h, z.distinct⟩ }

/-- The first members. -/
def first (n : Nat) : List α := (z.entries.take n).map Prod.snd

def remove (members : List α) : ZSet σ α where
  entries := z.entries.filter fun x => x.2 ∉ members
  sorted := z.sorted.filter _
  distinct := z.distinct.sublist (List.filter_sublist.map _)

/-- How many members are in front of it. -/
def rank (member : α) : Option Nat := z.entries.findIdx? fun x => x.2 = member

def card : Nat := z.entries.length

variable {z : ZSet σ α} {score : σ} {member : α} {n : Nat}

theorem mem_members : member ∈ z.members ↔ ∃ score, (score, member) ∈ z.entries := by
  simp [members]

theorem mem_addNX {x : σ × α} : x ∈ (z.addNX score member).entries ↔
    x ∈ z.entries ∨ x = (score, member) ∧ member ∉ z.members := by
  unfold addNX
  split_ifs with h
  · simp [h]
  · simp only [List.mem_orderedInsert, h, not_false_eq_true, and_true]
    exact or_comm

/-- **What is left without the first members.** -/
theorem entries_remove_first (z : ZSet σ α) (n : Nat) :
    (z.remove (z.first n)).entries = z.entries.drop n := by
  have hdistinct := z.distinct
  rw [← List.take_append_drop n z.entries, List.map_append, List.nodup_append] at hdistinct
  obtain ⟨-, -, hdisjoint⟩ := hdistinct
  have hsplit : (z.remove (z.first n)).entries =
      (z.entries.take n).filter (fun x => x.2 ∉ z.first n) ++
        (z.entries.drop n).filter fun x => x.2 ∉ z.first n := by
    rw [← List.filter_append, List.take_append_drop]
    rfl
  rw [hsplit, List.filter_eq_nil_iff.mpr, List.filter_eq_self.mpr, List.nil_append]
  · intro x hx
    exact decide_eq_true fun hmem => hdisjoint x.2 hmem x.2 (List.mem_map_of_mem hx) rfl
  · intro x hx
    have hmem : x.2 ∈ z.first n := List.mem_map_of_mem hx
    simpa using hmem

@[simp] theorem first_zero : z.first 0 = [] := by simp [first]

theorem remove_nil : z.remove [] = z := by
  obtain ⟨entries, sorted, distinct⟩ := z
  simp [remove]

theorem length_first_le : (z.first n).length ≤ n := by simp [first]

theorem length_first : (z.first n).length = min n z.entries.length := by simp [first]

/-- What is in front has no higher score. -/
theorem score_le_of_mem {pre post : List (σ × α)} {x y : σ × α}
    (h : z.entries = pre ++ x :: post) (hy : y ∈ pre) : y.1 ≤ x.1 := by
  have hsorted := z.sorted
  rw [h, List.pairwise_append] at hsorted
  exact Prod.Lex.monotone_fst _ _ (hsorted.2.2 y hy x (by simp))

theorem mem_of_score_lt {pre post : List (σ × α)} {x y : σ × α}
    (h : z.entries = pre ++ x :: post) (hy : y ∈ z.entries) (hlt : y.1 < x.1) : y ∈ pre := by
  have hsorted := z.sorted
  rw [h, List.pairwise_append, List.pairwise_cons] at hsorted
  rw [h] at hy
  have hnot : ¬ toLex x ≤ toLex y := by
    rw [Prod.Lex.toLex_le_toLex]
    rintro (hle | ⟨heq, -⟩)
    · exact absurd hlt hle.asymm
    · exact absurd hlt heq.le.not_gt
  rcases List.mem_append.mp hy with hy | hy
  · exact hy
  · rcases List.mem_cons.mp hy with rfl | hy
    · exact absurd le_rfl hnot
    · exact absurd (hsorted.2.1.1 y hy) hnot

end ZSet

end Agora.Lib
