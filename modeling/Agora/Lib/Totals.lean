import Mathlib.Algebra.BigOperators.Finprod
import Mathlib.Algebra.BigOperators.Group.Finset.Basic
import Mathlib.Data.Set.Card

/-!
# Totals of tables

A table with finitely many entries that are not zero has a total. When it
changes at finitely many entries only, the total changes by what they do. The
same for the number of elements of a set that one element enters or leaves.
-/

namespace Agora.Lib

open Function

variable {α : Type} {f g : α → Int}

theorem finite_support_of_change (hf : (support f).Finite) {s : Finset α}
    (h : ∀ a, a ∉ s → g a = f a) : (support g).Finite := by
  refine (hf.union s.finite_toSet).subset fun a ha => ?_
  by_cases has : a ∈ s
  · exact .inr has
  · left
    rwa [mem_support, ← h a has]

/-- **Change of a total.** -/
theorem finsum_of_change (hf : (support f).Finite) {s : Finset α}
    (h : ∀ a, a ∉ s → g a = f a) : ∑ᶠ a, g a = ∑ᶠ a, f a + ∑ a ∈ s, (g a - f a) := by
  have hdiff : support (fun a => g a - f a) ⊆ s := by
    intro a ha
    by_contra has
    exact ha (sub_eq_zero.mpr (h a has))
  have hsplit : g = fun a => f a + (g a - f a) := by
    funext a
    omega
  rw [← finsum_eq_sum_of_support_subset _ hdiff, ← finsum_add_distrib hf
    (s.finite_toSet.subset hdiff), ← hsplit]

theorem finsum_update [DecidableEq α] (hf : (support f).Finite) (a : α) (x : Int) :
    ∑ᶠ b, update f a x b = ∑ᶠ b, f b + (x - f a) := by
  rw [finsum_of_change (s := {a}) hf fun b hb => update_of_ne (by simpa using hb) ..]
  simp

/-! ## Counts -/

section Counts

variable {S T : Set α} {a : α} {n : Nat}

theorem eq_of_change (h : ∀ b, b ≠ a → (b ∈ T ↔ b ∈ S)) (ha : a ∈ T ↔ a ∈ S) : T = S := by
  ext b
  by_cases hb : b = a
  · rw [hb, ha]
  · exact h b hb

theorem encard_of_enter (h : ∀ b, b ≠ a → (b ∈ T ↔ b ∈ S)) (ha : a ∉ S) (ha' : a ∈ T)
    (hS : S.encard = n) : T.encard = (n + 1 : Nat) := by
  have hT : T = insert a S := by
    refine eq_of_change (a := a) (fun b hb => ?_) (by simp [ha'])
    rw [h b hb, Set.mem_insert_iff, or_iff_right hb]
  rw [hT, Set.encard_insert_of_notMem ha, hS, Nat.cast_add, Nat.cast_one]

theorem encard_of_leave (h : ∀ b, b ≠ a → (b ∈ T ↔ b ∈ S)) (ha : a ∈ S) (ha' : a ∉ T)
    (hS : S.encard = n) : T.encard = (n - 1 : Nat) := by
  have hT : T = S \ {a} := by
    refine eq_of_change (a := a) (fun b hb => ?_) (by simp [ha'])
    rw [h b hb, Set.mem_sdiff, Set.mem_singleton_iff, and_iff_left hb]
  rw [hT, Set.encard_sdiff_singleton_of_mem ha, hS]
  exact (ENat.natCast_sub n 1).symm

end Counts

end Agora.Lib
