import Agora.Lib.Totals
import Mathlib.Algebra.Order.BigOperators.Group.Finset
import Mathlib.Algebra.Order.Ring.Int
import Mathlib.Algebra.BigOperators.Ring.Finset
import Mathlib.Data.List.Nodup
import Mathlib.Tactic.Linarith

/-!
# Tables with the list of their keys

A table of records is kept beside the list of the keys that have one
(`Lists l tab`). `total tab f` adds up what each record is worth; it is a sum
over the list, and it changes by what one record does when one record is
written. `share_sum_le` and `lt_share_sum` bound what a division in proportion
to the records gives out, when every share is rounded down.
-/

namespace Agora.Lib

open Function

variable {κ α : Type}

/-- What a record is worth, nothing if there is none. -/
def worth (f : α → Int) (o : Option α) : Int := (o.map f).getD 0

@[simp] theorem worth_none {f : α → Int} : worth f none = 0 := rfl

@[simp] theorem worth_some {f : α → Int} {a : α} : worth f (some a) = f a := rfl

/-- What the records of a table are worth together. -/
noncomputable def total (tab : κ → Option α) (f : α → Int) : Int := ∑ᶠ k, worth f (tab k)

theorem total_map (tab : κ → Option α) (g : α → α) (f : α → Int) :
    total (fun k => (tab k).map g) f = total tab fun a => f (g a) := by
  unfold total worth
  simp only [Option.map_map, comp_def]

/-- The list holds the keys of the table, each once. -/
structure Lists (l : List κ) (tab : κ → Option α) : Prop where
  nodup : l.Nodup
  mem : ∀ k, k ∈ l ↔ ∃ a, tab k = some a

namespace Lists

variable {l : List κ} {tab : κ → Option α} {f g : α → Int} {k : κ} {a : α}

theorem eq_none (h : Lists l tab) (hk : k ∉ l) : tab k = none := by
  cases hv : tab k with
  | none => rfl
  | some a => exact absurd ((h.mem k).mpr ⟨a, hv⟩) hk

theorem map (h : Lists l tab) (g : α → α) : Lists l fun k => (tab k).map g := by
  refine ⟨h.nodup, fun k => (h.mem k).trans ?_⟩
  cases tab k <;> simp

variable [DecidableEq κ]

theorem enter (h : Lists l tab) (hk : tab k = none) : Lists (l ++ [k]) (update tab k (some a)) := by
  have hout : k ∉ l := by
    intro hmem
    obtain ⟨b, hb⟩ := (h.mem k).mp hmem
    rw [hk] at hb
    cases hb
  refine ⟨?_, fun j => ?_⟩
  · rw [← List.concat_eq_append]
    exact List.Nodup.concat hout h.nodup
  · rw [List.mem_append, List.mem_singleton, h.mem j]
    by_cases hj : j = k
    · subst hj; simp
    · simp [hj]

theorem leave (h : Lists l tab) : Lists (l.filter (· != k)) (update tab k none) := by
  refine ⟨h.nodup.filter _, fun j => ?_⟩
  rw [List.mem_filter, h.mem j]
  by_cases hj : j = k
  · subst hj; simp
  · simp [hj]

theorem rewrite {b : α} (h : Lists l tab) (hk : tab k = some a) :
    Lists l (update tab k (some b)) := by
  refine ⟨h.nodup, fun j => (h.mem j).trans ?_⟩
  by_cases hj : j = k
  · subst hj; simp [hk]
  · simp [hj]

theorem support_subset (h : Lists l tab) (f : α → Int) :
    (support fun k => worth f (tab k)) ⊆ (l.toFinset : Set κ) := by
  intro k hk
  by_contra hout
  have hnone : tab k = none := h.eq_none fun hmem => hout (by simpa using hmem)
  rw [mem_support, hnone] at hk
  exact hk rfl

theorem total_eq_sum (h : Lists l tab) (f : α → Int) :
    total tab f = ∑ k ∈ l.toFinset, worth f (tab k) :=
  finsum_eq_sum_of_support_subset _ (h.support_subset f)

/-- **One record is written.** -/
theorem total_update (h : Lists l tab) (f : α → Int) (k : κ) (o : Option α) :
    total (update tab k o) f = total tab f + (worth f o - worth f (tab k)) := by
  have hcomp : (fun j => worth f (update tab k o j)) =
      update (fun j => worth f (tab j)) k (worth f o) := by
    funext j
    by_cases hj : j = k
    · subst hj; simp
    · simp [hj]
  rw [total, hcomp, finsum_update (l.toFinset.finite_toSet.subset (h.support_subset f))]
  rfl

theorem total_le (h : Lists l tab) (hfg : ∀ k a, tab k = some a → f a ≤ g a) :
    total tab f ≤ total tab g := by
  rw [h.total_eq_sum, h.total_eq_sum]
  refine Finset.sum_le_sum fun k hk => ?_
  obtain ⟨a, ha⟩ := (h.mem k).mp (List.mem_toFinset.mp hk)
  rw [ha, worth_some, worth_some]
  exact hfg k a ha

theorem total_congr (h : Lists l tab) (hfg : ∀ k a, tab k = some a → f a = g a) :
    total tab f = total tab g :=
  le_antisymm (h.total_le fun k a ha => (hfg k a ha).le)
    (h.total_le fun k a ha => (hfg k a ha).ge)

theorem total_add (h : Lists l tab) (f g : α → Int) :
    total tab (fun a => f a + g a) = total tab f + total tab g := by
  rw [h.total_eq_sum, h.total_eq_sum, h.total_eq_sum, ← Finset.sum_add_distrib]
  refine Finset.sum_congr rfl fun k _ => ?_
  cases tab k <;> simp

theorem total_nonneg (h : Lists l tab) (hf : ∀ k a, tab k = some a → 0 ≤ f a) :
    0 ≤ total tab f := by
  rw [h.total_eq_sum]
  refine Finset.sum_nonneg fun k hk => ?_
  obtain ⟨a, ha⟩ := (h.mem k).mp (List.mem_toFinset.mp hk)
  rw [ha]
  exact hf k a ha

/-- Records that are worth something add up to nothing only if each is worth nothing. -/
theorem total_eq_zero_iff (h : Lists l tab) (hf : ∀ k a, tab k = some a → 0 ≤ f a) :
    total tab f = 0 ↔ ∀ k a, tab k = some a → f a = 0 := by
  rw [h.total_eq_sum, Finset.sum_eq_zero_iff_of_nonneg]
  · constructor
    · intro hzero k a ha
      have hk := hzero k (List.mem_toFinset.mpr ((h.mem k).mpr ⟨a, ha⟩))
      rwa [ha, worth_some] at hk
    · intro hzero k hk
      obtain ⟨a, ha⟩ := (h.mem k).mp (List.mem_toFinset.mp hk)
      rw [ha, worth_some]
      exact hzero k a ha
  · intro k hk
    obtain ⟨a, ha⟩ := (h.mem k).mp (List.mem_toFinset.mp hk)
    rw [ha]
    exact hf k a ha

theorem le_total (h : Lists l tab) (hf : ∀ k a, tab k = some a → 0 ≤ f a)
    (hk : tab k = some a) : f a ≤ total tab f := by
  rw [h.total_eq_sum]
  have hmem : k ∈ l.toFinset := List.mem_toFinset.mpr ((h.mem k).mpr ⟨a, hk⟩)
  have hle := Finset.single_le_sum (f := fun k => worth f (tab k)) (s := l.toFinset)
    (fun j hj => ?_)
    hmem
  · rwa [hk, worth_some] at hle
  · obtain ⟨b, hb⟩ := (h.mem j).mp (List.mem_toFinset.mp hj)
    rw [hb]
    exact hf j b hb

/-! ## Shares in proportion -/

variable {R : Int}

theorem share_sum_mul (h : Lists l tab) (d : Int) :
    d * total tab (fun a => R * f a / d) + total tab (fun a => R * f a % d) =
      R * total tab f := by
  rw [h.total_eq_sum, h.total_eq_sum, h.total_eq_sum, Finset.mul_sum, Finset.mul_sum,
    ← Finset.sum_add_distrib]
  refine Finset.sum_congr rfl fun k _ => ?_
  cases tab k with
  | none => simp
  | some a => exact Int.mul_ediv_add_emod (R * f a) d

/-- Shares of `R` in proportion to `f` are not more than `R` together. -/
theorem share_sum_le (h : Lists l tab) (hd : 0 < total tab f) :
    total tab (fun a => R * f a / total tab f) ≤ R := by
  have hsum := h.share_sum_mul (R := R) (f := f) (total tab f)
  have hrest : 0 ≤ total tab fun a => R * f a % total tab f :=
    h.total_nonneg fun k a _ => Int.emod_nonneg _ hd.ne'
  have hle : total tab f * total tab (fun a => R * f a / total tab f) ≤ total tab f * R := by
    rw [mul_comm (total tab f) R]
    omega
  exact le_of_mul_le_mul_left hle hd

theorem lt_share_sum (h : Lists l tab) (hd : 0 < total tab f) :
    R - l.length < total tab fun a => R * f a / total tab f := by
  have hsum := h.share_sum_mul (R := R) (f := f) (total tab f)
  have hne : l ≠ [] := by
    rintro rfl
    rw [h.total_eq_sum] at hd
    simp at hd
  have hcard : l.toFinset.card = l.length := List.toFinset_card_of_nodup h.nodup
  have hrest : (total tab fun a => R * f a % total tab f) < total tab f * l.length := by
    rw [h.total_eq_sum fun a => R * f a % total tab f]
    have hlt : ∀ k ∈ l.toFinset, worth (fun a => R * f a % total tab f) (tab k) < total tab f := by
      intro k hk
      obtain ⟨a, ha⟩ := (h.mem k).mp (List.mem_toFinset.mp hk)
      rw [ha, worth_some]
      exact Int.emod_lt_of_pos _ hd
    have hnonempty : l.toFinset.Nonempty := by simpa [List.toFinset_nonempty_iff] using hne
    have hsumlt := Finset.sum_lt_sum_of_nonempty hnonempty hlt
    rw [Finset.sum_const, hcard, nsmul_eq_mul, mul_comm] at hsumlt
    exact hsumlt
  have hlt : total tab f * (R - l.length) <
      total tab f * total tab (fun a => R * f a / total tab f) := by
    rw [mul_sub, mul_comm (total tab f) R]
    omega
  exact lt_of_mul_lt_mul_left hlt hd.le

end Lists

end Agora.Lib
