import Mathlib.Data.Nat.Notation
import Mathlib.Logic.Function.Basic

/-!
# One winner for each row

Requests compete for the rows of a table: a request wins a row by marking it,
and no mark is ever taken back. When every request that wins saw the row
unmarked at some time, each row has one winner at most exactly when it is
unmarked at the moment it is won: `Winners` is the invariant, `Winners.win`
keeps it, and `Winners.unmarked` is the converse.
-/

namespace Agora.Lib

open Function

variable {K R : Type}

/-- The rows against the rows of the start and the requests that won. -/
structure Winners (marked : R → Prop) (base rows : K → Option R) (won : ℕ → Option K) : Prop where
  once : ∀ i j k, won i = some k → won j = some k → i = j
  row : ∀ k, rows k = base k ∨ (∃ r, rows k = some r ∧ marked r) ∧ ∃ i, won i = some k
  mark : ∀ i k, won i = some k → ∃ r, rows k = some r ∧ marked r

/-- The row is there and unmarked. -/
def Unmarked (marked : R → Prop) (rows : K → Option R) (k : K) : Prop :=
  ∃ r, rows k = some r ∧ ¬ marked r

namespace Winners

variable {marked : R → Prop} {base rows : K → Option R} {won : ℕ → Option K} {i : ℕ} {k : K}
  {f : R → R}

theorem new (marked : R → Prop) (base : K → Option R) : Winners marked base base fun _ => none where
  once := nofun
  row _ := .inl rfl
  mark := nofun

theorem ne_of_unmarked (h : Winners marked base rows won) (hrows : Unmarked marked rows k) :
    won i ≠ some k := by
  intro hi
  obtain ⟨r, hr, hunmarked⟩ := hrows
  obtain ⟨r', hr', hmarked⟩ := h.mark i k hi
  obtain rfl := Option.some.inj (hr.symm.trans hr')
  exact hunmarked hmarked

theorem base_unmarked (h : Winners marked base rows won) (hrows : Unmarked marked rows k) :
    Unmarked marked base k := by
  rcases h.row k with heq | ⟨⟨r, hr, hmarked⟩, -⟩
  · rw [Unmarked, ← heq]
    exact hrows
  · obtain ⟨r', hr', hunmarked⟩ := hrows
    obtain rfl := Option.some.inj (hr.symm.trans hr')
    exact absurd hmarked hunmarked

/-- A row that was unmarked at the start is so until it has a winner. -/
theorem unmarked_or (h : Winners marked base rows won) (hbase : Unmarked marked base k) :
    Unmarked marked rows k ∨ ∃ i, won i = some k := by
  rcases h.row k with heq | ⟨-, hwon⟩
  · left
    rw [Unmarked, heq]
    exact hbase
  · exact .inr hwon

theorem win [DecidableEq K] (h : Winners marked base rows won) (hf : ∀ r, marked (f r))
    (hi : won i = none) (hrows : Unmarked marked rows k) :
    Winners marked base (update rows k ((rows k).map f)) (update won i (some k)) := by
  have hnone : ∀ j, won j ≠ some k := fun j => h.ne_of_unmarked hrows
  obtain ⟨r, hr, -⟩ := hrows
  have hself : update rows k ((rows k).map f) k = some (f r) := by rw [update_self, hr]; rfl
  refine ⟨fun j l k' hj hl => ?_, fun k' => ?_, fun j k' hj => ?_⟩
  · by_cases hji : j = i
    · subst hji
      rw [update_self, Option.some.injEq] at hj
      subst hj
      by_contra hne
      rw [update_of_ne (Ne.symm hne)] at hl
      exact hnone l hl
    · rw [update_of_ne hji] at hj
      have hli : l ≠ i := by
        rintro rfl
        rw [update_self, Option.some.injEq] at hl
        exact hnone j (hl ▸ hj)
      rw [update_of_ne hli] at hl
      exact h.once j l k' hj hl
  · by_cases hk : k' = k
    · subst hk
      exact .inr ⟨⟨f r, hself, hf r⟩, i, update_self ..⟩
    · rw [update_of_ne hk]
      refine (h.row k').imp_right (And.imp_right fun ⟨j, hj⟩ => ⟨j, ?_⟩)
      rw [update_of_ne (by rintro rfl; cases hi.symm.trans hj)]
      exact hj
  · by_cases hji : j = i
    · subst hji
      rw [update_self, Option.some.injEq] at hj
      exact hj ▸ ⟨f r, hself, hf r⟩
    · rw [update_of_ne hji] at hj
      rw [update_of_ne (by rintro rfl; exact hnone j hj)]
      exact h.mark j k' hj

/-- After the request no row may have two winners: then the row was unmarked. -/
theorem unmarked (h : Winners marked base rows won) (hi : won i = none)
    (hbase : Unmarked marked base k)
    (honce : ∀ j l k', update won i (some k) j = some k' → update won i (some k) l = some k' →
      j = l) : Unmarked marked rows k := by
  rcases h.unmarked_or hbase with hrows | ⟨j, hj⟩
  · exact hrows
  · have hji : j ≠ i := by
      rintro rfl
      cases hi.symm.trans hj
    exact absurd (honce j i k ((update_of_ne hji ..).trans hj) (update_self ..)) hji

end Winners

end Agora.Lib
