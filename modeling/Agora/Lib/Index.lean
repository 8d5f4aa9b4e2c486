import Agora.Lib.Shards

/-!
# Indexes kept in shards

An index keeps for every key a list in shards (`Agora.Lib.Shards`), and a flag
for each entry of a key that tells whether it is listed. `Indexed size
flag shards H` says that the index lists exactly the pairs of `H`, each once.
Entering a pair keeps it, and taking one out does as long as no shard drops out
of reach with entries left in it (`LastFree`).
-/

namespace Agora.Lib

open Function

namespace Shards

variable {α κ : Type} [DecidableEq α] [DecidableEq κ] {size : Nat} {a : α}

/-- Removing from the shards of one key of a table, where the search succeeds. -/
theorem table_remove {shard : κ × Nat → List α} {count : κ → Nat} {key : κ} {i : Nat}
    (h : ((List.range ((count key + size - 1) / size)).find? fun i =>
      (shard (key, i)).contains a) = some i) :
    (fun k => (⟨fun n => update shard (key, i) ((shard (key, i)).filter (· != a)) (k, n),
        update count key (count key - 1) k⟩ : Shards α)) =
      update (fun k => ⟨fun n => shard (k, n), count k⟩) key
        (remove size ⟨fun n => shard (key, n), count key⟩ a) := by
  rw [remove_of_find_some (s := ⟨fun n => shard (key, n), count key⟩) h]
  funext k
  by_cases hk : k = key
  · subst hk
    simp only [update_self]
    congr 1
    funext n
    by_cases hn : n = i
    · subst hn; simp
    · simp [hn]
  · simp [hk]

end Shards

variable {α κ : Type} {size : Nat}

/-- The index lists the pairs of `H`. -/
structure Indexed (size : Nat) (flag : κ × α → Bool) (shards : κ → Shards α) (H : κ → α → Prop) :
    Prop where
  nodup : ∀ k, ((shards k).toList size).Nodup
  mem : ∀ k a, a ∈ (shards k).toList size ↔ H k a
  packed : ∀ k, (shards k).Packed size
  flag : ∀ k a, flag (k, a) = true ↔ H k a

namespace Indexed

variable {flag : κ × α → Bool} {shards : κ → Shards α} {H H' : κ → α → Prop} {k : κ} {a : α}

theorem congr (h : Indexed size flag shards H) (hH : ∀ k a, H' k a ↔ H k a) :
    Indexed size flag shards H' where
  nodup := h.nodup
  mem k a := by rw [h.mem, hH]
  packed := h.packed
  flag k a := by rw [h.flag, hH]

theorem flag_eq_false (h : Indexed size flag shards H) (ha : ¬ H k a) : flag (k, a) = false := by
  rw [← Bool.not_eq_true, h.flag]
  exact ha

variable [DecidableEq α]

/-- A removal that leaves entries out of reach loses another pair. -/
theorem exists_lost (hs : 0 < size) (h : Indexed size flag shards H) (ha : H k a)
    (hl : ¬ (shards k).LastFree size a) :
    ∃ b, H k b ∧ b ≠ a ∧ b ∉ ((shards k).remove size a).toList size := by
  obtain ⟨b, hb, hne, hlost⟩ :=
    Shards.exists_lost hs (h.packed k) (h.nodup k) ((h.mem k a).mpr ha) hl
  exact ⟨b, (h.mem k b).mp hb, hne, hlost⟩

variable [DecidableEq κ]

/-- The flag of one pair is set to whether the pair is listed. -/
theorem flag_update {b : Bool} (h : Indexed size flag shards H)
    (hH : ∀ k' a', (k', a') ≠ (k, a) → (H' k' a' ↔ H k' a')) (hb : b = true ↔ H' k a)
    (k' : κ) (a' : α) : update flag (k, a) b (k', a') = true ↔ H' k' a' := by
  by_cases hka : (k', a') = (k, a)
  · rw [hka, update_self, hb]
    obtain ⟨rfl, rfl⟩ := Prod.mk.inj hka
    rfl
  · rw [update_of_ne hka, h.flag, hH k' a' hka]

/-- **Entering.** -/
theorem enter (hs : 0 < size) (h : Indexed size flag shards H) (ha : ¬ H k a) :
    Indexed size (update flag (k, a) true) (update shards k ((shards k).push size a))
      fun k' a' => H k' a' ∨ k' = k ∧ a' = a := by
  refine ⟨fun k' => ?_, fun k' a' => ?_, fun k' => ?_, h.flag_update ?_ (by simp)⟩
  · by_cases hk : k' = k
    · subst hk
      rw [update_self, Shards.toList_push hs (h.packed k')]
      rw [← List.concat_eq_append]
      exact .concat (fun hmem => ha ((h.mem k' a).mp hmem)) (h.nodup k')
    · rw [update_of_ne hk]
      exact h.nodup k'
  · by_cases hk : k' = k
    · subst hk
      rw [update_self, Shards.toList_push hs (h.packed k')]
      simp [h.mem]
    · rw [update_of_ne hk]
      simp [h.mem, hk]
  · by_cases hk : k' = k
    · subst hk
      rw [update_self]
      exact (h.packed k').push hs
    · rw [update_of_ne hk]
      exact h.packed k'
  · intro k' a' hne
    rw [Ne, Prod.mk.injEq] at hne
    simp [hne]

/-- **Taking out.** -/
theorem leave (hs : 0 < size) (h : Indexed size flag shards H) (ha : H k a)
    (hl : (shards k).LastFree size a) :
    Indexed size (update flag (k, a) false) (update shards k ((shards k).remove size a))
      fun k' a' => H k' a' ∧ ¬ (k' = k ∧ a' = a) := by
  have hmem := (h.mem k a).mpr ha
  refine ⟨fun k' => ?_, fun k' a' => ?_, fun k' => ?_, h.flag_update ?_ (by simp)⟩
  · by_cases hk : k' = k
    · subst hk
      rw [update_self, Shards.toList_remove hs (h.packed k') (h.nodup k') hmem hl]
      exact (h.nodup k').filter _
    · rw [update_of_ne hk]
      exact h.nodup k'
  · by_cases hk : k' = k
    · subst hk
      rw [update_self, Shards.toList_remove hs (h.packed k') (h.nodup k') hmem hl]
      simp [h.mem]
    · rw [update_of_ne hk]
      simp [h.mem, hk]
  · by_cases hk : k' = k
    · subst hk
      rw [update_self]
      exact (h.packed k').remove hs (h.nodup k') hmem hl
    · rw [update_of_ne hk]
      exact h.packed k'
  · intro k' a' hne
    rw [Ne, Prod.mk.injEq] at hne
    simp [hne]

end Indexed

end Agora.Lib
