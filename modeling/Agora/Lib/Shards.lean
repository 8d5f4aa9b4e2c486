import Mathlib.Data.List.Nodup
import Mathlib.Logic.Function.Basic

/-!
# Lists kept in shards

A list of unbounded length is stored as shards addressed by a running count:
a new entry goes to the shard with the number `count / size`, and a reader
concatenates the shards below `⌈count / size⌉`. Removal takes an entry out of
its shard and lowers the count, and moves nothing. `Packed` says that nothing
lies beyond the shards that are read; pushing keeps it, and removing keeps it
exactly when the shard that drops out of reach is empty by then (`LastFree`).
-/

namespace Agora.Lib

open Function

structure Shards (α : Type) where
  shard : Nat → List α
  count : Nat

namespace Shards

variable {α : Type} {size : Nat} {s : Shards α} {a b : α}

/-- The number of shards that are read. -/
def used (size : Nat) (s : Shards α) : Nat := (s.count + size - 1) / size

def toList (size : Nat) (s : Shards α) : List α := (List.range (s.used size)).flatMap s.shard

def push (size : Nat) (s : Shards α) (a : α) : Shards α where
  shard := update s.shard (s.count / size) (s.shard (s.count / size) ++ [a])
  count := s.count + 1

/-- The first shard that is read and holds the entry loses it. -/
def remove [DecidableEq α] (size : Nat) (s : Shards α) (a : α) : Shards α :=
  match (List.range (s.used size)).find? fun i => (s.shard i).contains a with
  | none => s
  | some i => ⟨update s.shard i ((s.shard i).filter (· != a)), s.count - 1⟩

/-- Nothing lies beyond the shards that are read. -/
def Packed (size : Nat) (s : Shards α) : Prop := ∀ i, s.used size ≤ i → s.shard i = []

/-- When the count falls back to a multiple of the size, the last shard holds
nothing but the removed entry. -/
def LastFree (size : Nat) (s : Shards α) (a : α) : Prop :=
  size ∣ s.count - 1 → ∀ b ∈ s.shard ((s.count - 1) / size), b = a

theorem table_push {κ : Type} [DecidableEq κ] {shard : κ × Nat → List α} {count : κ → Nat}
    (key : κ) :
    (fun k => (⟨fun n => update shard (key, count key / size)
        (shard (key, count key / size) ++ [a]) (k, n),
        update count key (count key + 1) k⟩ : Shards α)) =
      update (fun k => ⟨fun n => shard (k, n), count k⟩) key
        (push size ⟨fun n => shard (key, n), count key⟩ a) := by
  funext k
  by_cases hk : k = key
  · subst hk
    simp only [push, update_self]
    congr 1
    funext n
    by_cases hn : n = count k / size
    · subst hn; simp
    · simp [hn]
  · simp [hk]

theorem mem_toList : a ∈ s.toList size ↔ ∃ i < s.used size, a ∈ s.shard i := by
  simp [toList]

/-! ## Reach -/

theorem used_of_count_eq_succ {c : Nat} (hs : 0 < size) (hc : s.count = c + 1) :
    s.used size = c / size + 1 := by
  rw [used, hc, show c + 1 + size - 1 = c + size by omega, Nat.add_div_right c hs]

theorem used_eq {c : Nat} (hs : 0 < size) (hc : s.count = c) :
    s.used size = if size ∣ c then c / size else c / size + 1 := by
  rw [used, hc]
  split
  · rename_i hd
    obtain ⟨k, rfl⟩ := hd
    rw [Nat.mul_div_cancel_left k hs, Nat.add_sub_assoc hs, Nat.mul_add_div hs,
      Nat.div_eq_of_lt (by omega), Nat.add_zero]
  · rename_i hd
    have hmod : 0 < c % size := Nat.pos_of_ne_zero fun h0 => hd (Nat.dvd_of_mod_eq_zero h0)
    have hlt := Nat.mod_lt c hs
    have hdm := Nat.div_add_mod c size
    have hsplit : c + size - 1 = size * (c / size + 1) + (c % size - 1) := by
      rw [Nat.mul_add, Nat.mul_one]
      omega
    have hrest : (c % size - 1) / size = 0 := Nat.div_eq_of_lt (by omega)
    rw [hsplit, Nat.mul_add_div hs, hrest, Nat.add_zero]

theorem used_le (hs : 0 < size) : s.used size ≤ s.count / size + 1 := by
  rw [used, ← Nat.add_div_right s.count hs]
  exact Nat.div_le_div_right (by omega)

theorem pos_of_used_pos (h : 0 < s.used size) : 0 < s.count := by
  by_contra h0
  have hlt : s.count + size - 1 < size ∨ size = 0 := by omega
  rcases hlt with hlt | rfl
  · rw [used, Nat.div_eq_of_lt hlt] at h
    omega
  · simp [used] at h

theorem flatMap_range_add {f : Nat → List α} {m : Nat} (hf : ∀ i, m ≤ i → f i = []) (k : Nat) :
    (List.range (m + k)).flatMap f = (List.range m).flatMap f := by
  induction k with
  | zero => rfl
  | succ k ih => rw [← Nat.add_assoc, List.range_succ, List.flatMap_append, ih]; simp [hf]

theorem Packed.flatMap_range {n : Nat} (h : Packed size s) (hn : s.used size ≤ n) :
    (List.range n).flatMap s.shard = s.toList size := by
  obtain ⟨k, rfl⟩ := Nat.exists_eq_add_of_le hn
  exact flatMap_range_add h k

/-! ## Pushing -/

theorem mem_toList_push (hs : 0 < size) : a ∈ (s.push size a).toList size := by
  have hu : (s.push size a).used size = s.count / size + 1 := used_of_count_eq_succ hs rfl
  refine mem_toList.mpr ⟨s.count / size, by omega, ?_⟩
  simp [push]

theorem toList_push (hs : 0 < size) (h : Packed size s) :
    (s.push size a).toList size = s.toList size ++ [a] := by
  have hu : (s.push size a).used size = s.count / size + 1 := used_of_count_eq_succ hs rfl
  have hold : (List.range (s.count / size)).flatMap (s.push size a).shard =
      (List.range (s.count / size)).flatMap s.shard := by
    refine List.flatMap_congr fun i hi => ?_
    have hne : i ≠ s.count / size := Nat.ne_of_lt (List.mem_range.mp hi)
    simp [push, hne]
  rw [toList, hu, ← h.flatMap_range (used_le hs), List.range_succ, List.flatMap_append,
    List.flatMap_append, hold]
  simp [push]

theorem Packed.push (hs : 0 < size) (h : Packed size s) : Packed size (s.push size a) := by
  intro i hi
  rw [used_of_count_eq_succ hs (c := s.count) rfl] at hi
  have hne : i ≠ s.count / size := by omega
  have hle := used_le (s := s) hs
  simpa [Shards.push, hne] using h i (by omega)

/-! ## Removing -/

/-- An entry of a list without repetition lies in one shard. -/
theorem eq_of_mem_shard (hn : (s.toList size).Nodup) {i j : Nat} (hi : i < s.used size)
    (hj : j < s.used size) (hai : a ∈ s.shard i) (haj : a ∈ s.shard j) : i = j := by
  have hp := List.pairwise_iff_getElem.mp (List.nodup_flatMap.mp hn).2
  simp only [List.length_range, List.getElem_range, onFun] at hp
  rcases Nat.lt_trichotomy i j with hlt | heq | hgt
  · exact absurd haj (hp i j hi hj hlt hai)
  · exact heq
  · exact absurd hai (hp j i hj hi hgt haj)

theorem exists_count_of_mem (ha : a ∈ s.toList size) : ∃ c, s.count = c + 1 := by
  obtain ⟨i, hi, -⟩ := mem_toList.mp ha
  exact Nat.exists_eq_add_one.mpr (pos_of_used_pos (Nat.zero_lt_of_lt hi))

variable [DecidableEq α]

theorem remove_of_find_none
    (h : ((List.range (s.used size)).find? fun i => (s.shard i).contains a) = none) :
    s.remove size a = s := by
  rw [remove, h]

theorem remove_of_find_some {i : Nat}
    (h : ((List.range (s.used size)).find? fun i => (s.shard i).contains a) = some i) :
    s.remove size a = ⟨update s.shard i ((s.shard i).filter (· != a)), s.count - 1⟩ := by
  rw [remove, h]

theorem find_of_notMem (ha : a ∉ s.toList size) :
    ((List.range (s.used size)).find? fun i => (s.shard i).contains a) = none := by
  rw [List.find?_eq_none]
  intro i hi hc
  exact ha (mem_toList.mpr ⟨i, List.mem_range.mp hi, by simpa using hc⟩)

/-- Removal takes the entry out of every shard: only one has it. -/
theorem remove_of_mem (h : Packed size s) (hn : (s.toList size).Nodup)
    (ha : a ∈ s.toList size) :
    s.remove size a = ⟨fun i => (s.shard i).filter (· != a), s.count - 1⟩ := by
  cases hfind : (List.range (s.used size)).find? fun i => (s.shard i).contains a with
  | none =>
    obtain ⟨i, hi, hai⟩ := mem_toList.mp ha
    have hno := List.find?_eq_none.mp hfind i (List.mem_range.mpr hi)
    simp [hai] at hno
  | some i =>
    rw [remove_of_find_some hfind]
    have hi := List.mem_range.mp (List.mem_of_find?_eq_some hfind)
    have hai : a ∈ s.shard i := by simpa using List.find?_some hfind
    congr 1
    funext j
    by_cases hji : j = i
    · subst hji; simp
    · rw [update_of_ne hji]
      have haj : a ∉ s.shard j := by
        intro haj
        rcases Nat.lt_or_ge j (s.used size) with hj | hj
        · exact hji (eq_of_mem_shard hn hj hi haj hai)
        · simp [h j hj] at haj
      rw [List.filter_eq_self.mpr]
      intro b hb
      have hba : b ≠ a := by rintro rfl; exact haj hb
      simpa using hba

theorem Packed.remove (hs : 0 < size) (h : Packed size s) (hn : (s.toList size).Nodup)
    (ha : a ∈ s.toList size) (hl : LastFree size s a) : Packed size (s.remove size a) := by
  obtain ⟨c, hc⟩ := exists_count_of_mem ha
  rw [remove_of_mem h hn ha]
  intro i hi
  rw [used_eq (c := c) hs (by simp [hc])] at hi
  have hu := used_of_count_eq_succ hs hc
  rcases Nat.lt_or_ge i (s.used size) with hlt | hge
  · -- the shard that drops out of reach
    split at hi
    · rename_i hd
      have hi : i = (s.count - 1) / size := by
        rw [hc, Nat.add_sub_cancel]
        omega
      have hall := hl (by rwa [hc, Nat.add_sub_cancel])
      rw [← hi] at hall
      rw [List.filter_eq_nil_iff]
      intro b hb
      simp [hall b hb]
    · omega
  · simp [h i hge]

theorem toList_remove (hs : 0 < size) (h : Packed size s) (hn : (s.toList size).Nodup)
    (ha : a ∈ s.toList size) (hl : LastFree size s a) :
    (s.remove size a).toList size = (s.toList size).filter (· != a) := by
  have hp := h.remove hs hn ha hl
  obtain ⟨c, hc⟩ := exists_count_of_mem ha
  rw [remove_of_mem h hn ha] at hp ⊢
  have hle : Shards.used size ⟨fun i => (s.shard i).filter (· != a), s.count - 1⟩ ≤
      s.used size := by
    rw [used_eq (c := c) hs (by simp [hc]), used_of_count_eq_succ hs hc]
    split <;> omega
  rw [← hp.flatMap_range hle, toList, List.filter_flatMap]

/-- An entry left in the shard that drops out of reach is lost. -/
theorem exists_lost (hs : 0 < size) (h : Packed size s) (hn : (s.toList size).Nodup)
    (ha : a ∈ s.toList size) (hl : ¬ LastFree size s a) :
    ∃ b ∈ s.toList size, b ≠ a ∧ b ∉ (s.remove size a).toList size := by
  obtain ⟨c, hc⟩ := exists_count_of_mem ha
  simp only [LastFree, hc, Nat.add_sub_cancel, not_forall] at hl
  obtain ⟨hd, b, hb, hne⟩ := hl
  have hu := used_of_count_eq_succ hs hc
  refine ⟨b, mem_toList.mpr ⟨c / size, by omega, hb⟩, hne, ?_⟩
  rw [remove_of_mem h hn ha, mem_toList, used_eq (c := c) hs (by simp [hc]), if_pos hd]
  rintro ⟨i, hi, hbi⟩
  have := eq_of_mem_shard hn (by omega) (by omega) (List.mem_of_mem_filter hbi) hb
  omega

example : let s : Shards Nat := ⟨fun i => [[1, 2], [3]].getD i [], 3⟩
    s.toList 2 = [1, 2, 3] ∧ (s.remove 2 1).toList 2 = [2] := by
  decide

end Shards

end Agora.Lib
