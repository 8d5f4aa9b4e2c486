import Agora.Crdt.VectorClock
import Mathlib.Data.Prod.Lex
import Mathlib.Order.WithBot

/-!
# Last-write-wins element sets

`lww_element_set.rs` of the server and `lwwElementSet.ts` of the mobile app:
for each value, under its serialized key, the last operation on it with its
timestamp. Equal timestamps are decided by the vector clocks.

A local operation carries the clock of one node, with counter 1. So every clock
that is reached has counters up to 1 and not all of them 0, and the clock of a
tombstone is that of one node (`LwwElement.Sound`). Such a clock is never above
another. Hence `add` and `remove` never replace an element with their own
timestamp, and `merge` keeps the higher stamp, the timestamp with an add above
a remove: `view_merge`.
-/

namespace Agora.Crdt

open Lib

/-- An operation on a value, as a replica keeps it. -/
structure LwwElement (T : Type) where
  value : T
  timestamp : Int
  vectorClock : VectorClock
  isAdd : Bool
  deriving DecidableEq

structure LwwElementSet (T : Type) where
  elements : OrdMap String (LwwElement T)
  deriving DecidableEq

namespace LwwElementSet

variable {T : Type} (key : T → String) (s : LwwElementSet T)

def new : LwwElementSet T := ⟨OrdMap.empty⟩

/-- The common body of `add` and `remove`; without a timestamp the local clock is read. -/
def write (isAdd : Bool) (now : Int) (value : T) (nodeId : String) (timestamp : Option Int) :
    LwwElementSet T :=
  let effectiveTimestamp := timestamp.getD now
  let vectorClock := VectorClock.create nodeId 1
  let element : LwwElement T := ⟨value, effectiveTimestamp, vectorClock, isAdd⟩
  match s.elements.get (key value) with
  | some existing =>
    if existing.timestamp < effectiveTimestamp then ⟨s.elements.set (key value) element⟩
    else if effectiveTimestamp = existing.timestamp then
      if 0 < vectorClock.compare existing.vectorClock then ⟨s.elements.set (key value) element⟩
      else s
    else s
  | none => ⟨s.elements.set (key value) element⟩

def add (now : Int) (value : T) (nodeId : String) (timestamp : Option Int) : LwwElementSet T :=
  s.write key true now value nodeId timestamp

def remove (now : Int) (value : T) (nodeId : String) (timestamp : Option Int) : LwwElementSet T :=
  s.write key false now value nodeId timestamp

def has (value : T) : Bool :=
  match s.elements.get (key value) with
  | some element => element.isAdd
  | none => false

def values : List T := (s.elements.values.filter (·.isAdd)).map (·.value)

/-- One round of `merge`. -/
def mergeEntry (elements : OrdMap String (LwwElement T)) (k : String) (other : LwwElement T) :
    OrdMap String (LwwElement T) :=
  match elements.get k with
  | some existing =>
    if existing.timestamp < other.timestamp then elements.set k other
    else if other.timestamp = existing.timestamp then
      let mergedClock := existing.vectorClock.merge other.vectorClock
      let comparison := other.vectorClock.compare existing.vectorClock
      if 0 < comparison then elements.set k { other with vectorClock := mergedClock }
      else if comparison = 0 then
        -- concurrent with the same timestamp: an add goes before a remove
        if other.isAdd && !existing.isAdd then
          elements.set k { other with vectorClock := mergedClock }
        else elements
      else elements
    else elements
  | none => elements.set k other

def merge (other : LwwElementSet T) : LwwElementSet T :=
  ⟨other.elements.fold mergeEntry s.elements⟩

/-- A replica reached from an empty one by operations and merges. -/
inductive Reached (key : T → String) : LwwElementSet T → Prop where
  | new : Reached key new
  | write {s : LwwElementSet T} (isAdd : Bool) (now : Int) (value : T) (nodeId : String)
      (timestamp : Option Int) (h : Reached key s) :
      Reached key (s.write key isAdd now value nodeId timestamp)
  | merge {s t : LwwElementSet T} (hs : Reached key s) (ht : Reached key t) :
      Reached key (s.merge t)

end LwwElementSet

/-! ## Clocks of one round -/

namespace VectorClock

variable {a b : VectorClock} {n : String}

/-- The counters are up to 1 and not all 0. -/
structure Flat (c : VectorClock) : Prop where
  le_one : ∀ n, c.getCounter n ≤ 1
  nonempty : ∃ n, c.getCounter n = 1

/-- One node's counter is 1 and the others are 0. -/
def Single (c : VectorClock) : Prop := ∃ n, ∀ m, c.getCounter m = if m = n then 1 else 0

theorem single_create (n : String) : (create n 1).Single := ⟨n, fun _ => getCounter_create⟩

theorem Single.flat (h : a.Single) : a.Flat := by
  obtain ⟨n, hn⟩ := h
  refine ⟨fun m => ?_, n, ?_⟩
  · rw [hn]; split <;> omega
  · rw [hn, if_pos rfl]

theorem Flat.merge (ha : a.Flat) (hb : b.Flat) : (a.merge b).Flat := by
  obtain ⟨n, hn⟩ := ha.nonempty
  refine ⟨fun m => ?_, n, ?_⟩
  · rw [getCounter_merge]
    exact max_le (ha.le_one m) (hb.le_one m)
  · rw [getCounter_merge, hn]
    exact max_eq_left (hb.le_one n)

/-- What a clock of one node is not below is not below it. -/
theorem Single.le_of_ge (ha : a.Single) (hb : b.Flat) (h : b ≤ a) : a ≤ b := by
  obtain ⟨n, hn⟩ := ha
  obtain ⟨m, hm⟩ := hb.nonempty
  intro i
  have hmn := h m
  rw [hn, hm] at hmn
  obtain rfl : m = n := by
    by_contra hne
    rw [if_neg hne] at hmn
    omega
  rw [hn]
  split
  · rename_i hi
    rw [hi, hm]
  · exact Nat.zero_le _

theorem Single.not_compare_pos (ha : a.Single) (hb : b.Flat) : ¬ 0 < a.compare b := by
  rw [compare_pos]
  rintro ⟨h, hnot⟩
  exact hnot (ha.le_of_ge hb h)

theorem Single.not_compare_neg (ha : a.Single) (hb : b.Flat) : ¬ b.compare a < 0 := by
  rw [compare_neg]
  rintro ⟨h, hnot⟩
  exact hnot (ha.le_of_ge hb h)

end VectorClock

/-! ## Stamps -/

/-- The timestamp of an operation and whether it is an add, an add above a remove. -/
abbrev Stamp := Int ×ₗ Bool

namespace LwwElement

variable {T : Type} {e o : LwwElement T}

def stamp (e : LwwElement T) : Stamp := toLex (e.timestamp, e.isAdd)

/-- What holds of the clock of every element that is reached. -/
structure Sound (e : LwwElement T) : Prop where
  flat : e.vectorClock.Flat
  tombstone : e.isAdd = false → e.vectorClock.Single

/-- The element after a round of `merge`. -/
def join (existing : Option (LwwElement T)) (other : LwwElement T) : LwwElement T :=
  match existing with
  | none => other
  | some e =>
    if e.timestamp < other.timestamp then other
    else if other.timestamp = e.timestamp ∧
        (0 < other.vectorClock.compare e.vectorClock ∨
          other.vectorClock.compare e.vectorClock = 0 ∧ other.isAdd = true ∧ e.isAdd = false) then
      { other with vectorClock := e.vectorClock.merge other.vectorClock }
    else e

theorem stamp_lt_of_timestamp (h : e.timestamp < o.timestamp) : e.stamp < o.stamp :=
  Prod.Lex.toLex_lt_toLex.mpr (.inl h)

theorem stamp_le_of_timestamp (ht : e.timestamp = o.timestamp)
    (ha : e.isAdd = true → o.isAdd = true) : e.stamp ≤ o.stamp := by
  refine Prod.Lex.toLex_le_toLex.mpr (.inr ⟨ht, ?_⟩)
  exact Bool.le_iff_imp.mpr ha

theorem Sound.join {existing : Option (LwwElement T)} (he : ∀ e ∈ existing, e.Sound)
    (ho : o.Sound) : (join existing o).Sound := by
  cases existing with
  | none => exact ho
  | some e =>
    have he := he e rfl
    unfold LwwElement.join
    dsimp only
    split
    · exact ho
    · split
      · rename_i hwins
        refine ⟨he.flat.merge ho.flat, fun hremove => ?_⟩
        -- a tombstone has the clock of one node, so it does not win a tie
        rcases hwins.2 with hpos | ⟨-, hadd, -⟩
        · exact absurd hpos ((ho.tombstone hremove).not_compare_pos he.flat)
        · rw [show o.isAdd = false from hremove] at hadd
          cases hadd
      · exact he

/-- **The higher stamp is kept.** -/
theorem stamp_join (he : e.Sound) (ho : o.Sound) :
    (join (some e) o).stamp = max e.stamp o.stamp := by
  unfold join
  dsimp only
  split
  · rename_i hlt
    exact (max_eq_right (stamp_lt_of_timestamp hlt).le).symm
  · rename_i hlt
    split
    · rename_i hwins
      obtain ⟨ht, hclock⟩ := hwins
      have hle : e.stamp ≤ o.stamp := by
        refine stamp_le_of_timestamp ht.symm fun hadd => ?_
        cases ho' : o.isAdd with
        | true => rfl
        | false =>
          rcases hclock with hpos | ⟨-, h, -⟩
          · exact absurd hpos ((ho.tombstone ho').not_compare_pos he.flat)
          · rw [ho'] at h
            cases h
      rw [max_eq_right hle]
      rfl
    · rename_i hloses
      refine (max_eq_left ?_).symm
      rcases lt_or_eq_of_le (not_lt.mp hlt) with hgt | ht
      · exact (stamp_lt_of_timestamp hgt).le
      · refine stamp_le_of_timestamp ht fun hadd => ?_
        cases he' : e.isAdd with
        | true => rfl
        | false =>
          -- the clock of a tombstone is not above that of the add
          have hneg := (he.tombstone he').not_compare_neg ho.flat
          refine absurd ⟨ht, ?_⟩ hloses
          rcases lt_or_eq_of_le (not_lt.mp hneg) with hpos | hzero
          · exact .inl hpos
          · exact .inr ⟨hzero.symm, hadd, he'⟩

end LwwElement

/-! ## What a replica shows -/

namespace LwwElementSet

variable {T : Type} {key : T → String} {s t : LwwElementSet T} {k : String}

/-- The stamp under a key, if there is an element. -/
def view (s : LwwElementSet T) (k : String) : WithBot Stamp :=
  (s.elements.get k).elim ⊥ fun e => e.stamp

/-- Every element is stored under its key with a sound clock. -/
structure Sound (key : T → String) (s : LwwElementSet T) : Prop where
  sound : ∀ k e, s.elements.get k = some e → e.Sound
  keyed : ∀ k e, s.elements.get k = some e → key e.value = k

theorem has_eq_true {v : T} : s.has key v = true ↔
    ∃ e, s.elements.get (key v) = some e ∧ e.isAdd = true := by
  unfold has
  cases s.elements.get (key v) <;> simp

/-- A value is there exactly if the operation under its key is an add. -/
theorem has_iff_view {v : T} :
    s.has key v = true ↔ ∃ ts : Int, s.view (key v) = (toLex (ts, true) : Stamp) := by
  rw [has_eq_true]
  unfold view
  cases s.elements.get (key v) with
  | none => simp
  | some e =>
    simp only [Option.some.injEq, exists_eq_left', Option.elim_some, LwwElement.stamp,
      WithBot.coe_inj, EmbeddingLike.apply_eq_iff_eq, Prod.mk.injEq, exists_eq_left']

theorem has_eq_of_view {v : T} (h : s.view (key v) = t.view (key v)) :
    s.has key v = t.has key v := by
  rw [Bool.eq_iff_iff, has_iff_view, has_iff_view, h]

theorem mem_values {v : T} : v ∈ s.values ↔
    ∃ k e, s.elements.get k = some e ∧ e.isAdd = true ∧ e.value = v := by
  unfold values
  simp only [List.mem_map, List.mem_filter, OrdMap.mem_values]
  constructor
  · rintro ⟨e, ⟨⟨k, hk⟩, hadd⟩, rfl⟩
    exact ⟨k, e, hk, hadd, rfl⟩
  · rintro ⟨k, e, hk, hadd, rfl⟩
    exact ⟨e, ⟨⟨k, hk⟩, hadd⟩, rfl⟩

theorem get_mergeEntry {m : OrdMap String (LwwElement T)} {o : LwwElement T} :
    (mergeEntry m k o).get k = some (LwwElement.join (m.get k) o) := by
  unfold mergeEntry LwwElement.join
  cases hm : m.get k with
  | none => exact OrdMap.get_set_self
  | some e =>
    dsimp only
    by_cases hlt : e.timestamp < o.timestamp
    · rw [if_pos hlt, if_pos hlt]
      exact OrdMap.get_set_self
    · rw [if_neg hlt, if_neg hlt]
      by_cases ht : o.timestamp = e.timestamp
      · rw [if_pos ht]
        by_cases hpos : 0 < o.vectorClock.compare e.vectorClock
        · rw [if_pos hpos, if_pos ⟨ht, .inl hpos⟩]
          exact OrdMap.get_set_self
        · by_cases hzero : o.vectorClock.compare e.vectorClock = 0
          · by_cases hadd : o.isAdd = true ∧ e.isAdd = false
            · have hcond : (o.isAdd && !e.isAdd) = true := by simp [hadd]
              rw [if_neg hpos, if_pos hzero, if_pos hcond, if_pos ⟨ht, .inr ⟨hzero, hadd⟩⟩]
              exact OrdMap.get_set_self
            · have hcond : ¬ (o.isAdd && !e.isAdd) = true := by simpa using hadd
              rw [if_neg hpos, if_pos hzero, if_neg hcond, if_neg, hm]
              rintro ⟨-, h | ⟨-, h⟩⟩
              · exact hpos h
              · exact hadd h
          · rw [if_neg hpos, if_neg hzero, if_neg, hm]
            rintro ⟨-, h | ⟨h, -⟩⟩
            · exact hpos h
            · exact hzero h
      · rw [if_neg ht, if_neg fun h => ht h.1, hm]

theorem get_mergeEntry_of_ne {m : OrdMap String (LwwElement T)} {o : LwwElement T} {j : String}
    (hj : j ≠ k) : (mergeEntry m k o).get j = m.get j := by
  unfold mergeEntry
  dsimp only
  split
  · split_ifs <;> first | exact OrdMap.get_set_of_ne hj | rfl
  · exact OrdMap.get_set_of_ne hj

theorem get_merge : (s.merge t).elements.get k =
    (t.elements.get k).elim (s.elements.get k) fun o =>
      some (LwwElement.join (s.elements.get k) o) :=
  OrdMap.get_fold (g := fun x o => some (LwwElement.join x o))
    (fun _ _ _ => get_mergeEntry) (fun _ _ _ _ hj => get_mergeEntry_of_ne hj) _ _ _

theorem Sound.merge (hs : s.Sound key) (ht : t.Sound key) : (s.merge t).Sound key := by
  refine ⟨fun k e he => ?_, fun k e he => ?_⟩
  · rw [get_merge] at he
    cases hk : t.elements.get k with
    | none =>
      rw [hk] at he
      exact hs.sound k e he
    | some o =>
      rw [hk] at he
      cases he
      exact .join (hs.sound k) (ht.sound k o hk)
  · rw [get_merge] at he
    cases hk : t.elements.get k with
    | none =>
      rw [hk] at he
      exact hs.keyed k e he
    | some o =>
      rw [hk] at he
      cases he
      have hok := ht.keyed k o hk
      unfold LwwElement.join
      split
      · exact hok
      · rename_i x hx
        split
        · exact hok
        · split
          · exact hok
          · exact hs.keyed k x hx

/-- **A merge shows the higher stamp of each key.** -/
theorem view_merge (hs : s.Sound key) (ht : t.Sound key) :
    (s.merge t).view k = s.view k ⊔ t.view k := by
  unfold view
  rw [get_merge]
  cases hk : t.elements.get k with
  | none => simp
  | some o =>
    cases hk' : s.elements.get k with
    | none => simp [LwwElement.join]
    | some e =>
      simp only [Option.elim_some]
      rw [LwwElement.stamp_join (hs.sound k e hk') (ht.sound k o hk)]
      rfl

/-- The element that an operation would write. -/
def written (isAdd : Bool) (now : Int) (value : T) (nodeId : String) (timestamp : Option Int) :
    LwwElement T :=
  ⟨value, timestamp.getD now, VectorClock.create nodeId 1, isAdd⟩

section Write

variable {isAdd : Bool} {now : Int} {value : T} {nodeId : String} {timestamp : Option Int}

theorem written_sound : (written isAdd now value nodeId timestamp).Sound :=
  ⟨(VectorClock.single_create nodeId).flat, fun _ => VectorClock.single_create nodeId⟩

/-- A local operation replaces what is older, and nothing else. -/
theorem write_eq (hs : s.Sound key) :
    s.write key isAdd now value nodeId timestamp =
      if ∀ e ∈ s.elements.get (key value), e.timestamp < timestamp.getD now then
        ⟨s.elements.set (key value) (written isAdd now value nodeId timestamp)⟩
      else s := by
  unfold write
  dsimp only
  split
  · rename_i e he
    have hclock : ¬ 0 < (VectorClock.create nodeId 1).compare e.vectorClock :=
      (VectorClock.single_create nodeId).not_compare_pos (hs.sound _ e he).flat
    simp only [he, Option.mem_def, Option.some.injEq, forall_eq', if_neg hclock, ite_self]
    rfl
  · rename_i hnone
    simp only [hnone, Option.mem_def, reduceCtorEq, false_implies, implies_true, if_true]
    rfl

theorem Sound.write (hs : s.Sound key) :
    (s.write key isAdd now value nodeId timestamp).Sound key := by
  rw [write_eq hs]
  split
  · refine ⟨fun k e he => ?_, fun k e he => ?_⟩
    · by_cases hk : k = key value
      · subst hk
        rw [OrdMap.get_set_self] at he
        cases he
        exact written_sound
      · rw [OrdMap.get_set_of_ne hk] at he
        exact hs.sound k e he
    · by_cases hk : k = key value
      · subst hk
        rw [OrdMap.get_set_self] at he
        cases he
        rfl
      · rw [OrdMap.get_set_of_ne hk] at he
        exact hs.keyed k e he
  · exact hs

/-- **What a local operation shows.** -/
theorem get_write (hs : s.Sound key) (k : String) :
    (s.write key isAdd now value nodeId timestamp).elements.get k =
      if k = key value ∧ ∀ e ∈ s.elements.get k, e.timestamp < timestamp.getD now then
        some (written isAdd now value nodeId timestamp)
      else s.elements.get k := by
  rw [write_eq hs]
  by_cases hk : k = key value
  · subst hk
    simp only [true_and]
    split
    · exact OrdMap.get_set_self
    · rfl
  · simp only [hk, false_and, if_false]
    split
    · exact OrdMap.get_set_of_ne hk
    · rfl

end Write

theorem sound_new : (new : LwwElementSet T).Sound key :=
  ⟨by rintro _ _ ⟨⟩, by rintro _ _ ⟨⟩⟩

theorem Reached.sound (h : Reached key s) : s.Sound key := by
  induction h with
  | new => exact sound_new
  | write _ _ _ _ _ _ ih => exact ih.write
  | merge _ _ ihs iht => exact ihs.merge iht

end LwwElementSet

end Agora.Crdt
