import Mathlib.Algebra.BigOperators.Group.List.Basic
import Mathlib.Algebra.Order.Ring.Int
import Mathlib.Data.List.Pairwise
import Mathlib.Data.String.Basic

/-!
# Ordered maps

A map that is iterated in the order of its keys, as a list of entries with
strictly ascending keys. `set` overwrites the entry of a key or puts a new one
in its place; `mem_set` says what is in the map then, and `sum_set` how a sum
over the entries moves. A loop over one map that updates another at the key it
is at (`fold`) works key by key (`get_fold`), so the order of the entries does
not matter for it.
-/

namespace Agora.Lib

variable {κ α : Type} [LinearOrder κ]

/-- Put an entry in its place. -/
def insertEntry (k : κ) (a : α) : List (κ × α) → List (κ × α)
  | [] => [(k, a)]
  | (k', a') :: l =>
    if k < k' then (k, a) :: (k', a') :: l
    else if k = k' then (k, a) :: l
    else (k', a') :: insertEntry k a l

/-- The keys ascend. -/
def Ascending (l : List (κ × α)) : Prop := l.Pairwise fun x y => x.1 < y.1

instance (l : List (κ × α)) : Decidable (Ascending l) :=
  inferInstanceAs (Decidable (l.Pairwise _))

theorem ascending_cons {x : κ × α} {l : List (κ × α)} :
    Ascending (x :: l) ↔ (∀ y ∈ l, x.1 < y.1) ∧ Ascending l := List.pairwise_cons

theorem mem_insertEntry {k : κ} {a : α} {l : List (κ × α)} (h : Ascending l) {x : κ × α} :
    x ∈ insertEntry k a l ↔ x = (k, a) ∨ x ∈ l ∧ x.1 ≠ k := by
  fun_induction insertEntry k a l with
  | case1 => simp
  | case2 k' a' l hlt =>
    have hall : ∀ y ∈ (k', a') :: l, y.1 ≠ k := by
      intro y hy
      rcases List.mem_cons.mp hy with rfl | hy
      · exact hlt.ne'
      · exact (hlt.trans ((ascending_cons.mp h).1 y hy)).ne'
    rw [List.mem_cons]
    constructor
    · rintro (rfl | hx)
      · exact .inl rfl
      · exact .inr ⟨hx, hall x hx⟩
    · rintro (rfl | ⟨hx, -⟩)
      · exact .inl rfl
      · exact .inr hx
  | case3 a' l hlt =>
    have hall : ∀ y ∈ l, y.1 ≠ k := fun y hy => ((ascending_cons.mp h).1 y hy).ne'
    simp only [List.mem_cons]
    constructor
    · rintro (rfl | hx)
      · exact .inl rfl
      · exact .inr ⟨.inr hx, hall x hx⟩
    · rintro (rfl | ⟨rfl | hx, hne⟩)
      · exact .inl rfl
      · exact absurd rfl hne
      · exact .inr hx
  | case4 k' a' l hlt hne ih =>
    simp only [List.mem_cons, ih (ascending_cons.mp h).2]
    constructor
    · rintro (rfl | rfl | ⟨hx, hk⟩)
      · exact .inr ⟨.inl rfl, fun heq => hne heq.symm⟩
      · exact .inl rfl
      · exact .inr ⟨.inr hx, hk⟩
    · rintro (rfl | ⟨rfl | hx, hk⟩)
      · exact .inr (.inl rfl)
      · exact .inl rfl
      · exact .inr (.inr ⟨hx, hk⟩)

theorem Ascending.insertEntry {k : κ} {a : α} {l : List (κ × α)} (h : Ascending l) :
    Ascending (insertEntry k a l) := by
  fun_induction Lib.insertEntry k a l with
  | case1 => simp [Ascending]
  | case2 k' a' l hlt =>
    refine ascending_cons.mpr ⟨fun y hy => ?_, h⟩
    rcases List.mem_cons.mp hy with rfl | hy
    · exact hlt
    · exact hlt.trans ((ascending_cons.mp h).1 y hy)
  | case3 a' l hlt =>
    obtain ⟨hall, hl⟩ := ascending_cons.mp h
    exact ascending_cons.mpr ⟨hall, hl⟩
  | case4 k' a' l hlt hne ih =>
    obtain ⟨hall, hl⟩ := ascending_cons.mp h
    refine ascending_cons.mpr ⟨fun y hy => ?_, ih hl⟩
    rcases (mem_insertEntry hl).mp hy with rfl | ⟨hy, -⟩
    · exact lt_of_le_of_ne (not_lt.mp hlt) fun heq => hne heq.symm
    · exact hall y hy

/-- A map whose entries are in the order of their keys. -/
structure OrdMap (κ α : Type) [LinearOrder κ] where
  entries : List (κ × α)
  ascending : Ascending entries
  deriving DecidableEq

namespace OrdMap

variable {m : OrdMap κ α} {k : κ} {a b : α}

def empty : OrdMap κ α := ⟨[], List.Pairwise.nil⟩

def get (m : OrdMap κ α) (k : κ) : Option α := (m.entries.find? (·.1 = k)).map (·.2)

def set (m : OrdMap κ α) (k : κ) (a : α) : OrdMap κ α :=
  ⟨insertEntry k a m.entries, m.ascending.insertEntry⟩

def values (m : OrdMap κ α) : List α := m.entries.map (·.2)

def length (m : OrdMap κ α) : Nat := m.entries.length

theorem eq_of_mem {x y : κ × α} (hx : x ∈ m.entries) (hy : y ∈ m.entries) (h : x.1 = y.1) :
    x = y := by
  have hp := List.pairwise_iff_getElem.mp m.ascending
  obtain ⟨i, hi, rfl⟩ := List.getElem_of_mem hx
  obtain ⟨j, hj, rfl⟩ := List.getElem_of_mem hy
  rcases Nat.lt_trichotomy i j with hlt | rfl | hgt
  · exact absurd h (hp i j hi hj hlt).ne
  · rfl
  · exact absurd h.symm (hp j i hj hi hgt).ne

theorem get_eq_some : m.get k = some a ↔ (k, a) ∈ m.entries := by
  unfold get
  constructor
  · intro h
    obtain ⟨x, hx, rfl⟩ := Option.map_eq_some_iff.mp h
    have hk : x.1 = k := by simpa using List.find?_some hx
    subst hk
    exact List.mem_of_find?_eq_some hx
  · intro h
    cases hfind : m.entries.find? (·.1 = k) with
    | none =>
      have := List.find?_eq_none.mp hfind _ h
      simp at this
    | some x =>
      have hk : x.1 = k := by simpa using List.find?_some hfind
      obtain rfl := eq_of_mem (List.mem_of_find?_eq_some hfind) h hk
      rfl

theorem mem_set {x : κ × α} :
    x ∈ (m.set k a).entries ↔ x = (k, a) ∨ x ∈ m.entries ∧ x.1 ≠ k :=
  mem_insertEntry m.ascending

theorem get_set_self : (m.set k a).get k = some a := get_eq_some.mpr (mem_set.mpr (.inl rfl))

theorem get_set_of_ne {k' : κ} (h : k' ≠ k) : (m.set k a).get k' = m.get k' := by
  refine Option.ext fun b => ?_
  rw [get_eq_some, get_eq_some, mem_set]
  constructor
  · rintro (heq | ⟨hmem, -⟩)
    · exact absurd (Prod.mk.inj heq).1 h
    · exact hmem
  · exact fun hmem => .inr ⟨hmem, h⟩

@[simp] theorem get_empty : (empty : OrdMap κ α).get k = none := rfl

def keys (m : OrdMap κ α) : List κ := m.entries.map (·.1)

theorem get_eq_none_of_not_mem_keys (h : k ∉ m.keys) : m.get k = none := by
  cases hk : m.get k with
  | none => rfl
  | some a => exact absurd (List.mem_map.mpr ⟨(k, a), get_eq_some.mp hk, rfl⟩) h

/-- Without the entry of a key. -/
def erase (m : OrdMap κ α) (k : κ) : OrdMap κ α :=
  ⟨m.entries.filter fun x => x.1 ≠ k, m.ascending.filter _⟩

theorem get_erase (m : OrdMap κ α) (k j : κ) :
    (m.erase k).get j = if j = k then none else m.get j := by
  refine Option.ext fun b => ?_
  rw [get_eq_some, erase]
  split
  · rename_i hj
    subst hj
    simp
  · rename_i hj
    simp [get_eq_some, hj]

/-- A loop over the entries. -/
def fold {β : Type} (f : β → κ → α → β) (b : β) (m : OrdMap κ α) : β :=
  m.entries.foldl (fun b x => f b x.1 x.2) b

/-- **Loops key by key.** What each round does to the entry of its key, the loop does to the
entries of all keys of the map it runs over. -/
theorem get_fold {β : Type} {f : OrdMap κ β → κ → α → OrdMap κ β} {g : Option β → α → Option β}
    (hself : ∀ m k a, (f m k a).get k = g (m.get k) a)
    (hother : ∀ m k a j, j ≠ k → (f m k a).get j = m.get j) (m : OrdMap κ β) (n : OrdMap κ α)
    (k : κ) : (n.fold f m).get k = (n.get k).elim (m.get k) (g (m.get k)) := by
  obtain ⟨l, hl⟩ := n
  unfold fold get
  dsimp only
  induction l generalizing m with
  | nil => rfl
  | cons x l ih =>
    obtain ⟨hhead, htail⟩ := ascending_cons.mp hl
    have hrest := ih (f m x.1 x.2) htail
    rw [List.foldl_cons, hrest]
    by_cases hk : x.1 = k
    · subst hk
      have hnone : l.find? (fun y => decide (y.1 = x.1)) = none := by
        refine List.find?_eq_none.mpr fun y hy => ?_
        simpa using (hhead y hy).ne'
      rw [hnone]
      simp only [Option.map_none, Option.elim_none, List.find?_cons, decide_true, Option.map_some,
        Option.elim_some]
      exact hself m x.1 x.2
    · have hsame := hother m x.1 x.2 k (Ne.symm hk)
      unfold get at hsame
      simp only [List.find?_cons, decide_eq_false hk, hsame]

theorem mem_values : a ∈ m.values ↔ ∃ k, m.get k = some a := by
  unfold values
  simp only [List.mem_map, Prod.exists, exists_eq_right, get_eq_some]

end OrdMap

/-- What a sum over the entries loses by overwriting a key. -/
theorem sum_insertEntry {f : α → Int} {k : κ} {a : α} {l : List (κ × α)} (h : Ascending l) :
    ((insertEntry k a l).map fun x => f x.2).sum =
      (l.map fun x => f x.2).sum - (((l.find? (·.1 = k)).map fun x => f x.2).getD 0) + f a := by
  fun_induction insertEntry k a l with
  | case1 => simp
  | case2 k' a' l hlt =>
    have hfind : ((k', a') :: l).find? (·.1 = k) = none := by
      refine List.find?_eq_none.mpr fun y hy => ?_
      rcases List.mem_cons.mp hy with rfl | hy
      · simpa using hlt.ne'
      · simpa using (hlt.trans ((ascending_cons.mp h).1 y hy)).ne'
    rw [hfind]
    simp only [List.map_cons, List.sum_cons, Option.map_none, Option.getD_none]
    omega
  | case3 a' l hlt =>
    simp only [List.map_cons, List.sum_cons, List.find?_cons, decide_true, Option.map_some,
      Option.getD_some]
    omega
  | case4 k' a' l hlt hne ih =>
    have hk : decide (k' = k) = false := decide_eq_false fun heq => hne heq.symm
    simp only [List.map_cons, List.sum_cons, List.find?_cons, hk, ih (ascending_cons.mp h).2]
    omega

namespace OrdMap

variable {m : OrdMap κ α} {k : κ} {a b : α} {f : α → Int}

/-- The sum of `f` over the values. -/
def sum (f : α → Int) (m : OrdMap κ α) : Int := (m.values.map f).sum

theorem sum_eq (m : OrdMap κ α) : m.sum f = (m.entries.map fun x => f x.2).sum := by
  simp only [sum, values, List.map_map, Function.comp_def]

/-- **The sum after a write.** -/
theorem sum_set : (m.set k a).sum f = m.sum f - ((m.get k).map f).getD 0 + f a := by
  rw [sum_eq, sum_eq, set, sum_insertEntry m.ascending, get, Option.map_map]
  rfl

example : ((((empty : OrdMap String Nat).set "vip" 2).set "hall" 5).set "vip" 3).entries =
    [("hall", 5), ("vip", 3)] := by
  decide

end OrdMap

end Agora.Lib
