import Agora.Lib.OrdMap

/-!
# Vector clocks

`vector_clock.rs` of the server and `vectorClock.ts` of the mobile app: a map
from node ids to counters, in which a missing entry reads as 0. A clock is
compared with another at the nodes of both; `compare_pos` and `compare_neg`
read the comparison as one of counters at all nodes.
-/

namespace Agora.Crdt

open Lib

structure VectorClock where
  counters : OrdMap String Nat
  deriving DecidableEq

namespace VectorClock

variable (a b : VectorClock)

/-- `new`, on the mobile app `create`. -/
def create (nodeId : String) (initialValue : Nat) : VectorClock :=
  ⟨OrdMap.empty.set nodeId initialValue⟩

def empty : VectorClock := ⟨OrdMap.empty⟩

def getCounter (nodeId : String) : Nat := (a.counters.get nodeId).getD 0

def increment (nodeId : String) : VectorClock :=
  ⟨a.counters.set nodeId (a.getCounter nodeId + 1)⟩

/-- The maximum for each node. -/
def merge : VectorClock :=
  ⟨b.counters.fold (fun merged nodeId counter =>
    merged.set nodeId (max ((merged.get nodeId).getD 0) counter)) a.counters⟩

/-- The nodes at which two clocks are compared. -/
def allNodeIds : List String := a.counters.keys ++ b.counters.keys

/-- -1 if `a` is before `b`, 1 if it is after it, 0 if they are concurrent or equal. -/
def compare : Int :=
  let lessThan := (a.allNodeIds b).any fun n => decide (a.getCounter n < b.getCounter n)
  let greaterThan := (a.allNodeIds b).any fun n => decide (b.getCounter n < a.getCounter n)
  if lessThan && !greaterThan then -1
  else if greaterThan && !lessThan then 1
  else 0

def equals : Bool := (a.allNodeIds b).all fun n => decide (a.getCounter n = b.getCounter n)

def happenedBefore : Bool := decide (a.compare b = -1)

/-- On the server; the mobile app does not exclude equal clocks. -/
def isConcurrent : Bool := decide (a.compare b = 0) && !a.equals b

/-- `a ≤ b` if no counter of `a` is above that of `b`. -/
instance : Preorder VectorClock where
  le a b := ∀ n, a.getCounter n ≤ b.getCounter n
  le_refl _ _ := le_rfl
  le_trans _ _ _ h h' n := (h n).trans (h' n)

variable {a b : VectorClock} {n m : String}

theorem le_iff : a ≤ b ↔ ∀ n, a.getCounter n ≤ b.getCounter n := Iff.rfl

theorem getCounter_create {i : Nat} : (create n i).getCounter m = if m = n then i else 0 := by
  unfold getCounter create
  split
  · rename_i hm
    rw [hm, OrdMap.get_set_self]
    rfl
  · rename_i hm
    rw [OrdMap.get_set_of_ne hm]
    rfl

theorem getCounter_merge : (a.merge b).getCounter n = max (a.getCounter n) (b.getCounter n) := by
  unfold getCounter merge
  rw [OrdMap.get_fold (g := fun o c => some (max (o.getD 0) c)) (fun m k c => OrdMap.get_set_self)
    fun m k c j hj => OrdMap.get_set_of_ne hj]
  cases b.counters.get n <;> simp

theorem le_merge_right : b ≤ a.merge b := fun n => by
  rw [getCounter_merge]
  exact le_max_right _ _

theorem getCounter_eq_zero (h : n ∉ a.counters.keys) : a.getCounter n = 0 := by
  rw [getCounter, OrdMap.get_eq_none_of_not_mem_keys h]
  rfl

theorem mem_allNodeIds (h : a.getCounter n ≠ b.getCounter n) : n ∈ a.allNodeIds b := by
  by_contra hout
  rw [allNodeIds, List.mem_append, not_or] at hout
  rw [getCounter_eq_zero hout.1, getCounter_eq_zero hout.2] at h
  exact h rfl

theorem any_lt_iff (a b : VectorClock) {ids : List String}
    (hids : ∀ n, a.getCounter n ≠ b.getCounter n → n ∈ ids) :
    (ids.any fun n => decide (a.getCounter n < b.getCounter n)) = true ↔ ¬ b ≤ a := by
  simp only [List.any_eq_true, decide_eq_true_eq, le_iff, not_forall, not_le]
  constructor
  · rintro ⟨n, -, hlt⟩
    exact ⟨n, hlt⟩
  · rintro ⟨n, hlt⟩
    exact ⟨n, hids n hlt.ne, hlt⟩

/-- **The comparison.** -/
theorem compare_eq (a b : VectorClock) :
    ((a.compare b = -1 ↔ a ≤ b ∧ ¬ b ≤ a) ∧ (a.compare b = 1 ↔ b ≤ a ∧ ¬ a ≤ b)) ∧
      (a.compare b = 0 ↔ (a ≤ b ↔ b ≤ a)) := by
  have hless := any_lt_iff a b (fun n h => mem_allNodeIds h)
  have hgreater := any_lt_iff b a (fun n h => mem_allNodeIds (a := a) (b := b) h.symm)
  unfold compare
  cases hl : (a.allNodeIds b).any fun n => decide (a.getCounter n < b.getCounter n) <;>
    cases hg : (a.allNodeIds b).any fun n => decide (b.getCounter n < a.getCounter n) <;>
    simp_all

theorem compare_pos : 0 < a.compare b ↔ b ≤ a ∧ ¬ a ≤ b := by
  obtain ⟨⟨hneg, hpos⟩, hzero⟩ := compare_eq a b
  rw [← hpos]
  unfold compare
  dsimp only
  split
  · simp
  · split <;> simp

theorem compare_neg : a.compare b < 0 ↔ a ≤ b ∧ ¬ b ≤ a := by
  obtain ⟨⟨hneg, hpos⟩, hzero⟩ := compare_eq a b
  rw [← hneg]
  unfold compare
  dsimp only
  split
  · simp
  · split <;> simp

/-! ## The lattice of clocks -/

theorem le_merge_left : a ≤ a.merge b := fun n => by
  rw [getCounter_merge]
  exact le_max_left _ _

theorem merge_le {c : VectorClock} (ha : a ≤ c) (hb : b ≤ c) : a.merge b ≤ c := fun n => by
  rw [getCounter_merge]
  exact max_le (ha n) (hb n)

theorem equals_iff : a.equals b = true ↔ ∀ n, a.getCounter n = b.getCounter n := by
  simp only [equals, List.all_eq_true, decide_eq_true_eq]
  constructor
  · intro h n
    by_contra hne
    exact hne (h n (mem_allNodeIds hne))
  · exact fun h n _ => h n

theorem equals_iff_le : a.equals b = true ↔ a ≤ b ∧ b ≤ a := by
  rw [equals_iff]
  constructor
  · exact fun h => ⟨fun n => (h n).le, fun n => (h n).ge⟩
  · exact fun h n => le_antisymm (h.1 n) (h.2 n)

theorem happenedBefore_iff : a.happenedBefore b = true ↔ a < b := by
  rw [happenedBefore, decide_eq_true_eq, (compare_eq a b).1.1, lt_iff_le_not_ge]

theorem isConcurrent_iff : a.isConcurrent b = true ↔ ¬ a ≤ b ∧ ¬ b ≤ a := by
  rw [isConcurrent, Bool.and_eq_true, decide_eq_true_eq, (compare_eq a b).2, Bool.not_eq_true',
    ← Bool.not_eq_true, equals_iff_le]
  constructor
  · rintro ⟨hiff, hne⟩
    exact ⟨fun h => hne ⟨h, hiff.mp h⟩, fun h => hne ⟨hiff.mpr h, h⟩⟩
  · rintro ⟨hab, hba⟩
    exact ⟨iff_of_false hab hba, fun h => hab h.1⟩

theorem compare_swap (a b : VectorClock) : a.compare b = -b.compare a := by
  unfold compare
  have hany : ∀ f : String → Bool, (a.allNodeIds b).any f = (b.allNodeIds a).any f := by
    intro f
    simp only [allNodeIds, List.any_append, Bool.or_comm]
  simp only [hany]
  cases (b.allNodeIds a).any fun n => decide (a.getCounter n < b.getCounter n) <;>
    cases (b.allNodeIds a).any fun n => decide (b.getCounter n < a.getCounter n) <;> rfl

/-- `a` is equal to `b` or after it. -/
def isAtOrAfter (a b : VectorClock) : Bool := a.equals b || b.happenedBefore a

theorem isAtOrAfter_iff : a.isAtOrAfter b = true ↔ b ≤ a := by
  rw [isAtOrAfter, Bool.or_eq_true, equals_iff_le, happenedBefore_iff, lt_iff_le_not_ge]
  constructor
  · rintro (h | h)
    · exact h.2
    · exact h.1
  · intro h
    by_cases hab : a ≤ b
    · exact .inl ⟨hab, h⟩
    · exact .inr ⟨h, hab⟩

/-- **Clocks form a lattice** up to `equals`: `happenedBefore` is a strict order, of two clocks
exactly one of the four relations holds, and `merge` is the least upper bound. -/
theorem clocks_form_lattice :
    (∀ a : VectorClock, a.happenedBefore a = false) ∧
    (∀ a b c : VectorClock, a.happenedBefore b = true → b.happenedBefore c = true →
      a.happenedBefore c = true) ∧
    (∀ a b : VectorClock, [a.equals b, a.happenedBefore b, b.happenedBefore a,
      a.isConcurrent b].count true = 1) ∧
    (∀ a b : VectorClock, a.compare b = -b.compare a) ∧
    (∀ a b : VectorClock, (a.merge b).isAtOrAfter a = true ∧ (a.merge b).isAtOrAfter b = true ∧
      (a.merge b).happenedBefore a = false ∧ (a.merge b).happenedBefore b = false) ∧
    (∀ a b c : VectorClock, c.isAtOrAfter a = true → c.isAtOrAfter b = true →
      c.isAtOrAfter (a.merge b) = true) ∧
    (∀ a b : VectorClock, (a.merge b).equals (b.merge a) = true) ∧
    (∀ a b c : VectorClock, ((a.merge b).merge c).equals (a.merge (b.merge c)) = true) ∧
    ∀ a : VectorClock, (a.merge a).equals a = true := by
  have hnot {a b : VectorClock} (h : b ≤ a) : a.happenedBefore b = false := by
    rw [← Bool.not_eq_true, happenedBefore_iff]
    exact not_lt_of_ge h
  refine ⟨fun a => hnot le_rfl, fun a b c => ?_, fun a b => ?_, compare_swap, fun a b => ?_,
    fun a b c => ?_, fun a b => ?_, fun a b c => ?_, fun a => ?_⟩
  · simp only [happenedBefore_iff]
    exact lt_trans
  · have hequals := equals_iff_le (a := a) (b := b)
    have hbefore := happenedBefore_iff (a := a) (b := b)
    have hafter := happenedBefore_iff (a := b) (b := a)
    have hconcurrent := isConcurrent_iff (a := a) (b := b)
    rw [lt_iff_le_not_ge] at hbefore hafter
    by_cases hab : a ≤ b <;> by_cases hba : b ≤ a <;> simp_all
  · exact ⟨isAtOrAfter_iff.mpr le_merge_left, isAtOrAfter_iff.mpr le_merge_right,
      hnot le_merge_left, hnot le_merge_right⟩
  · simp only [isAtOrAfter_iff]
    exact merge_le
  · simp only [equals_iff, getCounter_merge, max_comm, implies_true]
  · simp only [equals_iff, getCounter_merge, max_assoc, implies_true]
  · simp only [equals_iff, getCounter_merge, max_self, implies_true]

end VectorClock

/-- How a string without special characters is serialized. -/
def quoted (v : String) : String := "\"" ++ v ++ "\""

end Agora.Crdt
