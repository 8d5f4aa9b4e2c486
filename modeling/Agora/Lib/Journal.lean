import Mathlib.Algebra.BigOperators.Group.List.Basic
import Mathlib.Algebra.Order.Ring.Int
import Mathlib.Algebra.Order.BigOperators.Group.List

/-!
# Sums over a journal

A journal is the list of the entries written so far, newest last. `tally f j`
adds up what each entry is worth; `since reset f j` does so from the last
entry at which `reset` fires. `Extends P j k` says that `k` is `j` with further
entries, all of which meet `P`.
-/

namespace Agora.Lib

variable {α : Type} {f : α → Int} {reset : α → Bool}

/-- What the entries of a journal are worth together. -/
def tally (f : α → Int) (j : List α) : Int := (j.map f).sum

@[simp] theorem tally_nil : tally f [] = 0 := rfl

@[simp] theorem tally_append (j k : List α) : tally f (j ++ k) = tally f j + tally f k := by
  simp [tally]

@[simp] theorem tally_singleton (x : α) : tally f [x] = f x := by
  simp [tally]

theorem tally_sub (f g : α → Int) (j : List α) :
    tally (fun x => f x - g x) j = tally f j - tally g j := by
  induction j with
  | nil => rfl
  | cons x j ih =>
    simp only [tally, List.map_cons, List.sum_cons] at ih ⊢
    omega

theorem tally_nonneg {j : List α} (h : ∀ x, 0 ≤ f x) : 0 ≤ tally f j :=
  List.sum_nonneg (by simp only [List.mem_map]; rintro _ ⟨x, -, rfl⟩; exact h x)

/-- What the entries after the last reset are worth together. -/
def since (reset : α → Bool) (f : α → Int) (j : List α) : Int :=
  j.foldl (fun s x => if reset x then 0 else s + f x) 0

@[simp] theorem since_nil : since reset f [] = 0 := rfl

theorem since_append (j k : List α) :
    since reset f (j ++ k) =
      k.foldl (fun s x => if reset x then 0 else s + f x) (since reset f j) := by
  simp [since]

@[simp] theorem since_concat (j : List α) (x : α) :
    since reset f (j ++ [x]) = if reset x then 0 else since reset f j + f x := by
  simp [since]

/-! ## Growth -/

/-- `k` is `j` with further entries that meet `P`. -/
def Extends (P : α → Prop) (j k : List α) : Prop := ∃ new, k = j ++ new ∧ ∀ x ∈ new, P x

namespace Extends

variable {P Q : α → Prop} {j k m : List α}

theorem refl (j : List α) : Extends P j j := ⟨[], by simp, by simp⟩

theorem concat {x : α} (hx : P x) : Extends P j (j ++ [x]) := ⟨[x], rfl, by simpa using hx⟩

theorem trans (h : Extends P j k) (h' : Extends P k m) : Extends P j m := by
  obtain ⟨new, rfl, hnew⟩ := h
  obtain ⟨new', rfl, hnew'⟩ := h'
  refine ⟨new ++ new', List.append_assoc _ _ _, fun x hx => ?_⟩
  exact (List.mem_append.mp hx).elim (hnew x) (hnew' x)

theorem mono (hPQ : ∀ x, P x → Q x) (h : Extends P j k) : Extends Q j k := by
  obtain ⟨new, rfl, hnew⟩ := h
  exact ⟨new, rfl, fun x hx => hPQ x (hnew x hx)⟩

theorem tally_eq (hf : ∀ x, P x → f x = 0) (h : Extends P j k) : tally f k = tally f j := by
  obtain ⟨new, rfl, hnew⟩ := h
  have hzero : tally f new = 0 :=
    List.sum_eq_zero (by simp only [List.mem_map]; rintro _ ⟨x, hx, rfl⟩; exact hf x (hnew x hx))
  rw [tally_append, hzero, add_zero]

theorem tally_le (hf : ∀ x, 0 ≤ f x) (h : Extends P j k) : tally f j ≤ tally f k := by
  obtain ⟨new, rfl, -⟩ := h
  have hnew : 0 ≤ tally f new := tally_nonneg hf
  rw [tally_append]
  omega

end Extends

end Agora.Lib
