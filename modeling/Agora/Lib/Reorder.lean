import Mathlib.Data.List.Nodup
import Mathlib.Data.List.Induction
import Mathlib.Data.List.Sublists

/-!
# Reordered folds

A fold over a list applies its elements in the order of the list. `Reorders R l m`
says that `m` takes some elements of `l`, each once, and an element after those
that are before it in `l` and must come first (`R`). If elements that need not
come in order commute, the fold over `m` is the fold over the elements of `l`
that are in `m` (`Reorders.foldl_eq`).
-/

namespace Agora.Lib

open scoped List

variable {α σ : Type} {R : α → α → Prop} {f : σ → α → σ} {l m : List α} {x y e : α}

structure Reorders (R : α → α → Prop) (l m : List α) : Prop where
  nodup : m.Nodup
  subset : m ⊆ l
  before : ∀ x e, [x, e] <+ l → R x e → e ∈ m → [x, e] <+ m

theorem foldl_cons_eq (h : ∀ y ∈ m, ∀ s, f (f s e) y = f (f s y) e) (s : σ) :
    (e :: m).foldl f s = f (m.foldl f s) e := by
  induction m generalizing s with
  | nil => rfl
  | cons y m ih =>
    simp only [List.foldl_cons] at ih ⊢
    rw [h y (by simp)]
    exact ih (fun z hz => h z (List.mem_cons_of_mem y hz)) (f s y)

/-- Applying an element again changes nothing when it commutes with those since. -/
theorem foldl_again (hself : ∀ s, f (f s e) e = f s e)
    (h : ∀ y ∈ m, ∀ s, f (f s e) y = f (f s y) e) (s : σ) :
    f ((l ++ e :: m).foldl f s) e = (l ++ e :: m).foldl f s := by
  rw [List.foldl_append, foldl_cons_eq h, hself]

/-- A pair in order, when the last element is not its second. -/
theorem pair_sublist_concat (hne : y ≠ e) (h : [x, y] <+ m ++ [e]) : [x, y] <+ m := by
  obtain ⟨l₁, l₂, heq, h₁, h₂⟩ := List.sublist_append_iff.mp h
  rcases List.sublist_singleton.mp h₂ with rfl | rfl
  · rw [List.append_nil] at heq
    rw [heq]
    exact h₁
  · have hlast := congrArg List.getLast? heq
    simp at hlast
    exact absurd hlast hne

theorem fst_mem_of_pair (h : [x, y] <+ m) : x ∈ m := h.subset (by simp)

theorem snd_mem_of_pair (h : [x, y] <+ m) : y ∈ m := h.subset (by simp)

theorem Reorders.nil : Reorders R l [] where
  nodup := List.nodup_nil
  subset := List.nil_subset l
  before _ _ _ _ h := absurd h List.not_mem_nil

/-- The next element comes after those that must come first. -/
theorem Reorders.concat (h : Reorders R l m) (he : e ∈ l) (hnew : e ∉ m)
    (hfirst : ∀ x, [x, e] <+ l → R x e → x ∈ m) : Reorders R l (m ++ [e]) where
  nodup := h.nodup.append (List.nodup_singleton e) (by simpa using hnew)
  subset := by
    intro x hx
    rcases List.mem_append.mp hx with hx | hx
    · exact h.subset hx
    · exact List.mem_singleton.mp hx ▸ he
  before x y hxy hR hy := by
    rcases List.mem_append.mp hy with hy | hy
    · exact (h.before x y hxy hR hy).trans (List.sublist_append_left ..)
    · obtain rfl := List.mem_singleton.mp hy
      have hx : x ∈ m := hfirst x hxy hR
      exact (List.singleton_sublist.mpr hx).append (.refl [y])

/-- What must come first only depends on the elements up to the last one taken. -/
theorem Reorders.of_prefix {p l' : List α} (h : Reorders R l m) (hp : p <+: l) (hp' : p <+: l')
    (hl' : l'.Nodup) (hm : m ⊆ p) : Reorders R l' m where
  nodup := h.nodup
  subset _ hx := hp'.subset (hm hx)
  before x y hxy hR hy := by
    obtain ⟨t, rfl⟩ := hp'
    obtain ⟨l₁, l₂, heq, h₁, h₂⟩ := List.sublist_append_iff.mp hxy
    have hyt : y ∉ t := fun ht => List.disjoint_of_nodup_append hl' (hm hy) ht
    have hpair : [x, y] <+ p := by
      rcases List.eq_nil_or_concat l₂ with rfl | ⟨l₃, z, rfl⟩
      · rw [List.append_nil] at heq
        rw [heq]
        exact h₁
      · have hlast := congrArg List.getLast? heq
        simp at hlast
        subst hlast
        exact absurd (h₂.subset (by simp)) hyt
    exact h.before x y (hpair.trans hp.sublist) hR hy

theorem Reorders.of_sublist {l' : List α} (h : Reorders R l m) (hl' : l' <+ l) (hm : m ⊆ l') :
    Reorders R l' m :=
  ⟨h.nodup, hm, fun x y hxy => h.before x y (hxy.trans hl')⟩

variable [DecidableEq α]

/-- **Reordering.** -/
theorem Reorders.foldl_eq (hcomm : ∀ x y, ¬ R x y → ∀ s, f (f s x) y = f (f s y) x)
    (hl : l.Nodup) (h : Reorders R l m) (s : σ) :
    m.foldl f s = (l.filter (· ∈ m)).foldl f s := by
  induction m using List.reverseRecOn with
  | nil => simp
  | append_singleton m e ih =>
    have hnew : e ∉ m := by
      have := List.disjoint_of_nodup_append h.nodup
      simpa using this
    have hm : Reorders R l m := by
      refine ⟨h.nodup.of_append_left, fun x hx => h.subset (List.mem_append_left _ hx), ?_⟩
      intro x y hxy hR hy
      have hne : y ≠ e := fun heq => hnew (heq ▸ hy)
      exact pair_sublist_concat hne (h.before x y hxy hR (List.mem_append_left _ hy))
    have he : e ∈ l := h.subset (List.mem_append_right m (List.mem_singleton_self e))
    obtain ⟨a, b, rfl⟩ := List.append_of_mem he
    obtain ⟨hea, heb⟩ : e ∉ a ∧ e ∉ b := by
      have := List.nodup_middle.mp hl
      simpa using (List.nodup_cons.mp this).1
    have hfilter (c : List α) (hc : e ∉ c) : c.filter (· ∈ m ++ [e]) = c.filter (· ∈ m) := by
      refine List.filter_congr fun x hx => ?_
      have hne : x ≠ e := fun heq => hc (heq ▸ hx)
      simp [hne]
    -- what comes after `e` in `l` and before it in `m` commutes with it
    have hpast : ∀ y ∈ b.filter (· ∈ m), ∀ s, f (f s e) y = f (f s y) e := by
      intro y hy
      obtain ⟨hyb, hym⟩ := List.mem_filter.mp hy
      have hym : y ∈ m := by simpa using hym
      refine hcomm e y fun hR => hnew ?_
      have hpair : [e, y] <+ a ++ e :: b :=
        ((List.singleton_sublist.mpr hyb).cons_cons e).trans (List.sublist_append_right a _)
      have hbefore := h.before e y hpair hR (List.mem_append_left _ hym)
      have hne : y ≠ e := fun heq => hnew (heq ▸ hym)
      exact fst_mem_of_pair (pair_sublist_concat hne hbefore)
    rw [List.foldl_append, ih hm, List.filter_append, List.filter_append, List.filter_cons,
      if_neg (by simpa using hnew), List.filter_cons, if_pos (by simp), hfilter a hea,
      hfilter b heb, List.foldl_append, List.foldl_append, foldl_cons_eq hpast]
    rfl

end Agora.Lib
