import Mathlib.Data.List.Basic

/-!
# Transactions

A contract entry point either returns a value or fails and leaves nothing
behind, so a fallible operation is a value of `Except ε α` and the state it
works on is passed explicitly. The lemmas here read a successful computation
backwards: `x = .ok b` for each way `x` can be built. They form the simp set
by which every entry point is inverted.
-/

namespace Agora.Lib

variable {ε α β σ : Type}

/-- Fail with `e` unless `c` holds. -/
def ensure (c : Prop) [Decidable c] (e : ε) : Except ε Unit :=
  if c then .ok () else .error e

/-- The value of an option, or the failure `e`. -/
def okOr (e : ε) : Option α → Except ε α
  | some a => .ok a
  | none => .error e

theorem ok_bind (a : α) (f : α → Except ε β) : ((.ok a : Except ε α) >>= f) = f a := rfl

theorem error_bind (e : ε) (f : α → Except ε β) :
    ((.error e : Except ε α) >>= f) = .error e := rfl

@[simp] theorem bind_eq_ok {x : Except ε α} {f : α → Except ε β} {b : β} :
    (x >>= f) = .ok b ↔ ∃ a, x = .ok a ∧ f a = .ok b := by
  cases x <;> simp [bind, Except.bind]

theorem ok_of_bind {x : Except ε α} {f : α → Except ε β} {b : β} (h : (x >>= f) = .ok b) :
    ∃ a, f a = .ok b := by
  obtain ⟨a, -, ha⟩ := bind_eq_ok.mp h
  exact ⟨a, ha⟩

@[simp] theorem pure_eq_ok {a b : α} : (pure a : Except ε α) = .ok b ↔ a = b := by
  simp [pure, Except.pure]

@[simp] theorem throw_eq_ok {e : ε} {b : α} : (throw e : Except ε α) = .ok b ↔ False := by
  simp [throw, throwThe, MonadExceptOf.throw]

@[simp] theorem ensure_eq_ok {c : Prop} [Decidable c] {e : ε} {u : Unit} :
    ensure c e = .ok u ↔ c := by
  unfold ensure; split <;> simp_all

@[simp] theorem okOr_eq_ok {e : ε} {o : Option α} {a : α} : okOr e o = .ok a ↔ o = some a := by
  cases o <;> simp [okOr]

theorem map_eq_ok {g : α → β} {x : Except ε α} {b : β} :
    g <$> x = .ok b ↔ ∃ a, x = .ok a ∧ g a = b := by
  cases x <;> simp [Functor.map, Except.map]

@[simp] theorem snd_map_eq_ok {x : Except ε (α × β)} {b : β} :
    (Prod.snd <$> x) = .ok b ↔ ∃ a, x = .ok (a, b) := by
  cases x with
  | error e => simp [Functor.map, Except.map]
  | ok p =>
    obtain ⟨a, c⟩ := p
    simp [Functor.map, Except.map]

theorem exists_of_isOk {x : Except ε α} (h : x.isOk = true) : ∃ a, x = .ok a := by
  cases x with
  | ok a => exact ⟨a, rfl⟩
  | error e => cases h

/-! ## Images

A function of the state that a computation commutes with is pulled out of it
step by step; `map_bind` and `map_pure` are the other two rules. -/

theorem map_if (g : α → β) (c : Prop) [Decidable c] (x y : Except ε α) :
    g <$> (if c then x else y) = if c then g <$> x else g <$> y :=
  apply_ite (g <$> ·) c x y

/-! ## Loops -/

theorem foldlM_map {g : σ → σ} {f : σ → β → Except ε σ} (hf : ∀ s b, f (g s) b = g <$> f s b)
    (bs : List β) (s : σ) : bs.foldlM f (g s) = g <$> bs.foldlM f s := by
  induction bs generalizing s with
  | nil => rfl
  | cons b bs ih =>
    simp only [List.foldlM_cons, map_bind, hf, bind_map_left]
    exact bind_congr fun s' => ih s'

theorem forM_eq_ok {f : α → Except ε Unit} {xs : List α} {u : Unit} :
    xs.forM f = .ok u ↔ ∀ x ∈ xs, f x = .ok () := by
  induction xs with
  | nil => simp [pure, Except.pure]
  | cons x xs ih =>
    change (f x >>= fun _ => xs.forM f) = .ok u ↔ _
    rw [bind_eq_ok, List.forall_mem_cons]
    constructor
    · rintro ⟨_, hx, hxs⟩
      exact ⟨hx, ih.mp hxs⟩
    · rintro ⟨hx, hxs⟩
      exact ⟨_, hx, ih.mpr hxs⟩

/-- A loop refines a pure loop when its body refines the pure body. -/
theorem foldlM_refines {τ : Type} {R : σ → τ → Prop} {f : σ → β → Except ε σ} {g : τ → β → τ}
    (hf : ∀ s t b s', R s t → f s b = .ok s' → R s' (g t b)) {bs : List β} {s s' : σ} {t : τ}
    (hs : R s t) (h : bs.foldlM f s = .ok s') : R s' (bs.foldl g t) := by
  induction bs generalizing s t with
  | nil =>
    simp only [List.foldlM_nil, pure_eq_ok] at h
    exact h ▸ hs
  | cons b bs ih =>
    simp only [List.foldlM_cons, bind_eq_ok] at h
    obtain ⟨s1, h1, h2⟩ := h
    exact ih (hf s t b s1 hs h1) h2

end Agora.Lib
