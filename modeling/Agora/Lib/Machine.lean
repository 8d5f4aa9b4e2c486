import Agora.Lib.Journal
import Agora.Lib.Tx
import Mathlib.Data.List.Induction

/-!
# Runs with rollback

A machine is a step function `step : σ → lab → Except ε σ`. A failed step
leaves the state as it was (`commit`), so a run is a fold over any list of
labels and every list is a run. `Along step C s as` says that every successful
step of the run of `as` from `s` meets the condition `C`, which looks at the
label and at the state before the step. `Along.inv` is the invariant rule: what
each successful step that meets `C` keeps, every run along `C` keeps. `history`
lists the successful steps of a run, and `Along.history_inv` is the rule for
what relates a state to the steps that led to it; `Along.count_eq` is its case
for a counter. `Twin` pairs two runs that differ in some labels only, and
`Twin.rel` is the rule for what relates their states.
-/

namespace Agora.Lib

variable {σ lab ε : Type} (step : σ → lab → Except ε σ)

/-- One step, rolled back when it fails. -/
def commit (s : σ) (a : lab) : σ :=
  match step s a with
  | .ok s' => s'
  | .error _ => s

/-- The state after the steps `as`. -/
def run (s : σ) (as : List lab) : σ := as.foldl (commit step) s

/-- Every successful step of the run of `as` from `s` meets `C`. -/
def Along (C : σ → lab → Prop) : σ → List lab → Prop
  | _, [] => True
  | s, a :: as => (∀ s', step s a = .ok s' → C s a) ∧ Along C (commit step s a) as

/-- The successful steps of the run of `as` from `s`, in order, each with the
states before and after it. -/
def history : σ → List lab → List (σ × lab × σ)
  | _, [] => []
  | s, a :: as =>
    match step s a with
    | .ok s' => (s, a, s') :: history s' as
    | .error _ => history s as

variable {step}

@[simp] theorem run_nil (s : σ) : run step s [] = s := rfl

@[simp] theorem run_cons (s : σ) (a : lab) (as : List lab) :
    run step s (a :: as) = run step (commit step s a) as := rfl

theorem run_append (s : σ) (as bs : List lab) :
    run step s (as ++ bs) = run step (run step s as) bs := by
  simp [run]

theorem commit_of_ok {s s' : σ} {a : lab} (h : step s a = .ok s') : commit step s a = s' := by
  unfold commit; rw [h]

theorem commit_of_error {s : σ} {a : lab} {e : ε} (h : step s a = .error e) :
    commit step s a = s := by
  unfold commit; rw [h]

theorem commit_cases (step : σ → lab → Except ε σ) (s : σ) (a : lab) :
    step s a = .ok (commit step s a) ∨ commit step s a = s := by
  cases h : step s a with
  | ok s' => left; rw [commit_of_ok h]
  | error e => right; exact commit_of_error h

/-- A run can be checked. -/
instance Along.decidable {C : σ → lab → Prop} [∀ s a, Decidable (C s a)] :
    (s : σ) → (as : List lab) → Decidable (Along step C s as)
  | _, [] => isTrue True.intro
  | s, a :: as =>
    have : Decidable (Along step C (commit step s a) as) := Along.decidable (commit step s a) as
    match h : step s a with
    | .ok _ => decidable_of_iff (C s a ∧ Along step C (commit step s a) as) (by simp [Along, h])
    | .error _ => decidable_of_iff (Along step C (commit step s a) as) (by simp [Along, h])

theorem Along.append {C : σ → lab → Prop} {s : σ} {as bs : List lab} :
    Along step C s (as ++ bs) ↔ Along step C s as ∧ Along step C (run step s as) bs := by
  induction as generalizing s with
  | nil => simp [Along]
  | cons a as ih => simp [Along, ih, and_assoc]

/-- **Invariant rule.** -/
theorem Along.inv {C : σ → lab → Prop} {I : σ → Prop}
    (hI : ∀ s a s', I s → C s a → step s a = .ok s' → I s')
    {s : σ} {as : List lab} (h : Along step C s as) (hs : I s) : I (run step s as) := by
  induction as generalizing s with
  | nil => exact hs
  | cons a as ih =>
    refine ih h.2 ?_
    rcases commit_cases step s a with hok | hno
    · exact hI s a _ hs (h.1 _ hok) hok
    · rw [hno]; exact hs

theorem Along.and {C D : σ → lab → Prop} {s : σ} {as : List lab} (hC : Along step C s as)
    (hD : Along step D s as) : Along step (fun s a => C s a ∧ D s a) s as := by
  induction as generalizing s with
  | nil => exact True.intro
  | cons a as ih => exact ⟨fun s' hok => ⟨hC.1 s' hok, hD.1 s' hok⟩, ih hC.2 hD.2⟩

/-- What the invariant adds to the condition of each step. -/
theorem Along.imp {C D : σ → lab → Prop} {I : σ → Prop}
    (hI : ∀ s a s', I s → C s a → step s a = .ok s' → I s')
    (hD : ∀ s a s', I s → C s a → step s a = .ok s' → D s a)
    {s : σ} {as : List lab} (h : Along step C s as) (hs : I s) : Along step D s as := by
  induction as generalizing s with
  | nil => exact True.intro
  | cons a as ih =>
    refine ⟨fun s' hok => hD s a s' hs (h.1 s' hok) hok, ih h.2 ?_⟩
    rcases commit_cases step s a with hok | hno
    · exact hI s a _ hs (h.1 _ hok) hok
    · rw [hno]; exact hs

theorem Along.iff_forall_split {C : σ → lab → Prop} {s : σ} {as : List lab} :
    Along step C s as ↔ ∀ pre a post s', as = pre ++ a :: post →
      step (run step s pre) a = .ok s' → C (run step s pre) a := by
  refine ⟨?_, fun h => ?_⟩
  · rintro h pre a post s' rfl hok
    exact (Along.append.mp h).2.1 s' hok
  · induction as generalizing s with
    | nil => exact True.intro
    | cons a as ih =>
      refine ⟨fun s' hok => h [] a as s' rfl hok, ih fun pre b post s' heq hok => ?_⟩
      exact h (a :: pre) b post s' (by rw [heq]; rfl) hok

/-- **Exact conditions.** When `C` keeps the invariant along steps that meet `U`, and `P` after
such a step from the invariant needs `C`, a run along `U` has `P` in every state it reaches
exactly when it runs along `C`. -/
theorem Along.iff_forall_prefix_of {U C : σ → lab → Prop} {I P : σ → Prop}
    (hkeep : ∀ s a s', I s → U s a → C s a → step s a = .ok s' → I s') (hP : ∀ s, I s → P s)
    (hneed : ∀ s a s', I s → U s a → step s a = .ok s' → P s' → C s a)
    {s : σ} {as : List lab} (hU : Along step U s as) (hs : I s) :
    (∀ bs, bs <+: as → P (run step s bs)) ↔ Along step C s as := by
  induction as generalizing s with
  | nil => simp [Along, hP s hs]
  | cons a as ih =>
    obtain ⟨hfirst, hrest⟩ := hU
    -- the invariant goes on as soon as the first step meets `C`
    have hnext (hC : ∀ s', step s a = .ok s' → C s a) : I (commit step s a) := by
      rcases commit_cases step s a with hok | hno
      · exact hkeep s a _ hs (hfirst _ hok) (hC _ hok) hok
      · rw [hno]; exact hs
    refine ⟨fun h => ?_, ?_⟩
    · have hC : ∀ s', step s a = .ok s' → C s a := by
        intro s' hok
        have hp := h [a] (by simp)
        rw [run_cons, run_nil, commit_of_ok hok] at hp
        exact hneed s a s' hs (hfirst s' hok) hok hp
      exact ⟨hC, (ih hrest (hnext hC)).mp fun bs hbs => h (a :: bs) (by simpa using hbs)⟩
    · rintro ⟨hC, h⟩ bs hbs
      cases bs with
      | nil => exact hP s hs
      | cons b bs =>
        obtain ⟨rfl, hrun⟩ := List.cons_prefix_cons.mp hbs
        exact (ih hrest (hnext hC)).mpr h bs hrun

theorem history_of_ok {s s' : σ} {a : lab} (h : step s a = .ok s') (as : List lab) :
    history step s (a :: as) = (s, a, s') :: history step (commit step s a) as := by
  rw [commit_of_ok h, history, h]

theorem history_of_error {s : σ} {a : lab} {e : ε} (h : step s a = .error e) (as : List lab) :
    history step s (a :: as) = history step (commit step s a) as := by
  rw [commit_of_error h, history, h]

theorem history_append (s : σ) (as bs : List lab) :
    history step s (as ++ bs) = history step s as ++ history step (run step s as) bs := by
  induction as generalizing s with
  | nil => rfl
  | cons a as ih =>
    cases h : step s a with
    | ok s' => rw [List.cons_append, history_of_ok h, history_of_ok h, ih]; rfl
    | error e => rw [List.cons_append, history_of_error h, history_of_error h, ih]; rfl

theorem mem_history_concat {s t : σ} {a : lab} {as : List lab}
    (h : step (run step s as) a = .ok t) : (run step s as, a, t) ∈ history step s (as ++ [a]) := by
  rw [history_append, history_of_ok h]
  simp

/-- A step of the history was taken in a state of the run. -/
theorem exists_of_mem_history {s t t' : σ} {a : lab} {as : List lab}
    (h : (t, a, t') ∈ history step s as) :
    ∃ pre post, as = pre ++ a :: post ∧ t = run step s pre ∧ step t a = .ok t' := by
  induction as generalizing s with
  | nil => cases h
  | cons b as ih =>
    have hrest (h : (t, a, t') ∈ history step (commit step s b) as) :
        ∃ pre post, b :: as = pre ++ a :: post ∧ t = run step s pre ∧ step t a = .ok t' := by
      obtain ⟨pre, post, rfl, ht, hok⟩ := ih h
      exact ⟨b :: pre, post, rfl, ht, hok⟩
    cases hok : step s b with
    | ok s' =>
      rw [history_of_ok hok] at h
      rcases List.mem_cons.mp h with heq | h
      · cases heq
        exact ⟨[], as, rfl, rfl, hok⟩
      · exact hrest h
    | error e =>
      rw [history_of_error hok] at h
      exact hrest h

/-- **Invariant rule with history.** -/
theorem Along.history_inv {C : σ → lab → Prop} {I : σ → List (σ × lab × σ) → Prop}
    (hI : ∀ s a s' hist, I s hist → C s a → step s a = .ok s' → I s' (hist ++ [(s, a, s')]))
    {s : σ} {as : List lab} (h : Along step C s as) (hs : I s []) :
    I (run step s as) (history step s as) := by
  induction as using List.reverseRecOn with
  | nil => exact hs
  | append_singleton as a ih =>
    obtain ⟨has, hlast, -⟩ := Along.append.mp h
    rw [run_append, history_append]
    cases hok : step (run step s as) a with
    | ok s' =>
      rw [history_of_ok hok, run_cons, commit_of_ok hok]
      exact hI _ a s' _ (ih has) (hlast s' hok) hok
    | error e =>
      rw [history_of_error hok, run_cons, commit_of_error hok]
      simpa [history] using ih has

/-- **Counting rule.** A counter that each step moves by what the step is worth
holds what the steps so far are worth together. -/
theorem Along.count_eq {C : σ → lab → Prop} {I : σ → Prop} {f : σ × lab × σ → Int}
    {c : σ → Int} (hI : ∀ s a s', I s → step s a = .ok s' → I s')
    (hcount : ∀ s a s', I s → C s a → step s a = .ok s' → c s' = c s + f (s, a, s'))
    {s : σ} {as : List lab} (h : Along step C s as) (hs : I s) (h0 : c s = 0) :
    c (run step s as) = tally f (history step s as) := by
  refine (Along.history_inv (I := fun s hist => I s ∧ c s = tally f hist) ?_ h ⟨hs, h0⟩).2
  rintro s a s' hist ⟨hs, heq⟩ hC hok
  refine ⟨hI s a s' hs hok, ?_⟩
  rw [hcount s a s' hs hC hok, heq, tally_append, tally_singleton]

/-- **Loss rule.** Steps that are worth something, and nothing exactly when they meet `C`, are
worth nothing together exactly in a run along `C`. -/
theorem Along.iff_tally_eq_zero {C : σ → lab → Prop} {I : σ → Prop} {f : σ × lab × σ → Int}
    (hI : ∀ s a s', I s → step s a = .ok s' → I s')
    (hf : ∀ s a s', I s → step s a = .ok s' → 0 ≤ f (s, a, s'))
    (hC : ∀ s a s', I s → step s a = .ok s' → (f (s, a, s') = 0 ↔ C s a))
    {s : σ} {as : List lab} (hs : I s) :
    0 ≤ tally f (history step s as) ∧
      (tally f (history step s as) = 0 ↔ Along step C s as) := by
  induction as generalizing s with
  | nil => exact ⟨le_rfl, by simp [history, Along]⟩
  | cons a as ih =>
    cases hok : step s a with
    | ok s' =>
      obtain ⟨h0, hiff⟩ := ih (s := s') (hI s a s' hs hok)
      have hpos := hf s a s' hs hok
      have hhere := hC s a s' hs hok
      rw [history_of_ok hok, commit_of_ok hok]
      simp only [tally, List.map_cons, List.sum_cons] at h0 hiff ⊢
      refine ⟨by omega, ?_⟩
      simp only [Along, commit_of_ok hok, ← hiff, ← hhere, hok, Except.ok.injEq, forall_eq']
      omega
    | error e =>
      rw [history_of_error hok]
      have hrest := ih (s := commit step s a) (by rwa [commit_of_error hok])
      simpa only [Along, hok, reduceCtorEq, false_implies, implies_true, true_and] using hrest

/-- A run of steps that meet the condition in every state. -/
theorem Along.of_forall {C : σ → lab → Prop} {s : σ} {as : List lab}
    (h : ∀ a ∈ as, ∀ s, C s a) : Along step C s as := by
  induction as generalizing s with
  | nil => exact True.intro
  | cons a as ih =>
    exact ⟨fun _ _ => h a (by simp) s, ih fun b hb => h b (List.mem_cons_of_mem a hb)⟩

/-- Every run is a run along the condition that asks for nothing. -/
theorem Along.trivial {s : σ} {as : List lab} : Along step (fun _ _ => True) s as :=
  .of_forall fun _ _ _ => True.intro

theorem Along.iff_forall_prefix {C : σ → lab → Prop} {I P : σ → Prop}
    (hkeep : ∀ s a s', I s → C s a → step s a = .ok s' → I s') (hP : ∀ s, I s → P s)
    (hneed : ∀ s a s', I s → step s a = .ok s' → P s' → C s a)
    {s : σ} {as : List lab} (hs : I s) :
    (∀ bs, bs <+: as → P (run step s bs)) ↔ Along step C s as :=
  Along.iff_forall_prefix_of (fun s a s' hI _ => hkeep s a s' hI) hP
    (fun s a s' hI _ => hneed s a s' hI) .trivial hs

/-- **Exact conditions on pairs.** When what holds of each state and a later one goes on along `C`,
and needs `C` of a step from the invariant, it holds along a run exactly when the run is along
`C`. -/
theorem Along.iff_forall_prefix_pair {C : σ → lab → Prop} {I : σ → Prop} {Q : σ → σ → Prop}
    (hkeep : ∀ s a s', I s → C s a → step s a = .ok s' → I s') (hrefl : ∀ s, I s → Q s s)
    (hnext : ∀ s t a t', Q s t → I t → C t a → step t a = .ok t' → Q s t')
    (hneed : ∀ s a s', I s → step s a = .ok s' → Q s s' → C s a)
    {s : σ} {as : List lab} (hs : I s) :
    (∀ pre bs, pre <+: bs → bs <+: as → Q (run step s pre) (run step s bs)) ↔ Along step C s as := by
  constructor
  · intro h
    induction as generalizing s with
    | nil => exact True.intro
    | cons a as ih =>
      have hC : ∀ s', step s a = .ok s' → C s a := by
        intro s' hok
        have hq := h [] [a] List.nil_prefix (by simp)
        rw [run_nil, run_cons, run_nil, commit_of_ok hok] at hq
        exact hneed s a s' hs hok hq
      have hnext : I (commit step s a) := by
        rcases commit_cases step s a with hok | hno
        · exact hkeep s a _ hs (hC _ hok) hok
        · rw [hno]; exact hs
      refine ⟨hC, ih hnext fun pre bs hpre hbs => ?_⟩
      exact h (a :: pre) (a :: bs) (by simpa using hpre) (by simpa using hbs)
  · rintro h pre _ ⟨rest, rfl⟩ ⟨post, rfl⟩
    obtain ⟨hpre, hrest⟩ := Along.append.mp (Along.append.mp h).1
    have hstart := hpre.inv hkeep hs
    rw [run_append]
    refine (hrest.inv (I := fun t => I t ∧ Q (run step s pre) t) ?_ ⟨hstart, hrefl _ hstart⟩).2
    rintro t a t' ⟨ht, hq⟩ hC hok
    exact ⟨hkeep t a t' ht hC hok, hnext _ t a t' hq ht hC hok⟩

/-! ## Two runs -/

variable (step) in
/-- Two runs that differ only in labels which meet `D`. Every label they share
meets `C`, which looks at the states of both runs before it. -/
inductive Twin (D : lab → Prop) (C : σ → σ → lab → Prop) :
    σ → σ → List lab → List lab → Prop where
  | nil {s t : σ} : Twin D C s t [] []
  | both {s t : σ} {a : lab} {as bs : List lab} (cond : C s t a)
      (rest : Twin D C (commit step s a) (commit step t a) as bs) :
      Twin D C s t (a :: as) (a :: bs)
  | left {s t : σ} {a : lab} {as bs : List lab} (cond : D a)
      (rest : Twin D C (commit step s a) t as bs) : Twin D C s t (a :: as) bs
  | right {s t : σ} {b : lab} {as bs : List lab} (cond : D b)
      (rest : Twin D C s (commit step t b) as bs) : Twin D C s t as (b :: bs)

/-- **Simulation rule.** What shared steps keep between the states of two runs,
and what neither run's own steps disturb, relates the states they reach. -/
theorem Twin.rel {D : lab → Prop} {C : σ → σ → lab → Prop} {R : σ → σ → Prop}
    (hboth : ∀ s t a, R s t → C s t a → R (commit step s a) (commit step t a))
    (hleft : ∀ s t a, R s t → D a → R (commit step s a) t)
    (hright : ∀ s t b, R s t → D b → R s (commit step t b))
    {s t : σ} {as bs : List lab} (h : Twin step D C s t as bs) (hst : R s t) :
    R (run step s as) (run step t bs) := by
  induction h with
  | nil => exact hst
  | both cond _ ih => exact ih (hboth _ _ _ hst cond)
  | left cond _ ih => exact ih (hleft _ _ _ hst cond)
  | right cond _ ih => exact ih (hright _ _ _ hst cond)

end Agora.Lib
