import Agora.Lib.Int128
import Agora.Lib.Tx

/-!
# Work done in batches

A call works through a list from where the last call stopped, `pos`, and takes
as many items as it is told. `Cuts` is a division of what is left of the list
into batches. When a call that stops inside the list can be resumed by any
later call (`Resumes`), every division does what one call does
(`Resumes.one_call_iff`), as long as what the batches draw together fits the
counter that one call keeps of it.
-/

namespace Agora.Lib

variable {ε σ ι κ α : Type}

/-- Calls one after the other, each from the state the one before left. Their
counts add up. -/
def inTurn (call : σ → ι → Except ε (Nat × σ)) : List ι → σ → Except ε (Nat × σ)
  | [], s => .ok (0, s)
  | c :: cs, s => do
    let (k, s) ← call s c
    let (m, s) ← inTurn call cs s
    return (k + m, s)

/-- Batches of these sizes work through a list of `total` items from `start` on:
each begins inside the list, takes something and stays within `u32`, and the last
one reaches the end. -/
def Cuts (total : Nat) : Nat → List Nat → Prop
  | start, [] => total ≤ start
  | start, n :: ns => start < total ∧ 0 < n ∧ start + n < 2 ^ 32 ∧ Cuts total (start + n) ns

instance (total : Nat) : (start : Nat) → (ns : List Nat) → Decidable (Cuts total start ns)
  | start, [] => inferInstanceAs (Decidable (total ≤ start))
  | start, n :: ns =>
    have := instDecidableCuts total (start + n) ns
    inferInstanceAs (Decidable (_ ∧ _ ∧ _ ∧ _))

theorem inTurn_cons_eq_ok {call : σ → ι → Except ε (Nat × σ)} {c : ι} {cs : List ι} {s s' : σ}
    {k : Nat} : inTurn call (c :: cs) s = .ok (k, s') ↔
      ∃ k1 s1 k2, call s c = .ok (k1, s1) ∧ inTurn call cs s1 = .ok (k2, s') ∧ k = k1 + k2 := by
  simp only [inTurn, bind_eq_ok, pure_eq_ok, Prod.exists, Prod.mk.injEq]
  constructor
  · rintro ⟨k1, s1, h1, k2, _, h2, rfl, rfl⟩
    exact ⟨k1, s1, k2, h1, h2, rfl⟩
  · rintro ⟨k1, s1, k2, h1, h2, rfl⟩
    exact ⟨k1, s1, h1, k2, s', h2, rfl, rfl⟩

theorem inTurn_map (call : σ → κ → Except ε (Nat × σ)) (g : ι → κ) (cs : List ι) (s : σ) :
    inTurn call (cs.map g) s = inTurn (fun s c => call s (g c)) cs s := by
  induction cs generalizing s with
  | nil => rfl
  | cons c cs ih =>
    simp only [List.map_cons, inTurn]
    exact bind_congr fun r => by rw [ih]

/-- `call s a n` works through up to `n` items in mode `a`. `drawn` is a counter that
falls by what the items cost. A call of a `Later` mode resumes one that stopped
inside the list. -/
structure Resumes (call : σ → α → Nat → Except ε (Nat × σ)) (Good : σ → Prop)
    (pos total : σ → Nat) (drawn : σ → Int) (Later : α → Prop) : Prop where
  good : ∀ {s a n k s'}, Good s → call s a n = .ok (k, s') → Good s'
  falls : ∀ {s a n k s'}, Good s → call s a n = .ok (k, s') →
    drawn s' ≤ drawn s ∧ Fits (drawn s - drawn s')
  advances : ∀ {s a n k s'}, Good s → pos s + n < total s → call s a n = .ok (k, s') →
    pos s' = pos s + n ∧ total s' = total s
  /-- Sizes that reach the end of the list are all the same. -/
  saturates : ∀ {s a n m k s'}, Good s → pos s < total s → total s ≤ pos s + n →
    total s ≤ pos s + m → pos s + m < 2 ^ 32 → call s a n = .ok (k, s') → call s a m = .ok (k, s')
  splits : ∀ {s a b n m k s'}, Good s → Later b → 0 < n → pos s + n < total s →
    pos s + (n + m) < 2 ^ 32 →
    (call s a (n + m) = .ok (k, s') ↔ ∃ k1 s1 k2, call s a n = .ok (k1, s1) ∧
      call s1 b m = .ok (k2, s') ∧ k = k1 + k2 ∧ Fits (drawn s - drawn s'))

namespace Resumes

variable {call : σ → α → Nat → Except ε (Nat × σ)} {Good : σ → Prop} {pos total : σ → Nat}
  {drawn : σ → Int} {Later : α → Prop} {s s' : σ} {k : Nat}

theorem inTurn_falls (h : Resumes call Good pos total drawn Later) {cs : List (α × Nat)}
    (hs : Good s) (hrun : inTurn (fun s c => call s c.1 c.2) cs s = .ok (k, s')) :
    drawn s' ≤ drawn s := by
  induction cs generalizing s k with
  | nil =>
    obtain ⟨-, rfl⟩ := Prod.mk.inj (Except.ok.inj hrun)
    exact le_rfl
  | cons c cs ih =>
    obtain ⟨k1, s1, k2, h1, h2, -⟩ := inTurn_cons_eq_ok.mp hrun
    exact (ih (h.good hs h1) h2).trans (h.falls hs h1).1

/-- **Every division into batches does what one call does.** The first batch has the
mode of the one call. -/
theorem one_call_iff (h : Resumes call Good pos total drawn Later) {a : α} {n N : Nat}
    {rest : List (α × Nat)} (hs : Good s) (hcut : Cuts (total s) (pos s) (n :: rest.map Prod.snd))
    (hlater : ∀ c ∈ rest, Later c.1) (hN : pos s + N < 2 ^ 32) (hall : total s ≤ pos s + N) :
    call s a N = .ok (k, s') ↔
      inTurn (fun s c => call s c.1 c.2) ((a, n) :: rest) s = .ok (k, s') ∧
        Fits (drawn s - drawn s') := by
  induction rest generalizing s a n N k with
  | nil =>
    obtain ⟨hin, -, hn, hend⟩ := hcut
    rw [inTurn_cons_eq_ok]
    constructor
    · intro h1
      have hlast := h.saturates hs hin hall hend hn h1
      exact ⟨⟨k, s', 0, hlast, rfl, rfl⟩, (h.falls hs h1).2⟩
    · rintro ⟨⟨k1, s1, k2, h1, h2, rfl⟩, -⟩
      obtain ⟨rfl, rfl⟩ := Prod.mk.inj (Except.ok.inj h2)
      exact h.saturates hs hin hend hall hN h1
  | cons c rest ih =>
    obtain ⟨-, hn, -, hcut⟩ := hcut
    have hin : pos s + n < total s := hcut.1
    obtain ⟨m, rfl⟩ : ∃ m, N = n + m := ⟨N - n, by omega⟩
    have hc : Later c.1 := hlater c (List.mem_cons_self ..)
    -- The second call is the one call on what the first batch left.
    have hnext (k1 : Nat) (s1 : σ) (h1 : call s a n = .ok (k1, s1)) (k2 : Nat) :
        call s1 c.1 m = .ok (k2, s') ↔
          inTurn (fun s c => call s c.1 c.2) (c :: rest) s1 = .ok (k2, s') ∧
            Fits (drawn s1 - drawn s') := by
      obtain ⟨hpos, htotal⟩ := h.advances hs hin h1
      refine ih (h.good hs h1) (by rw [hpos, htotal]; exact hcut)
        (fun d hd => hlater d (List.mem_cons_of_mem _ hd)) ?_ ?_
      · rw [hpos, Nat.add_assoc]; exact hN
      · rw [hpos, htotal, Nat.add_assoc]; exact hall
    rw [h.splits hs hc hn hin hN, inTurn_cons_eq_ok]
    constructor
    · rintro ⟨k1, s1, k2, h1, h2, rfl, hfits⟩
      exact ⟨⟨k1, s1, k2, h1, ((hnext k1 s1 h1 k2).mp h2).1, rfl⟩, hfits⟩
    · rintro ⟨⟨k1, s1, k2, h1, h2, rfl⟩, hfits⟩
      have hle := (h.falls hs h1).1
      have hle' := h.inTurn_falls (h.good hs h1) h2
      have hrest : Fits (drawn s1 - drawn s') := hfits.of_le (by omega) (by omega)
      exact ⟨k1, s1, k2, h1, (hnext k1 s1 h1 k2).mpr ⟨h2, hrest⟩, rfl, hfits⟩

end Resumes

end Agora.Lib
