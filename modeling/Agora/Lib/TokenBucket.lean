import Mathlib.Algebra.Order.Field.Basic
import Mathlib.Tactic.Linarith

/-!
# Token buckets

A bucket is refilled at a constant rate up to its capacity, and calls spend
tokens from it. What is spent from a moment on is metered: with the tokens that
are left it stays below what the first spending call finds and the refill since
the moment. `Metered.spend` is the rule for one call, and `Metered.spent_lt`
reads off the bound.
-/

namespace Agora.Lib

/-- The tokens at the last call. -/
structure TokenBucket (K : Type) where
  tokens : K
  last : K

namespace TokenBucket

variable {K : Type} [Field K] [LinearOrder K]

section Calls

variable (b : TokenBucket K) (rate capacity : K)

/-- What a call finds. -/
def found (now : K) : K := min capacity (b.tokens + (now - b.last) * rate)

/-- The bucket after a call that spends `n` tokens. -/
def spend (now n : K) : TokenBucket K := ⟨b.found rate capacity now - n, now⟩

/-- What was spent since the moment, if anything, and what is left. -/
def Metered (start bound spent : K) : Prop :=
  spent = 0 ∨ start ≤ b.last ∧ spent + b.tokens < bound + (b.last - start) * rate

end Calls

variable [IsStrictOrderedRing K] {rate capacity start bound spent now n : K} {b : TokenBucket K}

theorem Metered.spend (h : b.Metered rate start bound spent) (hrate : 0 ≤ rate)
    (hnow : start ≤ now) (hfound : n ≠ 0 → b.found rate capacity now < bound) :
    (b.spend rate capacity now n).Metered rate start bound (spent + n) := by
  have hle : b.found rate capacity now ≤ b.tokens + (now - b.last) * rate := min_le_right _ _
  rcases h with rfl | ⟨hstart, hspent⟩
  · by_cases hn : n = 0
    · exact .inl (by rw [hn, add_zero])
    · refine .inr ⟨hnow, ?_⟩
      have hfound := hfound hn
      have hrefill : 0 ≤ (now - start) * rate := mul_nonneg (sub_nonneg.mpr hnow) hrate
      simp only [TokenBucket.spend]
      linarith
  · refine .inr ⟨hnow, ?_⟩
    simp only [TokenBucket.spend]
    linarith [sub_mul now b.last rate, sub_mul b.last start rate, sub_mul now start rate]

theorem Metered.spent_lt (h : b.Metered rate start bound spent) (htokens : 0 ≤ b.tokens) :
    spent = 0 ∨ start ≤ b.last ∧ spent < bound + (b.last - start) * rate := by
  refine h.imp_right ?_
  rintro ⟨hstart, hspent⟩
  exact ⟨hstart, by linarith⟩

end TokenBucket

end Agora.Lib
