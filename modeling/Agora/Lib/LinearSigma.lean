import Mathlib.Algebra.Field.Basic
import Mathlib.Algebra.Module.LinearMap.Defs
import Mathlib.Tactic.Push

/-!
# Sigma protocols for linear relations

A prover knows a preimage `w` of `x` under a linear map `φ`. A round is a
challenge `c` with a response `z`, and answers the announcement
`φ z - c • x` (`announce`). A response that is honest for the randomness `r` is
`r + c • w`; any other round is simulated, by choosing the challenge and the
response first. Two rounds with one announcement and different challenges give
a preimage away (`extract`).
-/

namespace Agora.Lib

variable {F V W : Type} [Field F] [AddCommGroup V] [Module F V] [AddCommGroup W] [Module F W]
  {φ : V →ₗ[F] W} {x : W} {c c' : F} {z z' w r : V}

/-- The announcement that the challenge `c` and the response `z` answer. -/
def announce (φ : V →ₗ[F] W) (x : W) (c : F) (z : V) : W := φ z - c • x

/-- The response to `c` of a prover who announced `φ r`. -/
def respond (w r : V) (c : F) : V := r + c • w

/-- The preimage that two rounds with one announcement give away. -/
def extract (c c' : F) (z z' : V) : V := (c - c')⁻¹ • (z - z')

theorem announce_respond (hw : φ w = x) : announce φ x c (respond w r c) = φ r := by
  simp [announce, respond, hw]

/-- **Special soundness.** -/
theorem map_extract (hc : c ≠ c') (h : announce φ x c z = announce φ x c' z') :
    φ (extract c c' z z') = x := by
  have hdiff : φ (z - z') = (c - c') • x := by
    simp only [announce] at h
    rw [map_sub, sub_smul, sub_eq_sub_iff_add_eq_add]
    rw [sub_eq_sub_iff_add_eq_add] at h
    rw [h, add_comm]
  rw [extract, map_smul, hdiff, smul_smul, inv_mul_cancel₀ (sub_ne_zero.mpr hc), one_smul]

theorem exists_mem_ne_of_sum_ne {ι : Type} {f g : ι → F} {is : List ι}
    (h : (is.map f).sum ≠ (is.map g).sum) : ∃ i ∈ is, f i ≠ g i := by
  by_contra hall
  push Not at hall
  exact h (congrArg List.sum (List.map_congr_left hall))

end Agora.Lib
