import Mathlib.Data.List.Induction
import Mathlib.Algebra.Group.Nat.Defs

/-!
# Fields behind their lengths

Each field of a sequence is written behind its length, in a fixed number of
bytes with the highest first. A reader then knows where each field ends, so
the bytes tell the fields, for as long as the lengths fit.
-/

namespace Agora.Lib

theorem eq_of_digits_eq {w n m : Nat} (hn : n < 256 ^ w) (hm : m < 256 ^ w)
    (h : ∀ i < w, n / 256 ^ i % 256 = m / 256 ^ i % 256) : n = m := by
  induction w generalizing n m with
  | zero =>
    simp only [Nat.pow_zero] at hn hm
    omega
  | succ w ih =>
    have hlow := h 0 (Nat.succ_pos w)
    simp only [Nat.pow_zero, Nat.div_one] at hlow
    have hhigh : n / 256 = m / 256 := by
      rw [Nat.pow_succ] at hn hm
      refine ih ((Nat.div_lt_iff_lt_mul (by omega)).mpr hn)
        ((Nat.div_lt_iff_lt_mul (by omega)).mpr hm) fun i hi => ?_
      have hdigit := h (i + 1) (Nat.succ_lt_succ hi)
      rwa [Nat.pow_succ, Nat.mul_comm, ← Nat.div_div_eq_div_mul, ← Nat.div_div_eq_div_mul] at hdigit
    omega

section Framing

variable {β : Type} (width : Nat) (encodeLength : Nat → List β)

/-- The fields, each behind its length. -/
def frames (fields : List (List β)) : List β :=
  fields.flatMap fun field => encodeLength field.length ++ field

variable {width encodeLength}

/-- **The bytes tell the fields.** -/
theorem frames_injective {bound : Nat} (hpos : 0 < width)
    (hwidth : ∀ n, (encodeLength n).length = width)
    (hencode : ∀ n < bound, ∀ m < bound, encodeLength n = encodeLength m → n = m)
    {fields fields' : List (List β)} (hfields : ∀ f ∈ fields, f.length < bound)
    (hfields' : ∀ f ∈ fields', f.length < bound)
    (h : frames encodeLength fields = frames encodeLength fields') : fields = fields' := by
  unfold frames at h
  induction fields generalizing fields' with
  | nil =>
    cases fields' with
    | nil => rfl
    | cons f fs =>
      have hlen := congrArg List.length h
      simp only [List.flatMap_nil, List.length_nil, List.flatMap_cons, List.length_append,
        hwidth] at hlen
      omega
  | cons f fs ih =>
    cases fields' with
    | nil =>
      have hlen := congrArg List.length h
      simp only [List.flatMap_nil, List.length_nil, List.flatMap_cons, List.length_append,
        hwidth] at hlen
      omega
    | cons f' fs' =>
      simp only [List.flatMap_cons, List.append_assoc] at h
      obtain ⟨hhead, hrest⟩ := List.append_inj h ((hwidth _).trans (hwidth _).symm)
      have hlen := hencode _ (hfields f (by simp)) _ (hfields' f' (by simp)) hhead
      obtain ⟨hfield, htail⟩ := List.append_inj hrest hlen
      rw [hfield, ih (fun g hg => hfields g (List.mem_cons_of_mem f hg))
        (fun g hg => hfields' g (List.mem_cons_of_mem f' hg)) htail]

end Framing

end Agora.Lib
