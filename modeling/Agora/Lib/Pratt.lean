import Mathlib.Data.List.Prime
import Mathlib.NumberTheory.LucasPrimality

/-!
# Primality certificates

`p` is prime when the factors of `p - 1` are known and some `a` has order `p - 1` modulo `p`
(`lucas_primality`). A certificate lists such triples, each one's factors among the numbers
before it; the powers are computed by squaring, so that the kernel can check it.
-/

namespace Agora.Lib

/-- `acc * b ^ e` modulo `m`, by the bits of `e` from the lowest. -/
def powLoop (m : Nat) : Nat → Nat → Nat → Nat → Nat
  | 0, _, _, acc => acc
  | fuel + 1, b, e, acc =>
    powLoop m fuel (b * b % m) (e / 2) (bif e % 2 == 1 then acc * b % m else acc)

/-- `b ^ e % m`. -/
def powMod (m b e : Nat) : Nat := powLoop m (e.log2 + 1) b e 1 % m

theorem powLoop_cast (m : Nat) {fuel b e acc : Nat} (h : e < 2 ^ fuel) :
    (powLoop m fuel b e acc : ZMod m) = acc * (b : ZMod m) ^ e := by
  induction fuel generalizing b e acc with
  | zero =>
    obtain rfl : e = 0 := by simpa using h
    simp [powLoop]
  | succ fuel ih =>
    have hhalf : e / 2 < 2 ^ fuel := by rw [pow_succ] at h; omega
    rw [powLoop, ih hhalf]
    have hsq : ((b * b % m : ℕ) : ZMod m) = (b : ZMod m) ^ 2 := by
      rw [ZMod.natCast_mod, Nat.cast_mul, sq]
    rw [hsq, ← pow_mul]
    rcases Nat.mod_two_eq_zero_or_one e with hodd | hodd
    · have he : 2 * (e / 2) = e := by omega
      simp [hodd, he]
    · have he : 2 * (e / 2) + 1 = e := by omega
      simp only [hodd, beq_self_eq_true, cond_true, ZMod.natCast_mod, Nat.cast_mul]
      rw [mul_assoc, ← pow_succ', he]

theorem powMod_cast (m b e : Nat) : (powMod m b e : ZMod m) = (b : ZMod m) ^ e := by
  rw [powMod, ZMod.natCast_mod, powLoop_cast m Nat.lt_log2_self, Nat.cast_one, one_mul]

theorem powMod_eq_iff {m : Nat} (b e : Nat) (r : Nat) :
    powMod m b e = r % m ↔ (b : ZMod m) ^ e = r := by
  rw [← powMod_cast, ZMod.natCast_eq_natCast_iff']
  simp [powMod]

/-- A number, an element of order `p - 1`, and the factors of `p - 1`. -/
structure PrattStep where
  p : Nat
  a : Nat
  factors : List Nat

def PrattStep.check (known : List Nat) (s : PrattStep) : Bool :=
  s.factors.all known.contains && s.factors.prod == s.p - 1 &&
    powMod s.p s.a (s.p - 1) == 1 % s.p &&
      s.factors.all fun q => powMod s.p s.a ((s.p - 1) / q) != 1 % s.p

def prattCheck : List Nat → List PrattStep → Bool
  | _, [] => true
  | known, s :: steps => s.check known && prattCheck (s.p :: known) steps

theorem PrattStep.prime_of_check {known : List Nat} {s : PrattStep}
    (hknown : ∀ q ∈ known, q.Prime) (h : s.check known = true) : s.p.Prime := by
  simp only [check, Bool.and_eq_true, List.all_eq_true, List.contains_iff_mem, beq_iff_eq,
    bne_iff_ne] at h
  obtain ⟨⟨⟨hfactors, hprod⟩, hfull⟩, hpart⟩ := h
  have hcast (e : Nat) : powMod s.p s.a e = 1 % s.p ↔ (s.a : ZMod s.p) ^ e = 1 := by
    rw [powMod_eq_iff, Nat.cast_one]
  refine lucas_primality s.p s.a ((hcast _).mp hfull) fun q hq hdvd => ?_
  rw [← hprod] at hdvd
  obtain ⟨r, hr, hqr⟩ := (Prime.dvd_prod_iff hq.prime).mp hdvd
  obtain rfl : q = r := (Nat.prime_dvd_prime_iff_eq hq (hknown r (hfactors r hr))).mp hqr
  exact fun h1 => hpart q hr ((hcast _).mpr h1)

theorem prime_of_prattCheck {known : List Nat} {steps : List PrattStep}
    (hknown : ∀ q ∈ known, q.Prime) (h : prattCheck known steps = true) :
    ∀ q ∈ steps.map PrattStep.p, q.Prime := by
  induction steps generalizing known with
  | nil => simp
  | cons s steps ih =>
    simp only [prattCheck, Bool.and_eq_true] at h
    have hs := s.prime_of_check hknown h.1
    rw [List.map_cons, List.forall_mem_cons]
    exact ⟨hs, ih (List.forall_mem_cons.mpr ⟨hs, hknown⟩) h.2⟩

end Agora.Lib
