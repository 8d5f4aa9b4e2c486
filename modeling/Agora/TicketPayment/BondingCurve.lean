import Agora.TicketPayment.Types
import Mathlib.Algebra.BigOperators.Intervals
import Mathlib.Tactic.Ring

/-!
# Bonding curve prices

The polynomial curve of `bonding_curve.rs`: the price of a ticket at a remaining
supply `s` is `a * s^b + c`, and an order of several tickets costs the integral
of the curve between the supply after it and the supply before it. `reserve` is
the integral from zero, with the powers the contract computes, in which an order
is a difference, so that orders can be split; `curve_bracketed` compares it with
the prices of the single tickets.
-/

namespace Agora.TicketPayment

open Lib

structure BondingCurveConfig where
  aScaled : Int
  bExponent : Nat
  cBase : Int
  initialSupply : Nat
  deriving DecidableEq, Repr

def paramScale : Int := 1000000

def maxExponent : Nat := 4

def validateBondingCurveConfig (cfg : BondingCurveConfig) : Tx Unit := do
  ensure (0 < cfg.aScaled) (.error .invalidPrice)
  ensure (cfg.bExponent ≠ 0 ∧ cfg.bExponent ≤ maxExponent) (.error .invalidPrice)
  ensure (0 ≤ cfg.cBase) (.error .invalidPrice)
  ensure (cfg.initialSupply ≠ 0) (.error .maxSupplyExceeded)

def integerPow (base : Int) (exp : Nat) : Int :=
  if exp = 0 then 1
  else (List.range exp).foldl (fun result _ => saturatingMul result base) 1

def bondingCurvePrice (cfg : BondingCurveConfig) (remainingSupply : Nat) : Tx Int := do
  let sPowB := integerPow remainingSupply cfg.bExponent
  let product ← arith (checkedMul cfg.aScaled sPowB)
  let variableComponent ← arith (checkedDiv product paramScale)
  arith (checkedAdd variableComponent cfg.cBase)

/-- The closure `integral_at` of the cost. -/
def integralAt (cfg : BondingCurveConfig) (bPlus1 s : Nat) : Tx Int := do
  let sPow := integerPow s bPlus1
  let product ← arith (checkedMul cfg.aScaled sPow)
  let part ← arith (checkedDiv product bPlus1)
  let scaled ← arith (checkedDiv part paramScale)
  let base ← arith (checkedMul cfg.cBase s)
  arith (checkedAdd scaled base)

def bondingCurveIntegralCost (cfg : BondingCurveConfig) (remainingSupply quantity : Nat) :
    Tx Int :=
  if quantity = 0 then pure 0
  else if remainingSupply < quantity then .error (.error .maxSupplyExceeded)
  else do
    let sEnd := remainingSupply - quantity
    let bPlus1 ← arith (checkedAddNat 32 cfg.bExponent 1)
    let atStart ← integralAt cfg bPlus1 remainingSupply
    let atEnd ← integralAt cfg bPlus1 sEnd
    let cost ← arith (checkedSub atStart atEnd)
    ensure (0 ≤ cost) (.error .arithmeticError)
    return cost

namespace BondingCurveConfig

variable (cfg : BondingCurveConfig)

/-- What an accepted configuration promises whenever it is read. -/
structure Accepted : Prop where
  a_pos : 0 < cfg.aScaled
  b_pos : 0 < cfg.bExponent
  b_le : cfg.bExponent ≤ maxExponent
  c_nonneg : 0 ≤ cfg.cBase
  supply_pos : 0 < cfg.initialSupply

/-- The integral from zero to `s`, with the powers of the contract. -/
def reserve (s : Nat) : Int :=
  cfg.aScaled * integerPow s (cfg.bExponent + 1) / (cfg.bExponent + 1 : Nat) / paramScale +
    cfg.cBase * s

end BondingCurveConfig

theorem validateBondingCurveConfig_eq_ok {cfg : BondingCurveConfig} {u : Unit}
    (h : validateBondingCurveConfig cfg = .ok u) : cfg.Accepted := by
  simp only [validateBondingCurveConfig, bind_eq_ok, ensure_eq_ok] at h
  obtain ⟨_, ha, _, ⟨hb, hb'⟩, _, hc, hs⟩ := h
  exact ⟨ha, Nat.pos_of_ne_zero hb, hb', hc, Nat.pos_of_ne_zero hs⟩

/-! ## Powers -/

section Powers

variable {x y : Int} {n : Nat}

@[simp] theorem integerPow_zero (x : Int) : integerPow x 0 = 1 := rfl

@[simp] theorem integerPow_succ (x : Int) (n : Nat) :
    integerPow x (n + 1) = saturatingMul (integerPow x n) x := by
  rw [integerPow, if_neg (Nat.succ_ne_zero n), List.range_succ, List.foldl_concat]
  cases n with
  | zero => rfl
  | succ n => rw [integerPow, if_neg (Nat.succ_ne_zero n)]

theorem integerPow_nonneg (hx : 0 ≤ x) (n : Nat) : 0 ≤ integerPow x n := by
  induction n with
  | zero => simp
  | succ n ih =>
    rw [integerPow_succ]
    exact saturatingMul_nonneg ih hx

theorem integerPow_mono (hx : 0 ≤ x) (hxy : x ≤ y) (n : Nat) :
    integerPow x n ≤ integerPow y n := by
  induction n with
  | zero => simp
  | succ n ih =>
    rw [integerPow_succ, integerPow_succ]
    exact saturatingMul_mono ih hxy hx (integerPow_nonneg (hx.trans hxy) n)

theorem integerPow_of_fits (hx : 0 ≤ x) {n : Nat} (h : Fits (x ^ n)) : integerPow x n = x ^ n := by
  induction n with
  | zero => simp
  | succ n ih =>
    rcases eq_or_lt_of_le hx with h0 | h0
    · rw [← h0, integerPow_succ, saturatingMul_of_fits (by simp [Fits])]
      simp
    · have hle : x ^ n ≤ x ^ (n + 1) := pow_le_pow_right₀ h0 n.le_succ
      have hn := ih (h.of_le (pow_nonneg hx n) hle)
      rw [integerPow_succ, hn, saturatingMul_of_fits (by rwa [← pow_succ]), pow_succ]

end Powers

/-! ## What the functions return -/

section Spec

variable {cfg : BondingCurveConfig} {s t q : Nat} {v : Int}

/-- The values on the way to the integral at `s` fit. -/
structure BondingCurveConfig.ReserveFits (cfg : BondingCurveConfig) (s : Nat) : Prop where
  product : Fits (cfg.aScaled * integerPow s (cfg.bExponent + 1))
  base : Fits (cfg.cBase * s)
  sum : Fits (cfg.reserve s)

namespace BondingCurveConfig

theorem product_nonneg (h : cfg.Accepted) (s n : Nat) : 0 ≤ cfg.aScaled * integerPow s n :=
  mul_nonneg h.a_pos.le (integerPow_nonneg s.cast_nonneg n)

theorem product_mono (h : cfg.Accepted) (hst : s ≤ t) (n : Nat) :
    cfg.aScaled * integerPow s n ≤ cfg.aScaled * integerPow t n :=
  mul_le_mul_of_nonneg_left
    (integerPow_mono s.cast_nonneg (Int.ofNat_le.mpr hst) n) h.a_pos.le

theorem base_mono (h : cfg.Accepted) (hst : s ≤ t) : cfg.cBase * s ≤ cfg.cBase * t :=
  mul_le_mul_of_nonneg_left (Int.ofNat_le.mpr hst) h.c_nonneg

theorem base_nonneg (h : cfg.Accepted) (s : Nat) : 0 ≤ cfg.cBase * s :=
  mul_nonneg h.c_nonneg s.cast_nonneg

theorem reserve_nonneg (h : cfg.Accepted) (s : Nat) : 0 ≤ cfg.reserve s := by
  have hpart := Int.ediv_nonneg (cfg.product_nonneg h s (cfg.bExponent + 1))
    (Int.natCast_nonneg (cfg.bExponent + 1))
  exact add_nonneg (Int.ediv_nonneg hpart (by decide)) (cfg.base_nonneg h s)

theorem reserve_mono (h : cfg.Accepted) (hst : s ≤ t) : cfg.reserve s ≤ cfg.reserve t := by
  have hpart := Int.ediv_le_ediv (Int.natCast_pos.mpr cfg.bExponent.succ_pos)
    (cfg.product_mono h hst (cfg.bExponent + 1))
  exact add_le_add (Int.ediv_le_ediv (by decide) hpart) (cfg.base_mono h hst)

theorem ReserveFits.mono (hf : cfg.ReserveFits t) (h : cfg.Accepted) (hst : s ≤ t) :
    cfg.ReserveFits s where
  product := hf.product.of_le (cfg.product_nonneg h s _) (cfg.product_mono h hst _)
  base := hf.base.of_le (cfg.base_nonneg h s) (cfg.base_mono h hst)
  sum := hf.sum.of_le (cfg.reserve_nonneg h s) (cfg.reserve_mono h hst)

end BondingCurveConfig

theorem integralAt_eq_ok (h : cfg.Accepted) :
    integralAt cfg (cfg.bExponent + 1) s = .ok v ↔ cfg.ReserveFits s ∧ v = cfg.reserve s := by
  have hproduct := cfg.product_nonneg h s (cfg.bExponent + 1)
  have hn : (0 : Int) < (cfg.bExponent + 1 : Nat) := Int.natCast_pos.mpr cfg.bExponent.succ_pos
  have hpart := Int.ediv_nonneg hproduct hn.le
  constructor
  · intro hok
    simp only [integralAt, bind_eq_ok, arith_eq_ok, checkedMul_eq_some, checkedDiv_eq_some,
      checkedAdd_eq_some] at hok
    obtain ⟨_, ⟨hp, rfl⟩, _, ⟨-, -, rfl⟩, _, ⟨-, -, rfl⟩, _, ⟨hb, rfl⟩, hsum, rfl⟩ := hok
    rw [Int.tdiv_eq_ediv_of_nonneg hproduct, Int.tdiv_eq_ediv_of_nonneg hpart] at hsum ⊢
    exact ⟨⟨hp, hb, hsum⟩, rfl⟩
  · rintro ⟨hf, rfl⟩
    have hfit : Fits (cfg.aScaled * integerPow s (cfg.bExponent + 1) /
        (cfg.bExponent + 1 : Nat)) := hf.product.of_le hpart (Int.ediv_le_self _ hproduct)
    rw [integralAt, arith_checkedMul hf.product, ok_bind, arith_checkedDiv hf.product hproduct hn,
      ok_bind, arith_checkedDiv hfit hpart (by decide), ok_bind, arith_checkedMul hf.base, ok_bind]
    exact arith_checkedAdd hf.sum

/-- An order costs the difference of the integrals, and is never negative. -/
theorem bondingCurveIntegralCost_eq_ok (h : cfg.Accepted) :
    bondingCurveIntegralCost cfg s q = .ok v ↔
      q ≤ s ∧ (q = 0 ∨ cfg.ReserveFits s) ∧ v = cfg.reserve s - cfg.reserve (s - q) := by
  rw [bondingCurveIntegralCost]
  split
  next hq =>
    rw [pure_eq_ok, hq, Nat.sub_zero, sub_self]
    exact ⟨fun hv => ⟨s.zero_le, .inl rfl, hv.symm⟩, fun hv => hv.2.2.symm⟩
  next hq =>
    split
    next hlt =>
      have : ¬ q ≤ s := Nat.not_le.mpr hlt
      simp [this]
    next hle =>
      have hb : cfg.bExponent + 1 < 2 ^ 32 := by
        have := h.b_le
        unfold maxExponent at this
        omega
      have hmono := cfg.reserve_mono h (Nat.sub_le s q)
      have h0 := cfg.reserve_nonneg h (s - q)
      simp only [bind_eq_ok, arith_eq_ok, checkedAddNat_eq_some, checkedSub_eq_some, ensure_eq_ok,
        pure_eq_ok]
      constructor
      · rintro ⟨_, ⟨-, rfl⟩, _, hs, _, he, _, ⟨-, rfl⟩, _, -, rfl⟩
        obtain ⟨hf, rfl⟩ := (integralAt_eq_ok h).mp hs
        obtain ⟨-, rfl⟩ := (integralAt_eq_ok h).mp he
        exact ⟨Nat.not_lt.mp hle, .inr hf, rfl⟩
      · rintro ⟨hqs, hf, rfl⟩
        have hf := hf.resolve_left hq
        refine ⟨_, ⟨hb, rfl⟩, _, (integralAt_eq_ok h).mpr ⟨hf, rfl⟩, _,
          (integralAt_eq_ok h).mpr ⟨hf.mono h (Nat.sub_le s q), rfl⟩, _, ⟨?_, rfl⟩, (), ?_, rfl⟩
        · exact hf.sum.of_le (by omega) (by omega)
        · omega

/-- The call was stopped by an overflow check. -/
def Overflows {α : Type} (x : Tx α) : Prop := x = .error (.panic "attempt to overflow")

/-- The call returns unless an overflow check stops it. -/
def Computes {α : Type} (x : Tx α) : Prop := (∃ a, x = .ok a) ∨ Overflows x

theorem Computes.arith {α : Type} (o : Option α) : Computes (arith o) := by
  cases o with
  | none => exact .inr rfl
  | some a => exact .inl ⟨a, rfl⟩

theorem Computes.bind {α β : Type} {x : Tx α} {f : α → Tx β} (hx : Computes x)
    (hf : ∀ a, x = .ok a → Computes (f a)) : Computes (x >>= f) := by
  rcases hx with ⟨a, rfl⟩ | rfl
  · exact hf a rfl
  · exact .inr rfl

theorem Computes.isOk {α : Type} {x : Tx α} (hx : Computes x) (h : ¬ Overflows x) :
    ∃ a, x = .ok a :=
  hx.resolve_right h

theorem bondingCurvePrice_computes (cfg : BondingCurveConfig) (s : Nat) :
    Computes (bondingCurvePrice cfg s) :=
  (Computes.arith _).bind fun _ _ => (Computes.arith _).bind fun _ _ => .arith _

theorem integralAt_computes (cfg : BondingCurveConfig) (n s : Nat) :
    Computes (integralAt cfg n s) :=
  (Computes.arith _).bind fun _ _ => (Computes.arith _).bind fun _ _ =>
    (Computes.arith _).bind fun _ _ => (Computes.arith _).bind fun _ _ => .arith _

theorem bondingCurveIntegralCost_computes (h : cfg.Accepted) (hq : q ≤ s) :
    Computes (bondingCurveIntegralCost cfg s q) := by
  rw [bondingCurveIntegralCost]
  split
  · exact .inl ⟨0, rfl⟩
  rw [if_neg (Nat.not_lt.mpr hq)]
  refine (Computes.arith _).bind fun n hn => (integralAt_computes cfg n s).bind fun _ hs =>
    (integralAt_computes cfg n (s - q)).bind fun _ he => (Computes.arith _).bind fun cost hc => ?_
  obtain ⟨-, rfl⟩ := checkedAddNat_eq_some.mp (arith_eq_ok.mp hn)
  obtain ⟨-, rfl⟩ := (integralAt_eq_ok h).mp hs
  obtain ⟨-, rfl⟩ := (integralAt_eq_ok h).mp he
  obtain ⟨-, rfl⟩ := checkedSub_eq_some.mp (arith_eq_ok.mp hc)
  -- the integral does not fall, so the check passes
  have hmono := cfg.reserve_mono h (Nat.sub_le s q)
  rw [ensure, if_pos (by omega)]
  exact .inl ⟨_, rfl⟩

/-- The error of a negative cost is not met at any supply and quantity. -/
theorem cost_ne_arithmeticError (h : cfg.Accepted) (s q : Nat) :
    bondingCurveIntegralCost cfg s q ≠ .error (.error .arithmeticError) := by
  intro heq
  rcases Nat.lt_or_ge s q with hlt | hge
  · rw [bondingCurveIntegralCost, if_neg (by omega), if_pos hlt] at heq
    cases heq
  · rcases bondingCurveIntegralCost_computes h hge with ⟨_, hok⟩ | hover
    · rw [hok] at heq
      cases heq
    · rw [Overflows, heq] at hover
      cases hover

end Spec

/-! ## Splitting orders -/

/-- What a sequence of orders costs, each at the supply that the ones before it left. -/
def totalPaid (cfg : BondingCurveConfig) : Nat → List Nat → Tx Int
  | _, [] => pure 0
  | s, q :: orders => do
    let cost ← bondingCurveIntegralCost cfg s q
    let rest ← totalPaid cfg (s - q) orders
    return cost + rest

section Splitting

variable {cfg : BondingCurveConfig} {s q1 q2 : Nat} {v : Int}

theorem cost_add (h : cfg.Accepted) (hq : q1 + q2 ≤ s) :
    bondingCurveIntegralCost cfg s (q1 + q2) = .ok v ↔
      ∃ c1 c2, bondingCurveIntegralCost cfg s q1 = .ok c1 ∧
        bondingCurveIntegralCost cfg (s - q1) q2 = .ok c2 ∧ v = c1 + c2 := by
  simp only [bondingCurveIntegralCost_eq_ok h, Nat.sub_sub]
  constructor
  · rintro ⟨-, hf, rfl⟩
    refine ⟨_, _, ⟨by omega, ?_, rfl⟩, ⟨by omega, ?_, rfl⟩, by omega⟩
    · exact hf.imp_left fun h0 => by omega
    · exact hf.imp (fun h0 => by omega) fun hf => hf.mono h (Nat.sub_le s q1)
  · rintro ⟨_, _, ⟨-, hf1, rfl⟩, ⟨-, hf2, rfl⟩, rfl⟩
    refine ⟨hq, ?_, by omega⟩
    rcases hf1 with rfl | hf1
    · simpa using hf2
    · exact .inr hf1

theorem totalPaid_eq_ok (h : cfg.Accepted) {orders : List Nat} (hsum : orders.sum ≤ s) :
    totalPaid cfg s orders = .ok v ↔ bondingCurveIntegralCost cfg s orders.sum = .ok v := by
  induction orders generalizing s v with
  | nil => simp [totalPaid, bondingCurveIntegralCost]
  | cons q orders ih =>
    rw [List.sum_cons] at hsum
    rw [List.sum_cons, cost_add h hsum]
    simp only [totalPaid, bind_eq_ok, pure_eq_ok]
    have hrest : orders.sum ≤ s - q := by omega
    constructor
    · rintro ⟨c1, h1, c2, h2, rfl⟩
      exact ⟨c1, c2, h1, (ih hrest).mp h2, rfl⟩
    · rintro ⟨c1, c2, h1, h2, rfl⟩
      exact ⟨c1, h1, c2, (ih hrest).mpr h2, rfl⟩

end Splitting

/-- **Orders can be split.** An order costs what its two parts cost one after the other, to the
stroop and with the same overflows, so a sequence of orders costs what one order for all its
tickets costs. -/
theorem order_splitting (cfg : BondingCurveConfig)
    (hvalid : validateBondingCurveConfig cfg = .ok ()) (s : Nat) :
    (∀ q1 q2 v, q1 + q2 ≤ s →
      (bondingCurveIntegralCost cfg s (q1 + q2) = .ok v ↔
        ∃ c1 c2, bondingCurveIntegralCost cfg s q1 = .ok c1 ∧
          bondingCurveIntegralCost cfg (s - q1) q2 = .ok c2 ∧ v = c1 + c2)) ∧
      ∀ orders v, orders.sum ≤ s →
        (totalPaid cfg s orders = .ok v ↔
          bondingCurveIntegralCost cfg s orders.sum = .ok v) := by
  have h := validateBondingCurveConfig_eq_ok hvalid
  exact ⟨fun q1 q2 v hq => cost_add h hq, fun orders v hsum => totalPaid_eq_ok h hsum⟩

namespace Sample

/-- A quadratic curve with a base price, for a hundred tickets. -/
def quadratic : BondingCurveConfig := ⟨2500000, 2, 70, 100⟩

end Sample

/-- Three orders for ten of forty tickets. -/
theorem order_splitting_quadratic :
    totalPaid Sample.quadratic 40 [3, 0, 7] = .ok 31533 ∧
      bondingCurveIntegralCost Sample.quadratic 40 10 = .ok 31533 := by
  have hcost : bondingCurveIntegralCost Sample.quadratic 40 10 = .ok 31533 := by decide
  exact ⟨((order_splitting Sample.quadratic (by decide) 40).2 [3, 0, 7] _ (by decide)).mpr hcost,
    hcost⟩

/-! ## The exact curve -/

namespace BondingCurveConfig

variable {cfg : BondingCurveConfig} {s t : Nat}

/-- The price at `s` in exact integers. -/
def price (cfg : BondingCurveConfig) (s : Nat) : Int :=
  cfg.aScaled * (s : Int) ^ cfg.bExponent / paramScale + cfg.cBase

/-- The integral from zero to `s` in exact integers. -/
def integral (cfg : BondingCurveConfig) (s : Nat) : Int :=
  cfg.aScaled * (s : Int) ^ (cfg.bExponent + 1) / (cfg.bExponent + 1 : Nat) / paramScale +
    cfg.cBase * s

/-- The price and the integral at `s` are in range, and the product before its divisions. -/
structure InRange (cfg : BondingCurveConfig) (s : Nat) : Prop where
  product : cfg.aScaled * (s : Int) ^ (cfg.bExponent + 1) < 2 ^ 127
  integral : cfg.integral s < 2 ^ 127
  price : cfg.price s < 2 ^ 127

theorem pow_mono (hst : s ≤ t) (n : Nat) : (s : Int) ^ n ≤ (t : Int) ^ n :=
  pow_le_pow_left₀ s.cast_nonneg (Int.ofNat_le.mpr hst) n

theorem scaled_pow_nonneg (h : cfg.Accepted) (s n : Nat) : 0 ≤ cfg.aScaled * (s : Int) ^ n :=
  mul_nonneg h.a_pos.le (pow_nonneg s.cast_nonneg n)

theorem scaled_pow_mono (h : cfg.Accepted) (hst : s ≤ t) (n : Nat) :
    cfg.aScaled * (s : Int) ^ n ≤ cfg.aScaled * (t : Int) ^ n :=
  mul_le_mul_of_nonneg_left (pow_mono hst n) h.a_pos.le

theorem price_mono (h : cfg.Accepted) (hst : s ≤ t) : cfg.price s ≤ cfg.price t :=
  add_le_add_left (Int.ediv_le_ediv (by decide) (scaled_pow_mono h hst _)) _

theorem price_zero (h : cfg.Accepted) : cfg.price 0 = cfg.cBase := by
  rw [price, Nat.cast_zero, zero_pow h.b_pos.ne', mul_zero, Int.zero_ediv, zero_add]

theorem integral_mono (h : cfg.Accepted) (hst : s ≤ t) : cfg.integral s ≤ cfg.integral t := by
  have hpart := Int.ediv_le_ediv (Int.natCast_pos.mpr cfg.bExponent.succ_pos)
    (scaled_pow_mono h hst (cfg.bExponent + 1))
  exact add_le_add (Int.ediv_le_ediv (by decide) hpart) (base_mono h hst)

theorem InRange.mono (hr : cfg.InRange t) (h : cfg.Accepted) (hst : s ≤ t) : cfg.InRange s where
  product := (scaled_pow_mono h hst _).trans_lt hr.product
  integral := (integral_mono h hst).trans_lt hr.integral
  price := (price_mono h hst).trans_lt hr.price

theorem fits_of_nonneg {x : Int} (h0 : 0 ≤ x) (h : x < 2 ^ 127) : Fits x := by
  unfold Fits
  omega

theorem InRange.product_fits (hr : cfg.InRange s) (h : cfg.Accepted) :
    Fits (cfg.aScaled * (s : Int) ^ (cfg.bExponent + 1)) :=
  fits_of_nonneg (scaled_pow_nonneg h s _) hr.product

/-- The power itself is in range, since the coefficient is at least one. -/
theorem InRange.pow_fits (hr : cfg.InRange s) (h : cfg.Accepted) :
    Fits ((s : Int) ^ (cfg.bExponent + 1)) := by
  have h0 := pow_nonneg (Int.natCast_nonneg s) (cfg.bExponent + 1)
  exact (hr.product_fits h).of_le h0 (le_mul_of_one_le_left h0 h.a_pos)

theorem pow_le_succ (h : cfg.Accepted) (s : Nat) :
    (s : Int) ^ cfg.bExponent ≤ (s : Int) ^ (cfg.bExponent + 1) := by
  rcases Nat.eq_zero_or_pos s with rfl | hs
  · rw [Nat.cast_zero, zero_pow h.b_pos.ne', zero_pow (Nat.succ_ne_zero _)]
  · exact pow_le_pow_right₀ (by exact_mod_cast hs) (Nat.le_succ _)

theorem InRange.exact (hr : cfg.InRange s) (h : cfg.Accepted) :
    integerPow s cfg.bExponent = (s : Int) ^ cfg.bExponent ∧
      integerPow s (cfg.bExponent + 1) = (s : Int) ^ (cfg.bExponent + 1) := by
  have hs := Int.natCast_nonneg s
  have hfit := hr.pow_fits h
  exact ⟨integerPow_of_fits hs (hfit.of_le (pow_nonneg hs _) (pow_le_succ h s)),
    integerPow_of_fits hs hfit⟩

theorem reserve_eq (hpow : integerPow s (cfg.bExponent + 1) = (s : Int) ^ (cfg.bExponent + 1)) :
    cfg.reserve s = cfg.integral s := by
  rw [reserve, integral, hpow]

theorem InRange.reserve_eq (hr : cfg.InRange s) (h : cfg.Accepted) :
    cfg.reserve s = cfg.integral s :=
  cfg.reserve_eq (hr.exact h).2

theorem InRange.reserveFits (hr : cfg.InRange s) (h : cfg.Accepted) : cfg.ReserveFits s := by
  have hsum : Fits (cfg.reserve s) := by
    refine fits_of_nonneg (cfg.reserve_nonneg h s) ?_
    rw [hr.reserve_eq h]
    exact hr.integral
  have hpart : 0 ≤ cfg.reserve s - cfg.cBase * s := by
    have := Int.ediv_nonneg (cfg.product_nonneg h s (cfg.bExponent + 1))
      (Int.natCast_nonneg (cfg.bExponent + 1))
    have := Int.ediv_nonneg this (by decide : 0 ≤ paramScale)
    unfold reserve
    omega
  refine ⟨?_, hsum.of_le (cfg.base_nonneg h s) (by omega), hsum⟩
  rw [(hr.exact h).2]
  exact hr.product_fits h

end BondingCurveConfig

section Exact

variable {cfg : BondingCurveConfig} {s t q : Nat} {v : Int}

theorem bondingCurvePrice_eq (hr : cfg.InRange s) (h : cfg.Accepted) :
    bondingCurvePrice cfg s = .ok (cfg.price s) := by
  have h0 := cfg.scaled_pow_nonneg h s cfg.bExponent
  have hproduct : Fits (cfg.aScaled * (s : Int) ^ cfg.bExponent) :=
    (hr.product_fits h).of_le h0 (mul_le_mul_of_nonneg_left (cfg.pow_le_succ h s) h.a_pos.le)
  have hprice : Fits (cfg.price s) :=
    BondingCurveConfig.fits_of_nonneg (add_nonneg (Int.ediv_nonneg h0 (by decide)) h.c_nonneg) hr.price
  rw [bondingCurvePrice, (hr.exact h).1, arith_checkedMul hproduct, ok_bind,
    arith_checkedDiv hproduct h0 (by decide), ok_bind]
  exact arith_checkedAdd hprice

theorem bondingCurveIntegralCost_eq (hr : cfg.InRange s) (h : cfg.Accepted) (hq : q ≤ s) :
    bondingCurveIntegralCost cfg s q = .ok (cfg.integral s - cfg.integral (s - q)) := by
  rw [bondingCurveIntegralCost_eq_ok h, hr.reserve_eq h,
    (hr.mono h (Nat.sub_le s q)).reserve_eq h]
  exact ⟨hq, .inr (hr.reserveFits h), rfl⟩

/-! ## Prices and integral -/

/-- The step of the power between the slopes at its two ends. -/
theorem pow_succ_step {x : Int} (hx : 0 ≤ x) (b : Nat) :
    (b + 1 : Nat) * x ^ b ≤ (x + 1) ^ (b + 1) - x ^ (b + 1) ∧
      (x + 1) ^ (b + 1) - x ^ (b + 1) ≤ (b + 1 : Nat) * (x + 1) ^ b := by
  induction b with
  | zero => simp
  | succ b ih =>
    have hstep : (x + 1) ^ (b + 2) - x ^ (b + 2) =
        (x + 1) * ((x + 1) ^ (b + 1) - x ^ (b + 1)) + x ^ (b + 1) := by ring
    have hpow : x ^ (b + 1) ≤ (x + 1) ^ (b + 1) := pow_le_pow_left₀ hx (by omega) _
    have hdiff : 0 ≤ (x + 1) ^ (b + 1) - x ^ (b + 1) := sub_nonneg.mpr hpow
    rw [hstep]
    constructor
    · calc (b + 1 + 1 : Nat) * x ^ (b + 1)
          = x * ((b + 1 : Nat) * x ^ b) + x ^ (b + 1) := by push_cast; ring
        _ ≤ x * ((x + 1) ^ (b + 1) - x ^ (b + 1)) + x ^ (b + 1) := by
            have := mul_le_mul_of_nonneg_left ih.1 hx
            omega
        _ ≤ _ := by
            have := mul_le_mul_of_nonneg_right (show x ≤ x + 1 by omega) hdiff
            omega
    · calc (x + 1) * ((x + 1) ^ (b + 1) - x ^ (b + 1)) + x ^ (b + 1)
          ≤ (x + 1) * ((b + 1 : Nat) * (x + 1) ^ b) + (x + 1) ^ (b + 1) := by
            have := mul_le_mul_of_nonneg_left ih.2 (show 0 ≤ x + 1 by omega)
            omega
        _ = _ := by push_cast; ring

/-- A quotient grows by at most the quotient of what is added and one. -/
theorem add_ediv_le {x y d : Int} (hd : 0 < d) : (x + y) / d ≤ x / d + y / d + 1 := by
  rw [Int.add_ediv_of_pos hd]
  split <;> omega

theorem integral_eq (cfg : BondingCurveConfig) (s : Nat) : cfg.integral s =
    cfg.aScaled * (s : Int) ^ (cfg.bExponent + 1) / ((cfg.bExponent + 1 : Nat) * paramScale) +
      cfg.cBase * s := by
  rw [BondingCurveConfig.integral, Int.ediv_ediv_of_nonneg (Int.natCast_nonneg _)]

/-- One ticket more costs between the prices before and after it, up to a stroop. -/
theorem integral_step (h : cfg.Accepted) (k : Nat) :
    cfg.price k ≤ cfg.integral (k + 1) - cfg.integral k ∧
      cfg.integral (k + 1) - cfg.integral k ≤ cfg.price (k + 1) + 1 := by
  obtain ⟨hlow, hhigh⟩ := pow_succ_step (Int.natCast_nonneg k) cfg.bExponent
  have hn : (0 : Int) < (cfg.bExponent + 1 : Nat) := Int.natCast_pos.mpr cfg.bExponent.succ_pos
  have hd : 0 < ((cfg.bExponent + 1 : Nat) : Int) * paramScale := mul_pos hn (by decide)
  have hprice : ∀ j : Nat, cfg.aScaled * ((cfg.bExponent + 1 : Nat) * (j : Int) ^ cfg.bExponent) /
      ((cfg.bExponent + 1 : Nat) * paramScale) = cfg.price j - cfg.cBase := by
    intro j
    rw [mul_left_comm, Int.mul_ediv_mul_of_pos _ _ hn, BondingCurveConfig.price, add_sub_cancel_right]
  have hcast : ((k + 1 : Nat) : Int) = (k : Int) + 1 := Nat.cast_succ k
  rw [integral_eq, integral_eq]
  have hbase : cfg.cBase * ((k + 1 : Nat) : Int) = cfg.cBase * k + cfg.cBase := by
    rw [hcast, mul_add, mul_one]
  constructor
  · have hle := mul_le_mul_of_nonneg_left hlow h.a_pos.le
    rw [mul_sub, ← hcast] at hle
    have hadd := Int.ediv_add_ediv_le_add_ediv hd
      (x := cfg.aScaled * (k : Int) ^ (cfg.bExponent + 1))
      (y := cfg.aScaled * ((cfg.bExponent + 1 : Nat) * (k : Int) ^ cfg.bExponent))
    have hdiv := Int.ediv_le_ediv hd (show
      cfg.aScaled * (k : Int) ^ (cfg.bExponent + 1) +
          cfg.aScaled * ((cfg.bExponent + 1 : Nat) * (k : Int) ^ cfg.bExponent) ≤
        cfg.aScaled * ((k + 1 : Nat) : Int) ^ (cfg.bExponent + 1) by omega)
    have hk := hprice k
    omega
  · have hle := mul_le_mul_of_nonneg_left hhigh h.a_pos.le
    rw [mul_sub, ← hcast] at hle
    have hadd := add_ediv_le hd
      (x := cfg.aScaled * (k : Int) ^ (cfg.bExponent + 1))
      (y := cfg.aScaled * ((cfg.bExponent + 1 : Nat) * ((k + 1 : Nat) : Int) ^ cfg.bExponent))
    have hdiv := Int.ediv_le_ediv hd (show
      cfg.aScaled * ((k + 1 : Nat) : Int) ^ (cfg.bExponent + 1) ≤
        cfg.aScaled * (k : Int) ^ (cfg.bExponent + 1) +
          cfg.aScaled * ((cfg.bExponent + 1 : Nat) * ((k + 1 : Nat) : Int) ^ cfg.bExponent) by
      omega)
    have hk := hprice (k + 1)
    omega

theorem integral_sub_bounds (h : cfg.Accepted) {m s : Nat} (hms : m ≤ s) :
    ∑ k ∈ Finset.Ico m s, cfg.price k ≤ cfg.integral s - cfg.integral m ∧
      cfg.integral s - cfg.integral m ≤
        ∑ k ∈ Finset.Ico (m + 1) (s + 1), cfg.price k + (s - m : Nat) := by
  induction s, hms using Nat.le_induction with
  | base => simp
  | succ s hms ih =>
    obtain ⟨hlow, hhigh⟩ := integral_step h s
    rw [Finset.sum_Ico_succ_top hms, Finset.sum_Ico_succ_top (by omega : m + 1 ≤ s + 1)]
    omega

end Exact

/-- **The cost is bracketed by unit prices.** Where the curve stays in range at the supply, the
price is the exact one at every supply up to it, does not fall, starts at the base price, and the
cost of `q` tickets lies between the sum of the prices below each of them, less a stroop, and the
sum of the prices above each, plus a stroop a ticket. A negative cost is never met, whatever the
supply. -/
theorem curve_bracketed (cfg : BondingCurveConfig)
    (hvalid : validateBondingCurveConfig cfg = .ok ()) (s : Nat) :
    (∀ q, bondingCurveIntegralCost cfg s q ≠ .error (.error .arithmeticError)) ∧
      (cfg.InRange s →
        (∀ k ≤ s, bondingCurvePrice cfg k = .ok (cfg.price k)) ∧
        (∀ j k, j ≤ k → k ≤ s → cfg.price j ≤ cfg.price k) ∧ cfg.price 0 = cfg.cBase ∧
        ∀ q ≤ s, ∃ cost, bondingCurveIntegralCost cfg s q = .ok cost ∧
          ∑ k ∈ Finset.Ico (s - q) s, cfg.price k - 1 ≤ cost ∧
          cost ≤ ∑ k ∈ Finset.Ico (s - q + 1) (s + 1), cfg.price k + q) := by
  have h := validateBondingCurveConfig_eq_ok hvalid
  refine ⟨cost_ne_arithmeticError h s, fun hr =>
    ⟨fun k hk => bondingCurvePrice_eq (hr.mono h hk) h, fun j k hjk _ => cfg.price_mono h hjk,
      cfg.price_zero h, fun q hq => ?_⟩⟩
  obtain ⟨hlow, hhigh⟩ := integral_sub_bounds h (Nat.sub_le s q)
  refine ⟨_, bondingCurveIntegralCost_eq hr h hq, by omega, ?_⟩
  rwa [Nat.sub_sub_self hq] at hhigh

theorem curve_bracketed_quadratic : ∃ cost,
    bondingCurveIntegralCost Sample.quadratic 40 2 = .ok cost ∧
      ∑ k ∈ Finset.Ico 38 40, Sample.quadratic.price k - 1 ≤ cost := by
  obtain ⟨-, hall⟩ := curve_bracketed Sample.quadratic (by decide) 40
  obtain ⟨cost, hcost, hlow, -⟩ := (hall ⟨by decide, by decide, by decide⟩).2.2.2 2 (by decide)
  exact ⟨cost, hcost, hlow⟩

/-! ## Overflow -/

section Overflow

variable {cfg : BondingCurveConfig} {s q : Nat} {v : Int}

theorem bondingCurvePrice_eq_ok (h : cfg.Accepted)
    (hpow : integerPow s cfg.bExponent = (s : Int) ^ cfg.bExponent)
    (hok : bondingCurvePrice cfg s = .ok v) : Fits (cfg.price s) := by
  have h0 := cfg.scaled_pow_nonneg h s cfg.bExponent
  simp only [bondingCurvePrice, bind_eq_ok, arith_eq_ok, checkedMul_eq_some, checkedDiv_eq_some,
    checkedAdd_eq_some, hpow] at hok
  obtain ⟨_, ⟨-, rfl⟩, _, ⟨-, -, rfl⟩, hfit, -⟩ := hok
  rwa [Int.tdiv_eq_ediv_of_nonneg h0] at hfit

/-- Where nothing overflows and no power saturates, the curve is in range. -/
theorem inRange_of_computed (h : cfg.Accepted) (hs : 0 < s)
    (hprice : ¬ Overflows (bondingCurvePrice cfg s))
    (hcost : ¬ Overflows (bondingCurveIntegralCost cfg s s))
    (hpow : integerPow s cfg.bExponent = (s : Int) ^ cfg.bExponent)
    (hpow' : integerPow s (cfg.bExponent + 1) = (s : Int) ^ (cfg.bExponent + 1)) :
    cfg.InRange s := by
  obtain ⟨p, hp⟩ := (bondingCurvePrice_computes cfg s).isOk hprice
  obtain ⟨c, hc⟩ := (bondingCurveIntegralCost_computes h le_rfl).isOk hcost
  obtain ⟨-, hfits, -⟩ := (bondingCurveIntegralCost_eq_ok h).mp hc
  obtain ⟨hproduct, -, hsum⟩ := hfits.resolve_left hs.ne'
  rw [hpow'] at hproduct
  rw [cfg.reserve_eq hpow'] at hsum
  exact ⟨hproduct.2, hsum.2, (bondingCurvePrice_eq_ok h hpow hp).2⟩

end Overflow

/-- **When an accepted curve never overflows.** For all supplies and quantities up to the initial
supply no intermediate value of the price or of the cost leaves the range and no power saturates,
exactly when the price, the integral and its product are in range at the initial supply. -/
theorem curve_never_overflows_iff (cfg : BondingCurveConfig)
    (hvalid : validateBondingCurveConfig cfg = .ok ()) :
    (∀ s ≤ cfg.initialSupply, ∀ q ≤ cfg.initialSupply, ¬ Overflows (bondingCurvePrice cfg s) ∧
        ¬ Overflows (bondingCurveIntegralCost cfg s q) ∧
        integerPow s cfg.bExponent = (s : Int) ^ cfg.bExponent ∧
        integerPow s (cfg.bExponent + 1) = (s : Int) ^ (cfg.bExponent + 1)) ↔
      cfg.InRange cfg.initialSupply := by
  have h := validateBondingCurveConfig_eq_ok hvalid
  constructor
  · intro hall
    obtain ⟨hprice, hcost, hpow, hpow'⟩ := hall _ le_rfl _ le_rfl
    exact inRange_of_computed h h.supply_pos hprice hcost hpow hpow'
  · intro hr s hs q _
    have hrs := hr.mono h hs
    refine ⟨fun hover => ?_, fun hover => ?_, hrs.exact h⟩
    · rw [Overflows, bondingCurvePrice_eq hrs h] at hover
      cases hover
    · rcases Nat.lt_or_ge s q with hlt | hge
      · rw [Overflows, bondingCurveIntegralCost, if_neg (by omega), if_pos hlt] at hover
        cases hover
      · rw [Overflows, bondingCurveIntegralCost_eq hrs h hge] at hover
        cases hover

theorem curve_never_overflows_quadratic :
    ¬ Overflows (bondingCurveIntegralCost Sample.quadratic 100 100) :=
  ((curve_never_overflows_iff Sample.quadratic (by decide)).mpr
    ⟨by decide, by decide, by decide⟩ 100 (by decide) 100 (by decide)).2.1

namespace Sample

/-- A quartic curve with the coefficient one, for a hundred million tickets. -/
def quartic : BondingCurveConfig := ⟨1000000, 4, 0, 100000000⟩

end Sample

/-- The curve is accepted, and its first ticket cannot be sold: the power saturates and the product
with the coefficient overflows. -/
theorem curve_overflows_quartic :
    validateBondingCurveConfig Sample.quartic = .ok () ∧
      Overflows (bondingCurveIntegralCost Sample.quartic 100000000 1) ∧
      integerPow 100000000 5 ≠ 100000000 ^ 5 :=
  ⟨by decide, by unfold Overflows; decide, by decide⟩

end Agora.TicketPayment
