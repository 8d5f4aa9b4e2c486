import Agora.TicketPayment.DutchAuction
import Mathlib.Tactic.LinearCombination
import Mathlib.Tactic.Ring

/-!
# Dutch auction prices

`validate_dutch_auction_config` of `auction.rs`, and what the two price curves
do between the ends of an auction. Above the reserve the linear price is the
spread's share of the time that remains, rounded up; the exponential one is its
share `2f - f²`, rounded down, where `f` is the remaining share of the time in
whole millionths.
-/

namespace Agora.TicketPayment

open Lib

variable {host : Host}

def validateDutchAuctionConfig (env : Env host) (cfg : DutchAuctionConfig) : Tx Unit := do
  ensure (0 < cfg.reservePrice) (.error .invalidPrice)
  ensure (cfg.reservePrice < cfg.startPrice) (.error .invalidPrice)
  ensure (cfg.startTime < cfg.endTime) (.error .invalidPrice)
  ensure (env.timestamp < cfg.endTime) (.error .auctionEnded)

namespace DutchAuctionConfig

variable (cfg : DutchAuctionConfig)

/-- The fields hold values of their types: `i128` prices and `u64` times. -/
structure Typed : Prop where
  startPrice : Fits cfg.startPrice
  reservePrice : Fits cfg.reservePrice
  startTime : cfg.startTime < 2 ^ 64
  endTime : cfg.endTime < 2 ^ 64

/-- What an accepted configuration promises whenever it is read. -/
structure Accepted : Prop where
  reserve_pos : 0 < cfg.reservePrice
  reserve_lt : cfg.reservePrice < cfg.startPrice
  start_lt : cfg.startTime < cfg.endTime

def spread : Int := cfg.startPrice - cfg.reservePrice

def total : Int := (cfg.endTime - cfg.startTime : Nat)

def elapsed (now : Nat) : Int := (now - cfg.startTime : Nat)

def remaining (now : Nat) : Int := cfg.total - cfg.elapsed now

/-- The whole millionths of the auction that remain. -/
def millionths (now : Nat) : Int := cfg.remaining now * dutchScale / cfg.total

/-- The time is between the ends of the auction. -/
def Running (now : Nat) : Prop := cfg.startTime < now ∧ now < cfg.endTime

end DutchAuctionConfig

/-- What `2f - f²` is above `f`, in millionths. -/
def dutchLead (f : Int) : Int := f - f * f / dutchScale

/-- The share `2f - f²`, in millionths. -/
def dutchFactor (f : Int) : Int := f + dutchLead f

theorem validateDutchAuctionConfig_eq_ok {env : Env host} {cfg : DutchAuctionConfig} {u : Unit}
    (h : validateDutchAuctionConfig env cfg = .ok u) : cfg.Accepted := by
  simp only [validateDutchAuctionConfig, bind_eq_ok, ensure_eq_ok] at h
  obtain ⟨_, hpos, _, hlt, _, htime, -⟩ := h
  exact ⟨hpos, hlt, htime⟩

/-! ## The factor -/

/-- The factor does not fall on the whole range of `f`: a step up adds at most
twice its length to the square. -/
theorem dutchFactor_mono {f g : Int} (hfg : f ≤ g) (hg : g ≤ dutchScale) :
    dutchFactor f ≤ dutchFactor g := by
  have hsquare : g * g ≤ f * f + 2 * (g - f) * dutchScale := by
    nlinarith [mul_nonneg (sub_nonneg.mpr hfg) (sub_nonneg.mpr (hfg.trans hg))]
  have hdiv : g * g / dutchScale ≤ f * f / dutchScale + 2 * (g - f) := by
    rw [← Int.add_mul_ediv_right _ _ (by decide : dutchScale ≠ 0)]
    exact Int.ediv_le_ediv (by decide) hsquare
  unfold dutchFactor dutchLead
  omega

theorem dutchFactor_bounds {f : Int} (hf : 0 ≤ f) (hscale : f ≤ dutchScale) :
    0 ≤ dutchFactor f ∧ dutchFactor f ≤ dutchScale :=
  ⟨dutchFactor_mono hf hscale, dutchFactor_mono hscale le_rfl⟩

namespace DutchAuctionConfig

variable {cfg : DutchAuctionConfig} {now t1 t2 : Nat}

theorem Accepted.spread_pos (h : cfg.Accepted) : 0 < cfg.spread := by
  have := h.reserve_lt
  unfold spread
  omega

theorem Accepted.total_pos (h : cfg.Accepted) : 0 < cfg.total := by
  have := h.start_lt
  unfold total
  omega

theorem Running.elapsed_pos (h : cfg.Running now) : 0 < cfg.elapsed now := by
  have := h.1
  unfold elapsed
  omega

theorem Running.remaining_pos (h : cfg.Running now) : 0 < cfg.remaining now := by
  have := h.1
  have := h.2
  unfold remaining total elapsed
  omega

theorem Running.elapsed_le (h : cfg.Running now) : cfg.elapsed now ≤ cfg.total := by
  have := h.remaining_pos
  unfold remaining at this
  omega

theorem Accepted.spread_fits (h : cfg.Accepted) (ht : cfg.Typed) : Fits cfg.spread := by
  have := h.reserve_pos
  have := h.reserve_lt
  refine ht.startPrice.of_le h.spread_pos.le ?_
  unfold spread
  omega

theorem Running.remaining_fits (h : cfg.Running now) (ht : cfg.Typed) :
    Fits (cfg.remaining now) := by
  have := h.remaining_pos
  have := h.elapsed_pos
  have := ht.endTime
  unfold Fits remaining total at *
  omega

theorem Running.scaled_fits (h : cfg.Running now) (ht : cfg.Typed) :
    Fits (cfg.remaining now * dutchScale) := by
  have := h.remaining_pos
  have := h.elapsed_pos
  have := ht.endTime
  unfold Fits dutchScale remaining total at *
  omega

theorem elapsed_mono (h : t1 ≤ t2) : cfg.elapsed t1 ≤ cfg.elapsed t2 := by
  unfold elapsed
  omega

theorem Accepted.millionths_mono (h : cfg.Accepted) (h12 : t1 ≤ t2) :
    cfg.millionths t2 ≤ cfg.millionths t1 := by
  have hmono := cfg.elapsed_mono h12
  refine Int.ediv_le_ediv h.total_pos ?_
  refine Int.mul_le_mul_of_nonneg_right ?_ (by decide)
  unfold remaining
  omega

theorem Running.millionths_bounds (h : cfg.Running now) (hacc : cfg.Accepted) :
    0 ≤ cfg.millionths now ∧ cfg.millionths now ≤ dutchScale := by
  have helapsed := h.elapsed_pos
  refine ⟨Int.ediv_nonneg (mul_nonneg h.remaining_pos.le (by decide)) hacc.total_pos.le, ?_⟩
  refine Int.ediv_le_of_le_mul hacc.total_pos ?_
  rw [mul_comm dutchScale]
  refine Int.mul_le_mul_of_nonneg_right ?_ (by decide)
  unfold remaining
  omega

theorem Running.drop_bounds (h : cfg.Running now) (hacc : cfg.Accepted) :
    0 ≤ cfg.elapsed now * cfg.spread / cfg.total ∧
      cfg.elapsed now * cfg.spread / cfg.total ≤ cfg.spread := by
  have hspread := hacc.spread_pos.le
  refine ⟨Int.ediv_nonneg (mul_nonneg h.elapsed_pos.le hspread) hacc.total_pos.le, ?_⟩
  refine Int.ediv_le_of_le_mul hacc.total_pos ?_
  rw [mul_comm]
  exact mul_le_mul_of_nonneg_left h.elapsed_le hspread

/-- The exponential price is at most the spread above the reserve. -/
theorem Running.above_bounds (h : cfg.Running now) (hacc : cfg.Accepted) :
    0 ≤ cfg.spread * dutchFactor (cfg.millionths now) / dutchScale ∧
      cfg.spread * dutchFactor (cfg.millionths now) / dutchScale ≤ cfg.spread := by
  have hspread := hacc.spread_pos.le
  have hf := h.millionths_bounds hacc
  have hfactor := dutchFactor_bounds hf.1 hf.2
  refine ⟨Int.ediv_nonneg (mul_nonneg hspread hfactor.1) (by decide), ?_⟩
  refine Int.ediv_le_of_le_mul (by decide) ?_
  exact mul_le_mul_of_nonneg_left hfactor.2 hspread

end DutchAuctionConfig

/-! ## Both curves in closed form -/

section ClosedForms

variable {cfg : DutchAuctionConfig} {now : Nat}

theorem currentDutchPriceLinear_eq (hacc : cfg.Accepted) (ht : cfg.Typed)
    (hrun : cfg.Running now) (hfit : Fits (cfg.elapsed now * cfg.spread)) :
    currentDutchPriceLinear cfg now =
      .ok (cfg.startPrice - cfg.elapsed now * cfg.spread / cfg.total) := by
  have hprod : 0 ≤ cfg.elapsed now * cfg.spread :=
    mul_nonneg hrun.elapsed_pos.le hacc.spread_pos.le
  have hdrop := hrun.drop_bounds hacc
  have hprice : Fits (cfg.startPrice - cfg.elapsed now * cfg.spread / cfg.total) := by
    have := hacc.reserve_pos
    refine ht.startPrice.of_le ?_ (by omega)
    unfold DutchAuctionConfig.spread at hdrop ⊢
    omega
  rw [currentDutchPriceLinear, if_neg (Nat.not_le.mpr hrun.2), if_neg (Nat.not_le.mpr hrun.1)]
  change (arith (checkedSub cfg.startPrice cfg.reservePrice) >>= fun spread =>
    arith (checkedMul (cfg.elapsed now) spread) >>= fun product =>
    arith (checkedDiv product cfg.total) >>= fun drop =>
    arith (checkedSub cfg.startPrice drop)) = _
  rw [arith_checkedSub (hacc.spread_fits ht), ok_bind]
  change (arith (checkedMul (cfg.elapsed now) cfg.spread) >>= _) = _
  rw [arith_checkedMul hfit, ok_bind, arith_checkedDiv hfit hprod hacc.total_pos, ok_bind]
  exact arith_checkedSub hprice

theorem currentDutchPriceExponential_eq (hacc : cfg.Accepted) (ht : cfg.Typed)
    (hrun : cfg.Running now)
    (hfit : Fits (cfg.spread * dutchFactor (cfg.millionths now))) :
    currentDutchPriceExponential cfg now =
      .ok (cfg.reservePrice + cfg.spread * dutchFactor (cfg.millionths now) / dutchScale) := by
  have hf := hrun.millionths_bounds hacc
  have hfactor := dutchFactor_bounds hf.1 hf.2
  have habove := hrun.above_bounds hacc
  have hremaining : Fits (cfg.remaining now) := hrun.remaining_fits ht
  have hscaled : Fits (cfg.remaining now * dutchScale) := hrun.scaled_fits ht
  have hscaled0 : 0 ≤ cfg.remaining now * dutchScale :=
    mul_nonneg hrun.remaining_pos.le (by decide)
  have hsmall : Fits (2 * dutchScale * dutchScale) := by decide
  have hdouble : Fits (2 * cfg.millionths now) := by
    refine hsmall.of_le (by omega) ?_
    nlinarith [hf.2, (by decide : 1 ≤ dutchScale)]
  have hsquare0 : 0 ≤ cfg.millionths now * cfg.millionths now := mul_nonneg hf.1 hf.1
  have hsquare : Fits (cfg.millionths now * cfg.millionths now) := by
    refine hsmall.of_le hsquare0 ?_
    nlinarith [hf.1, hf.2]
  have heq : dutchFactor (cfg.millionths now) = 2 * cfg.millionths now -
      cfg.millionths now * cfg.millionths now / dutchScale := by
    unfold dutchFactor dutchLead
    omega
  have hsub : Fits (2 * cfg.millionths now -
      cfg.millionths now * cfg.millionths now / dutchScale) := by
    rw [← heq]
    exact hsmall.of_le hfactor.1 (hfactor.2.trans (by decide))
  have hprod : 0 ≤ cfg.spread * dutchFactor (cfg.millionths now) :=
    mul_nonneg hacc.spread_pos.le hfactor.1
  have hprice : Fits (cfg.reservePrice +
      cfg.spread * dutchFactor (cfg.millionths now) / dutchScale) := by
    have := hacc.reserve_pos
    refine ht.startPrice.of_le (by omega) ?_
    unfold DutchAuctionConfig.spread at habove ⊢
    omega
  rw [currentDutchPriceExponential, if_neg (Nat.not_le.mpr hrun.2),
    if_neg (Nat.not_le.mpr hrun.1)]
  change (arith (checkedSub cfg.total (cfg.elapsed now)) >>= fun remaining =>
    arith (checkedMul remaining dutchScale) >>= fun scaled =>
    arith (checkedDiv scaled cfg.total) >>= fun f =>
    arith (checkedMul 2 f) >>= fun double =>
    arith (checkedMul f f) >>= fun square =>
    arith (checkedDiv square dutchScale) >>= fun part =>
    arith (checkedSub double part) >>= fun factor =>
    arith (checkedSub cfg.startPrice cfg.reservePrice) >>= fun spread =>
    arith (checkedMul spread factor) >>= fun product =>
    arith (checkedDiv product dutchScale) >>= fun above =>
    arith (checkedAdd cfg.reservePrice above)) = _
  have hmillionths : cfg.remaining now * dutchScale / cfg.total = cfg.millionths now := rfl
  rw [arith_checkedSub hremaining, ok_bind]
  change (arith (checkedMul (cfg.remaining now) dutchScale) >>= _) = _
  rw [arith_checkedMul hscaled, ok_bind, arith_checkedDiv hscaled hscaled0 hacc.total_pos, ok_bind,
    hmillionths, arith_checkedMul hdouble, ok_bind, arith_checkedMul hsquare, ok_bind,
    arith_checkedDiv hsquare hsquare0 (by decide), ok_bind, arith_checkedSub hsub, ok_bind, ← heq,
    arith_checkedSub (hacc.spread_fits ht), ok_bind]
  change (arith (checkedMul cfg.spread _) >>= _) = _
  rw [arith_checkedMul hfit, ok_bind, arith_checkedDiv hfit hprod (by decide), ok_bind]
  exact arith_checkedAdd hprice

end ClosedForms

/-! ## Decay -/

/-- A price that starts at the start price, never rises, never falls below the reserve and
ends at it. -/
structure Decays (cfg : DutchAuctionConfig) (price : Nat → Tx Int) : Prop where
  before : ∀ now ≤ cfg.startTime, price now = .ok cfg.startPrice
  after : ∀ now, cfg.endTime ≤ now → price now = .ok cfg.reservePrice
  antitone : ∀ t1 t2, t1 ≤ t2 → ∃ p1 p2, price t1 = .ok p1 ∧ price t2 = .ok p2 ∧
    cfg.reservePrice ≤ p2 ∧ p2 ≤ p1 ∧ p1 ≤ cfg.startPrice

section Decay

variable {cfg : DutchAuctionConfig}

/-- Only the times between the ends have to be looked at. -/
theorem Decays.of_running {price : Nat → Tx Int} {p : Nat → Int} (hacc : cfg.Accepted)
    (hbefore : ∀ now ≤ cfg.startTime, price now = .ok cfg.startPrice)
    (hafter : ∀ now, cfg.endTime ≤ now → price now = .ok cfg.reservePrice)
    (hprice : ∀ now, cfg.Running now → price now = .ok (p now))
    (hbounds : ∀ now, cfg.Running now → cfg.reservePrice ≤ p now ∧ p now ≤ cfg.startPrice)
    (hmono : ∀ t1 t2, cfg.Running t1 → cfg.Running t2 → t1 ≤ t2 → p t2 ≤ p t1) :
    Decays cfg price := by
  refine ⟨hbefore, hafter, fun t1 t2 h12 => ?_⟩
  have hlt := hacc.reserve_lt.le
  rcases Nat.lt_or_ge cfg.startTime t1 with h1 | h1
  · rcases Nat.lt_or_ge t2 cfg.endTime with h2 | h2
    · have hrun1 : cfg.Running t1 := ⟨h1, h12.trans_lt h2⟩
      have hrun2 : cfg.Running t2 := ⟨h1.trans_le h12, h2⟩
      exact ⟨_, _, hprice t1 hrun1, hprice t2 hrun2, (hbounds t2 hrun2).1,
        hmono t1 t2 hrun1 hrun2 h12, (hbounds t1 hrun1).2⟩
    · rcases Nat.lt_or_ge t1 cfg.endTime with h1' | h1'
      · have hrun1 : cfg.Running t1 := ⟨h1, h1'⟩
        exact ⟨_, _, hprice t1 hrun1, hafter t2 h2, le_rfl, hbounds t1 hrun1⟩
      · exact ⟨_, _, hafter t1 h1', hafter t2 h2, le_rfl, le_rfl, hlt⟩
  · rcases Nat.lt_or_ge cfg.startTime t2 with h2 | h2
    · rcases Nat.lt_or_ge t2 cfg.endTime with h2' | h2'
      · have hrun2 : cfg.Running t2 := ⟨h2, h2'⟩
        exact ⟨_, _, hbefore t1 h1, hprice t2 hrun2, (hbounds t2 hrun2).1,
          (hbounds t2 hrun2).2, le_rfl⟩
      · exact ⟨_, _, hbefore t1 h1, hafter t2 h2', le_rfl, hlt, le_rfl⟩
    · exact ⟨_, _, hbefore t1 h1, hbefore t2 h2, hlt, le_rfl, le_rfl⟩

/-- The product of the linear price fits at every time of the auction. -/
def DutchAuctionConfig.LinearFits (cfg : DutchAuctionConfig) : Prop :=
  ∀ now, cfg.Running now → Fits (cfg.elapsed now * cfg.spread)

/-- The product of the exponential price with the spread fits at every time of the auction; the
other ones always do. -/
def DutchAuctionConfig.ExponentialFits (cfg : DutchAuctionConfig) : Prop :=
  ∀ now, cfg.Running now → Fits (cfg.spread * dutchFactor (cfg.millionths now))

theorem DutchAuctionConfig.linearFits (hacc : cfg.Accepted) (h : Fits (cfg.total * cfg.spread)) :
    cfg.LinearFits := fun _ hrun =>
  h.of_le (mul_nonneg hrun.elapsed_pos.le hacc.spread_pos.le)
    (mul_le_mul_of_nonneg_right hrun.elapsed_le hacc.spread_pos.le)

theorem DutchAuctionConfig.exponentialFits (hacc : cfg.Accepted)
    (h : Fits (cfg.spread * dutchScale)) : cfg.ExponentialFits := by
  intro now hrun
  have hf := hrun.millionths_bounds hacc
  have hfactor := dutchFactor_bounds hf.1 hf.2
  exact h.of_le (mul_nonneg hacc.spread_pos.le hfactor.1)
    (mul_le_mul_of_nonneg_left hfactor.2 hacc.spread_pos.le)

theorem linear_decays (hacc : cfg.Accepted) (ht : cfg.Typed) (hfits : cfg.LinearFits) :
    Decays cfg (currentDutchPriceLinear cfg) := by
  have hlt := hacc.start_lt
  refine .of_running hacc (fun now h => ?_) (fun now h => if_pos h)
    (fun now hrun => currentDutchPriceLinear_eq hacc ht hrun (hfits now hrun))
    (fun now hrun => ?_) fun t1 t2 _ _ h12 => ?_
  · rw [currentDutchPriceLinear, if_neg (by omega), if_pos h]
    rfl
  · have := hrun.drop_bounds hacc
    unfold DutchAuctionConfig.spread at this ⊢
    omega
  · have hprod : cfg.elapsed t1 * cfg.spread ≤ cfg.elapsed t2 * cfg.spread :=
      mul_le_mul_of_nonneg_right (cfg.elapsed_mono h12) hacc.spread_pos.le
    have := Int.ediv_le_ediv hacc.total_pos hprod
    omega

theorem exponential_decays (hacc : cfg.Accepted) (ht : cfg.Typed) (hfits : cfg.ExponentialFits) :
    Decays cfg (currentDutchPriceExponential cfg) := by
  have hlt := hacc.start_lt
  refine .of_running hacc (fun now h => ?_) (fun now h => if_pos h)
    (fun now hrun => currentDutchPriceExponential_eq hacc ht hrun (hfits now hrun))
    (fun now hrun => ?_) fun t1 t2 hrun1 hrun2 h12 => ?_
  · rw [currentDutchPriceExponential, if_neg (by omega), if_pos h]
    rfl
  · have := hrun.above_bounds hacc
    unfold DutchAuctionConfig.spread at this ⊢
    omega
  · have hfactor := dutchFactor_mono (hacc.millionths_mono h12)
      (hrun1.millionths_bounds hacc).2
    have hprod := mul_le_mul_of_nonneg_left hfactor hacc.spread_pos.le
    have := Int.ediv_le_ediv (by decide : 0 < dutchScale) hprod
    omega

end Decay

/-- **Dutch auction prices decay.** Of an accepted configuration whose products fit, both prices
and the one the contract picks start at the start price, do not rise and end at the reserve. -/
theorem dutch_prices_decay (env : Env host) (cfg : DutchAuctionConfig)
    (hvalid : validateDutchAuctionConfig env cfg = .ok ()) (ht : cfg.Typed) :
    (cfg.LinearFits → Decays cfg (currentDutchPriceLinear cfg)) ∧
      (cfg.ExponentialFits → Decays cfg (currentDutchPriceExponential cfg)) ∧
      (cfg.LinearFits → cfg.ExponentialFits → Decays cfg (currentDutchPrice cfg)) := by
  have hacc := validateDutchAuctionConfig_eq_ok hvalid
  refine ⟨linear_decays hacc ht, exponential_decays hacc ht, fun hlin hexp => ?_⟩
  cases hcurve : cfg.exponential with
  | false =>
    have heq : currentDutchPrice cfg = currentDutchPriceLinear cfg :=
      funext fun now => if_neg (by simp [hcurve])
    exact heq ▸ linear_decays hacc ht hlin
  | true =>
    have heq : currentDutchPrice cfg = currentDutchPriceExponential cfg :=
      funext fun now => if_pos hcurve
    exact heq ▸ exponential_decays hacc ht hexp

namespace Sample

/-- A week that takes the price from two to one. -/
def weekly : DutchAuctionConfig := ⟨20000000, 10000000, 0, 604800, false⟩

end Sample

theorem dutch_prices_decay_weekly :
    Decays Sample.weekly (currentDutchPriceLinear Sample.weekly) :=
  (dutch_prices_decay (Sample.bidAt 0) Sample.weekly (by decide)
    ⟨by decide, by decide, by decide, by decide⟩).1
      (Sample.weekly.linearFits ⟨by decide, by decide, by decide⟩ (by decide))

/-! ## The two curves compared -/

namespace DutchAuctionConfig

variable (cfg : DutchAuctionConfig) (now : Nat)

/-- What the linear price is rounded up by, times the duration. -/
def lineRounding : Int := -(cfg.remaining now * cfg.spread) % cfg.total

/-- The remaining time beyond its whole millionths, times their number. -/
def millionthsLost : Int := cfg.remaining now * dutchScale % cfg.total

/-- The lead of the exponential curve in its whole millionths makes up for what it loses by the
rest of the time and for the rounding of the linear price. -/
def LeadCovers : Prop :=
  cfg.lineRounding now * dutchScale + cfg.spread * cfg.millionthsLost now ≤
    cfg.spread * dutchLead (cfg.millionths now) * cfg.total

end DutchAuctionConfig

section Comparison

variable {cfg : DutchAuctionConfig} {now : Nat}

variable (now) in
/-- The linear price is the spread's share of the remaining time, rounded up. -/
theorem linear_above_reserve (hacc : cfg.Accepted) :
    (cfg.startPrice - cfg.elapsed now * cfg.spread / cfg.total - cfg.reservePrice) * cfg.total =
      cfg.remaining now * cfg.spread + cfg.lineRounding now := by
  have hsplit : cfg.elapsed now * cfg.spread =
      -(cfg.remaining now * cfg.spread) + cfg.spread * cfg.total := by
    unfold DutchAuctionConfig.remaining
    ring
  have hdivmod := Int.mul_ediv_add_emod (-(cfg.remaining now * cfg.spread)) cfg.total
  rw [hsplit, Int.add_mul_ediv_right _ _ hacc.total_pos.ne', DutchAuctionConfig.lineRounding]
  unfold DutchAuctionConfig.spread at hdivmod ⊢
  linear_combination -hdivmod

theorem linear_le_exponential_iff (hacc : cfg.Accepted) :
    cfg.startPrice - cfg.elapsed now * cfg.spread / cfg.total ≤
        cfg.reservePrice + cfg.spread * dutchFactor (cfg.millionths now) / dutchScale ↔
      cfg.LeadCovers now := by
  have htotal := hacc.total_pos
  have hline := linear_above_reserve now hacc
  have hmillionths := Int.mul_ediv_add_emod (cfg.remaining now * dutchScale) cfg.total
  calc cfg.startPrice - cfg.elapsed now * cfg.spread / cfg.total ≤
        cfg.reservePrice + cfg.spread * dutchFactor (cfg.millionths now) / dutchScale
      ↔ cfg.startPrice - cfg.elapsed now * cfg.spread / cfg.total - cfg.reservePrice ≤
          cfg.spread * dutchFactor (cfg.millionths now) / dutchScale := by omega
    _ ↔ (cfg.startPrice - cfg.elapsed now * cfg.spread / cfg.total - cfg.reservePrice) *
          dutchScale ≤ cfg.spread * dutchFactor (cfg.millionths now) :=
        Int.le_ediv_iff_mul_le (by decide)
    _ ↔ (cfg.startPrice - cfg.elapsed now * cfg.spread / cfg.total - cfg.reservePrice) *
          dutchScale * cfg.total ≤ cfg.spread * dutchFactor (cfg.millionths now) * cfg.total :=
        (mul_le_mul_iff_of_pos_right htotal).symm
    _ ↔ (cfg.remaining now * cfg.spread + cfg.lineRounding now) * dutchScale ≤
          cfg.spread * dutchFactor (cfg.millionths now) * cfg.total := by
        rw [← hline, mul_right_comm]
    _ ↔ cfg.LeadCovers now := by
        change _ + cfg.millionthsLost now = _ at hmillionths
        have hsum : cfg.spread * (cfg.millionths now * cfg.total + cfg.millionthsLost now) =
            cfg.spread * (cfg.remaining now * dutchScale) := by
          rw [← hmillionths, mul_comm cfg.total]
          rfl
        unfold DutchAuctionConfig.LeadCovers dutchFactor
        rw [mul_add, add_mul]
        constructor <;> intro hle <;> linarith

end Comparison

/-- **When the exponential price dominates the linear one.** Both prices are returned, and the
exponential one is at least the linear one exactly when its lead covers the two roundings. -/
theorem exponential_dominates_iff (env : Env host) (cfg : DutchAuctionConfig)
    (hvalid : validateDutchAuctionConfig env cfg = .ok ()) (ht : cfg.Typed)
    (hlin : cfg.LinearFits) (hexp : cfg.ExponentialFits) (now : Nat) (hrun : cfg.Running now) :
    (∃ linear exponential, currentDutchPriceLinear cfg now = .ok linear ∧
        currentDutchPriceExponential cfg now = .ok exponential ∧ linear ≤ exponential) ↔
      cfg.LeadCovers now := by
  have hacc := validateDutchAuctionConfig_eq_ok hvalid
  rw [currentDutchPriceLinear_eq hacc ht hrun (hlin now hrun),
    currentDutchPriceExponential_eq hacc ht hrun (hexp now hrun), ← linear_le_exponential_iff hacc]
  constructor
  · rintro ⟨_, _, ⟨⟩, ⟨⟩, hle⟩
    exact hle
  · exact fun hle => ⟨_, _, rfl, rfl, hle⟩

/-- At the midpoint of the week the lead covers. -/
theorem exponential_dominates_weekly : ∃ linear exponential,
    currentDutchPriceLinear Sample.weekly 302400 = .ok linear ∧
      currentDutchPriceExponential Sample.weekly 302400 = .ok exponential ∧
      linear ≤ exponential :=
  (exponential_dominates_iff (Sample.bidAt 0) Sample.weekly (by decide)
    ⟨by decide, by decide, by decide, by decide⟩
    (Sample.weekly.linearFits ⟨by decide, by decide, by decide⟩ (by decide))
    (Sample.weekly.exponentialFits ⟨by decide, by decide, by decide⟩ (by decide)) 302400
    ⟨by decide, by decide⟩).mpr (by unfold DutchAuctionConfig.LeadCovers; decide)

/-- In the last millionth of an auction the lead is gone. -/
theorem not_leadCovers_of_last {cfg : DutchAuctionConfig} {now : Nat} (hacc : cfg.Accepted)
    (hrun : cfg.Running now) (hlast : cfg.remaining now * dutchScale < cfg.total) :
    ¬ cfg.LeadCovers now := by
  have hscaled : 0 < cfg.remaining now * dutchScale := mul_pos hrun.remaining_pos (by decide)
  have hzero : cfg.millionths now = 0 := Int.ediv_eq_zero_of_lt hscaled.le hlast
  have hlost : cfg.millionthsLost now = cfg.remaining now * dutchScale :=
    Int.emod_eq_of_lt hscaled.le hlast
  have hround : 0 ≤ cfg.lineRounding now := Int.emod_nonneg _ hacc.total_pos.ne'
  have hpos := mul_pos hacc.spread_pos hscaled
  have hscale : 0 ≤ cfg.lineRounding now * dutchScale := mul_nonneg hround (by decide)
  rw [DutchAuctionConfig.LeadCovers, hzero, hlost, dutchLead, mul_zero, Int.zero_ediv, sub_zero,
    mul_zero, zero_mul]
  omega

namespace Sample

/-- Two months that take the price from two to one, exponentially. -/
def bimonthly : DutchAuctionConfig := ⟨20000000, 10000000, 0, 5184000, true⟩

end Sample

/-- Five seconds before the end of two months the exponential price is the reserve, and the linear
one is ten stroops above it. -/
theorem exponential_below_linear_bimonthly :
    validateDutchAuctionConfig (Sample.bidAt 0) Sample.bimonthly = .ok () ∧
      Sample.bimonthly.Typed ∧ Sample.bimonthly.LinearFits ∧ Sample.bimonthly.ExponentialFits ∧
      Sample.bimonthly.Running 5183995 ∧
      currentDutchPriceLinear Sample.bimonthly 5183995 = .ok 10000010 ∧
      currentDutchPriceExponential Sample.bimonthly 5183995 = .ok 10000000 :=
  ⟨by decide, ⟨by decide, by decide, by decide, by decide⟩,
    Sample.bimonthly.linearFits ⟨by decide, by decide, by decide⟩ (by decide),
    Sample.bimonthly.exponentialFits ⟨by decide, by decide, by decide⟩ (by decide),
    ⟨by decide, by decide⟩, by decide, by decide⟩

end Agora.TicketPayment
