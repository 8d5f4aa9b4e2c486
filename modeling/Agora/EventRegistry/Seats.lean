import Agora.EventRegistry.Recording

/-!
# Seats given out and taken back

Two paths give out tickets, `increment_inventory` for the payment contract and
`execute_teleport_mint` behind a cross-chain proof, and `decrement_inventory`
takes one back. `Offers` is what both paths check; the first one checks more
and writes more. Each call is stated as the record it writes, and the calls are
compared by these records.
-/

namespace Agora.EventRegistry

open Lib Function

variable {host : Host}

/-- The checks that both paths make: the event is on, and the tickets stay within the limits and
the counters. -/
structure Offers (w : World) (eventId tierId : String) (quantity : Nat) (info : EventInfo)
    (tier : TicketTier) : Prop extends Sells info tierId tier quantity where
  stored : w.catalog.event eventId = some info
  live : info.isActive = true ∧ info.status ≠ .cancelled
  sold_fits : Fits (tier.currentSold + quantity)
  supply_fits : Fits (info.currentSupply + quantity)

/-- Another ticket of the tier for the user, as far as its limit goes. -/
def Permits (w : World) (eventId tierId : String) (user : Address) (quantity : Nat)
    (tier : TicketTier) : Prop :=
  0 < tier.maxPerUser → w.guests.userTicketCount (eventId, tierId, user) + quantity < 2 ^ 32 ∧
    w.guests.userTicketCount (eventId, tierId, user) + quantity ≤ tier.maxPerUser

/-- The record that a sale writes. -/
def EventInfo.increment (info : EventInfo) (tierId : String) (tier : TicketTier)
    (quantity : Nat) : EventInfo :=
  { info.sell tierId tier quantity with
    goalMet := info.goalMetBy (info.currentSupply + quantity) }

/-- The record after a ticket came back. -/
def EventInfo.decrement (info : EventInfo) (tierId : String) (tier : TicketTier) : EventInfo :=
  { info with
    tiers := info.tiers.set tierId { tier with currentSold := tier.currentSold - 1 }
    currentSupply := info.currentSupply - 1 }

/-- The state with another record of an event. -/
def World.setEvent (w : World) (eventId : String) (info : EventInfo) : World :=
  { w with catalog.event := update w.catalog.event eventId (some info) }

@[simp] theorem World.setEvent_event (w : World) (e : String) (info : EventInfo) :
    (w.setEvent e info).catalog.event = update w.catalog.event e (some info) := rfl

@[simp] theorem World.setEvent_guests (w : World) (e : String) (info : EventInfo) :
    (w.setEvent e info).guests = w.guests := rfl

@[simp] theorem World.setEvent_config (w : World) (e : String) (info : EventInfo) :
    (w.setEvent e info).config = w.config := rfl

section Calls

variable {env : Env host} {w w' : World} {e tierId : String} {user token : Address}
  {quantity : Nat} {info new : EventInfo} {tier : TicketTier}

/-- A record that stays as active and as private as it was is written without a change of the
counters. -/
theorem updateEvent_eq (hold : w.catalog.event e = some info) (hid : new.eventId = e)
    (hactive : new.isActive = info.isActive) (hprivate : new.isPrivate = info.isPrivate) :
    w.updateEvent new = .ok (w.setEvent e new) := by
  have hcount : syncActiveEventCount w.catalog.globalActiveEventCount
      (w.catalog.event new.eventId) new = .ok w.catalog.globalActiveEventCount := by
    rw [hid, hold, syncActiveEventCount, hprivate]
    cases hp : info.isPrivate <;> cases ha : info.isActive <;> simp [hactive, ha]
  refine World.updateEvent_eq_ok.mpr ⟨_, Catalog.updateEvent_eq_ok.mpr ⟨_, hcount, rfl⟩, ?_⟩
  rw [hid]
  rfl

theorem updateEvent_writes (h : w.updateEvent new = .ok w')
    (hold : w.catalog.event e = some info) (hid : new.eventId = e)
    (hactive : new.isActive = info.isActive) (hprivate : new.isPrivate = info.isPrivate) :
    w' = w.setEvent e new :=
  Except.ok.inj (h.symm.trans (updateEvent_eq hold hid hactive hprivate))

theorem checkSupply_isOk_iff (hfit : Fits (info.currentSupply + quantity)) {u : Unit} :
    checkSupply info quantity = .ok u ↔
      (0 < info.maxSupply → info.currentSupply + quantity ≤ info.maxSupply) := by
  refine ⟨checkSupply_eq_ok, fun h => ?_⟩
  unfold checkSupply
  split
  next hmax =>
    simp only [bind_eq_ok, checked_eq_ok, checkedAdd_eq_some, ensure_eq_ok]
    exact ⟨_, ⟨hfit, rfl⟩, h hmax⟩
  next => rfl

theorem checkUserLimit_isOk_iff {u : Unit} :
    checkUserLimit tier (w.guests.userTicketCount (e, tierId, user)) quantity = .ok u ↔
      Permits w e tierId user quantity tier := by
  unfold checkUserLimit Permits
  split
  next hmax =>
    simp only [bind_eq_ok, checked_eq_ok, checkedAddNat_eq_some, ensure_eq_ok]
    constructor
    · rintro ⟨_, ⟨hfit, rfl⟩, hle⟩ -
      exact ⟨hfit, hle⟩
    · intro h
      exact ⟨_, ⟨(h hmax).1, rfl⟩, (h hmax).2⟩
  next hmax => simp [hmax]

theorem incrementInventory_eq_ok (hk : w.catalog.Keyed) :
    incrementInventory env w e tierId user quantity token = .ok w' ↔
      requireTicketPayment env w = .ok () ∧ quantity ≠ 0 ∧
      ∃ info tier, Offers w e tierId quantity info tier ∧
        (info.acceptedTokens = [] ∨ token ∈ info.acceptedTokens) ∧
        Permits w e tierId user quantity tier ∧
        w' = { w with guests := w.guests.countSale e tierId user tier quantity }.setEvent e
          (info.increment tierId tier quantity) := by
  constructor
  · intro h
    simp only [incrementInventory, bind_eq_ok, getEvent_eq_ok, ensure_eq_ok, okOr_eq_ok,
      checked_eq_ok, checkedAdd_eq_some] at h
    obtain ⟨_, hauth, _, hq, info, hold, _, hlive, _, htoken, _, hsupply, tier, htier, _,
      ⟨hsold, rfl⟩, _, hwithin, _, huser, _, ⟨hcount, rfl⟩, h⟩ := h
    refine ⟨hauth, hq, info, tier,
      ⟨⟨htier, hwithin, checkSupply_eq_ok hsupply⟩, hold, hlive, hsold, hcount⟩, htoken,
      checkUserLimit_isOk_iff.mp huser, ?_⟩
    exact updateEvent_writes h hold (hk e info hold) rfl rfl
  · rintro ⟨hauth, hq, info, tier, hoffers, htoken, hpermits, rfl⟩
    simp only [incrementInventory, bind_eq_ok, getEvent_eq_ok, ensure_eq_ok, okOr_eq_ok,
      checked_eq_ok, checkedAdd_eq_some]
    exact ⟨(), hauth, (), hq, info, hoffers.stored, (), hoffers.live, (), htoken, (),
      (checkSupply_isOk_iff hoffers.supply_fits).mpr hoffers.supply, tier, hoffers.listed, _,
      ⟨hoffers.sold_fits, rfl⟩, (), hoffers.within, (), checkUserLimit_isOk_iff.mpr hpermits, _,
      ⟨hoffers.supply_fits, rfl⟩,
      updateEvent_eq hoffers.stored (hk e info hoffers.stored) rfl rfl⟩

theorem executeTeleportMint_eq_ok (hk : w.catalog.Keyed) :
    executeTeleportMint w user tierId e quantity = .ok w' ↔
      ∃ info tier, Offers w e tierId quantity info tier ∧
        w' = { w with
          guests.globalTicketsSold :=
            saturatingAdd128 w.guests.globalTicketsSold quantity }.setEvent e
          (info.sell tierId tier quantity) := by
  constructor
  · intro h
    simp only [executeTeleportMint, bind_eq_ok, getEvent_eq_ok, ensure_eq_ok, okOr_eq_ok,
      checked_eq_ok, checkedAdd_eq_some] at h
    obtain ⟨info, hold, _, hlive, _, hsupply, tier, htier, _, ⟨hsold, rfl⟩, _, hwithin, _,
      ⟨hcount, rfl⟩, h⟩ := h
    refine ⟨info, tier,
      ⟨⟨htier, hwithin, checkSupply_eq_ok hsupply⟩, hold, hlive, hsold, hcount⟩, ?_⟩
    exact updateEvent_writes h hold (hk e info hold) rfl rfl
  · rintro ⟨info, tier, hoffers, rfl⟩
    simp only [executeTeleportMint, bind_eq_ok, getEvent_eq_ok, ensure_eq_ok, okOr_eq_ok,
      checked_eq_ok, checkedAdd_eq_some]
    exact ⟨info, hoffers.stored, (), hoffers.live, (),
      (checkSupply_isOk_iff hoffers.supply_fits).mpr hoffers.supply, tier, hoffers.listed, _,
      ⟨hoffers.sold_fits, rfl⟩, (), hoffers.within, _, ⟨hoffers.supply_fits, rfl⟩,
      updateEvent_eq hoffers.stored (hk e info hoffers.stored) rfl rfl⟩

theorem decrementInventory_eq_ok (hk : w.catalog.Keyed) :
    decrementInventory env w e tierId = .ok w' ↔
      requireTicketPayment env w = .ok () ∧
      ∃ info tier, w.catalog.event e = some info ∧ info.tiers.get tierId = some tier ∧
        (0 < tier.currentSold ∧ Fits (tier.currentSold - 1)) ∧
        (0 < info.currentSupply ∧ Fits (info.currentSupply - 1)) ∧
        w' = w.setEvent e (info.decrement tierId tier) := by
  constructor
  · intro h
    simp only [decrementInventory, bind_eq_ok, getEvent_eq_ok, ensure_eq_ok, okOr_eq_ok,
      checkedSub_eq_some] at h
    obtain ⟨_, hauth, info, hold, tier, htier, _, hsold, _, ⟨hfit, rfl⟩, _, hsupply, _,
      ⟨hfit', rfl⟩, h⟩ := h
    exact ⟨hauth, info, tier, hold, htier, ⟨hsold, hfit⟩, ⟨hsupply, hfit'⟩,
      updateEvent_writes h hold (hk e info hold) rfl rfl⟩
  · rintro ⟨hauth, info, tier, hold, htier, ⟨hsold, hfit⟩, ⟨hsupply, hfit'⟩, rfl⟩
    simp only [decrementInventory, bind_eq_ok, getEvent_eq_ok, ensure_eq_ok, okOr_eq_ok,
      checkedSub_eq_some]
    exact ⟨(), hauth, info, hold, tier, htier, (), hsold, _, ⟨hfit, rfl⟩, (), hsupply, _,
      ⟨hfit', rfl⟩, updateEvent_eq hold (hk e info hold) rfl rfl⟩

end Calls

/-! ## The two paths compared -/

/-- The two states have the same event records, the same tickets per user and the same global
counters. -/
structure SameSale (w1 w2 : World) : Prop where
  event : w1.catalog.event = w2.catalog.event
  userTicketCount : w1.guests.userTicketCount = w2.guests.userTicketCount
  globalTicketsSold : w1.guests.globalTicketsSold = w2.guests.globalTicketsSold
  globalEventCount : w1.catalog.globalEventCount = w2.catalog.globalEventCount
  globalActiveEventCount : w1.catalog.globalActiveEventCount = w2.catalog.globalActiveEventCount

section Paths

variable {w : World} {e tierId : String} {user : Address} {quantity : Nat} {info : EventInfo}
  {tier : TicketTier}

theorem Offers.unique {info' : EventInfo} {tier' : TicketTier}
    (h : Offers w e tierId quantity info tier) (h' : Offers w e tierId quantity info' tier') :
    info' = info ∧ tier' = tier := by
  obtain rfl := Option.some.inj (h.stored.symm.trans h'.stored)
  exact ⟨rfl, Option.some.inj (h'.listed.symm.trans h.listed)⟩

/-- The sales target was reached before, or is not reached by the sale. -/
def EventInfo.KeepsGoal (info : EventInfo) (quantity : Nat) : Prop :=
  info.goalMet = false → 0 < info.minSalesTarget →
    info.currentSupply + quantity < info.minSalesTarget

variable (tierId tier) in
theorem increment_eq_sell_iff :
    info.increment tierId tier quantity = info.sell tierId tier quantity ↔
      info.KeepsGoal quantity := by
  have hgoal : info.increment tierId tier quantity = info.sell tierId tier quantity ↔
      info.goalMetBy (info.currentSupply + quantity) = info.goalMet :=
    ⟨fun h => congrArg EventInfo.goalMet h, fun h => by
      rw [EventInfo.increment, h]
      rfl⟩
  rw [hgoal, EventInfo.goalMetBy, EventInfo.KeepsGoal]
  cases info.goalMet with
  | true => simp
  | false =>
    simp only [Bool.false_or, decide_eq_false_iff_not, not_and, not_le, true_implies]

/-- A sale within the limit per user leaves the user's count alone only where no limit is set. -/
theorem countSale_count_iff (hq : quantity ≠ 0)
    (hpermits : Permits w e tierId user quantity tier) :
    (w.guests.countSale e tierId user tier quantity).userTicketCount (e, tierId, user) =
      w.guests.userTicketCount (e, tierId, user) ↔ tier.maxPerUser = 0 := by
  unfold Guests.countSale
  constructor
  · intro hcount
    by_contra hmax
    obtain ⟨hfit, -⟩ := hpermits (Nat.pos_of_ne_zero hmax)
    rw [if_pos (Nat.pos_of_ne_zero hmax)] at hcount
    simp only [update_self, saturatingAdd32] at hcount
    omega
  · intro h
    rw [if_neg (by omega)]

theorem countSale_counts_iff (hq : quantity ≠ 0)
    (hpermits : Permits w e tierId user quantity tier) :
    (w.guests.countSale e tierId user tier quantity).userTicketCount =
      w.guests.userTicketCount ↔ tier.maxPerUser = 0 :=
  ⟨fun h => (countSale_count_iff hq hpermits).mp (congrFun h _), fun h => if_neg (by omega)⟩

theorem sameSale_iff (hq : quantity ≠ 0) (hpermits : Permits w e tierId user quantity tier) :
    SameSale
        ({ w with guests := w.guests.countSale e tierId user tier quantity }.setEvent e
          (info.increment tierId tier quantity))
        ({ w with
          guests.globalTicketsSold :=
            saturatingAdd128 w.guests.globalTicketsSold quantity }.setEvent e
          (info.sell tierId tier quantity)) ↔
      tier.maxPerUser = 0 ∧ info.KeepsGoal quantity := by
  rw [← countSale_counts_iff hq hpermits, ← increment_eq_sell_iff tierId tier]
  constructor
  · intro h
    refine ⟨h.userTicketCount, Option.some.inj ?_⟩
    have hevent := congrFun h.event e
    rwa [World.setEvent_event, World.setEvent_event, update_self, update_self] at hevent
  · rintro ⟨huser, hevent⟩
    exact ⟨by rw [World.setEvent_event, World.setEvent_event, hevent], huser, rfl, rfl, rfl⟩

/-- **When both paths apply the same rules.** In a reachable state, with the payment contract's
signature and an accepted token, the mint succeeds as the sale does and leaves the same event
record, counts and counters, exactly when either the checks they share refuse the tickets, or there
is at least one ticket, the tier has no limit per user and the sale does not reach the event's
target. -/
theorem mint_paths_agree_iff {w0 : World} (hw : Fresh host w0) (steps : List (Step host))
    (env : Env host) (e tierId : String) (user token : Address) (quantity : Nat)
    (hauth : requireTicketPayment env (run step w0 steps) = .ok ())
    (htoken : ∀ info, (run step w0 steps).catalog.event e = some info →
      info.acceptedTokens = [] ∨ token ∈ info.acceptedTokens) :
    (((∃ w1, incrementInventory env (run step w0 steps) e tierId user quantity token = .ok w1) ↔
        ∃ w2, executeTeleportMint (run step w0 steps) user tierId e quantity = .ok w2) ∧
      ∀ w1 w2, incrementInventory env (run step w0 steps) e tierId user quantity token = .ok w1 →
        executeTeleportMint (run step w0 steps) user tierId e quantity = .ok w2 →
        SameSale w1 w2) ↔
      ∀ info tier, Offers (run step w0 steps) e tierId quantity info tier →
        quantity ≠ 0 ∧ tier.maxPerUser = 0 ∧ info.KeepsGoal quantity := by
  have hk : (run step w0 steps).catalog.Keyed := run_keyed hw
  generalize run step w0 steps = w at *
  constructor
  · rintro ⟨hiff, hsame⟩ info tier hoffers
    have hmint : executeTeleportMint w user tierId e quantity = .ok _ :=
      (executeTeleportMint_eq_ok hk).mpr ⟨info, tier, hoffers, rfl⟩
    obtain ⟨w1, hsale⟩ := hiff.mpr ⟨_, hmint⟩
    obtain ⟨-, hq, info', tier', hoffers', -, hpermits, rfl⟩ :=
      (incrementInventory_eq_ok hk).mp hsale
    obtain ⟨rfl, rfl⟩ := hoffers.unique hoffers'
    exact ⟨hq, (sameSale_iff hq hpermits).mp (hsame _ _ hsale hmint)⟩
  · intro hcond
    refine ⟨⟨?_, ?_⟩, fun w1 w2 hsale hmint => ?_⟩
    · rintro ⟨w1, hsale⟩
      obtain ⟨-, -, info, tier, hoffers, -⟩ := (incrementInventory_eq_ok hk).mp hsale
      exact ⟨_, (executeTeleportMint_eq_ok hk).mpr ⟨info, tier, hoffers, rfl⟩⟩
    · rintro ⟨w2, hmint⟩
      obtain ⟨info, tier, hoffers, -⟩ := (executeTeleportMint_eq_ok hk).mp hmint
      obtain ⟨hq, hmax, -⟩ := hcond info tier hoffers
      have hpermits : Permits w e tierId user quantity tier := fun hpos => by omega
      exact ⟨_, (incrementInventory_eq_ok hk).mpr ⟨hauth, hq, info, tier, hoffers,
        htoken info hoffers.stored, hpermits, rfl⟩⟩
    · obtain ⟨-, hq, info, tier, hoffers, -, hpermits, rfl⟩ :=
        (incrementInventory_eq_ok hk).mp hsale
      obtain ⟨info', tier', hoffers', rfl⟩ := (executeTeleportMint_eq_ok hk).mp hmint
      obtain ⟨rfl, rfl⟩ := hoffers.unique hoffers'
      exact (sameSale_iff hq hpermits).mpr (hcond _ _ hoffers).2

end Paths

namespace Sample

/-- An event with a tier of one ticket for each user. -/
def limitedArgs : EventRegistrationArgs :=
  { args "e1" with tiers := OrdMap.empty.set "hall" { tier 0 with maxPerUser := 1 } }

/-- The organizer registers an event, and the payment contract may sell. -/
def sellingRun (a : EventRegistrationArgs) : List (Step node) :=
  [start, byOrganizer (.registerEvent a), byAdmin (.setTicketPaymentContract payments)]

def paymentsEnv : Env node := signedBy payments payments_ne_self 1000

end Sample

open Sample in
/-- Two tickets of an event without target, of a tier without limit per user. -/
theorem mint_paths_agree_two :
    (∃ w1, incrementInventory paymentsEnv (run step deployed (sellingRun (args "e1"))) "e1" "hall"
        alice 2 usdc = .ok w1) ↔
      ∃ w2, executeTeleportMint (run step deployed (sellingRun (args "e1"))) alice "hall" "e1" 2 =
        .ok w2 := by
  have hrecord : ((run step deployed (sellingRun (args "e1"))).catalog.event "e1").map
      (fun info => (info.acceptedTokens, info.tiers, info.minSalesTarget)) =
        some ([], OrdMap.empty.set "hall" (tier 0), 0) := by decide
  refine ((mint_paths_agree_iff deployed_fresh (sellingRun (args "e1")) paymentsEnv "e1" "hall"
    alice usdc 2 (by decide) fun info hinfo => ?_).mpr fun info t hoffers => ?_).1
  · rw [hinfo, Option.map_some, Option.some.injEq, Prod.mk.injEq] at hrecord
    exact .inl hrecord.1
  · have hstored := hoffers.stored
    have hlisted := hoffers.listed
    rw [hstored, Option.map_some, Option.some.injEq, Prod.mk.injEq, Prod.mk.injEq] at hrecord
    obtain ⟨-, htiers, htarget⟩ := hrecord
    rw [htiers, OrdMap.get_set_self, Option.some.injEq] at hlisted
    refine ⟨by decide, hlisted ▸ rfl, fun _ hpos => ?_⟩
    omega

open Sample in
/-- The mint takes no ticket at all, and five for one user, where the sale refuses. -/
theorem mint_paths_disagree_limited :
    (executeTeleportMint (run step deployed (sellingRun limitedArgs)) alice "hall" "e1" 0).isOk =
        true ∧
      incrementInventory paymentsEnv (run step deployed (sellingRun limitedArgs)) "e1" "hall" alice
        0 usdc = .error (.error .invalidQuantity) ∧
      (executeTeleportMint (run step deployed (sellingRun limitedArgs)) alice "hall" "e1" 5).isOk =
        true ∧
      incrementInventory paymentsEnv (run step deployed (sellingRun limitedArgs)) "e1" "hall" alice
        5 usdc = .error (.error .perUserLimitExceeded) :=
  ⟨by decide, rfl, by decide, rfl⟩

/-! ## A sale and its refund -/

/-- The tickets sold of a stored tier. -/
def World.tierSold (w : World) (eventId tierId : String) : Option Int :=
  (w.catalog.event eventId).bind fun info => (info.tiers.get tierId).map (·.currentSold)

/-- The supply of a stored event. -/
def World.eventSupply (w : World) (eventId : String) : Option Int :=
  (w.catalog.event eventId).map (·.currentSupply)

/-- The four counters of a ticket are what they were. -/
structure SeatBack (w w' : World) (eventId tierId : String) (user : Address) : Prop where
  tierSold : w'.tierSold eventId tierId = w.tierSold eventId tierId
  eventSupply : w'.eventSupply eventId = w.eventSupply eventId
  userTicketCount : w'.guests.userTicketCount (eventId, tierId, user) =
    w.guests.userTicketCount (eventId, tierId, user)
  globalTicketsSold : w'.guests.globalTicketsSold = w.guests.globalTicketsSold

section Refund

variable {env env' : Env host} {w w1 w2 : World} {e tierId : String} {user token : Address}
  {info : EventInfo} {tier : TicketTier}

theorem decrement_sold {g : Guests} (hk : w.catalog.Keyed) (hoffers : Offers w e tierId 1 info tier)
    (hauth : requireTicketPayment env' w = .ok ()) :
    decrementInventory env' ({ w with guests := g }.setEvent e (info.increment tierId tier 1)) e
        tierId = .ok w2 ↔
      (0 ≤ tier.currentSold ∧ 0 ≤ info.currentSupply) ∧
        w2 = ({ w with guests := g }.setEvent e (info.increment tierId tier 1)).setEvent e
          ((info.increment tierId tier 1).decrement tierId
            { tier with currentSold := tier.currentSold + 1 }) := by
  have hkeyed : ({ w with guests := g }.setEvent e
      (info.increment tierId tier 1)).catalog.Keyed := by
    intro id new hnew
    rw [World.setEvent_event] at hnew
    by_cases hid : id = e
    · subst hid
      rw [update_self] at hnew
      exact Option.some.inj hnew ▸ hk id info hoffers.stored
    · rw [update_of_ne hid] at hnew
      exact hk id new hnew
  have hlisted : (info.increment tierId tier 1).tiers.get tierId =
      some { tier with currentSold := tier.currentSold + 1 } := OrdMap.get_set_self
  have hstored : ({ w with guests := g }.setEvent e (info.increment tierId tier 1)).catalog.event e =
      some (info.increment tierId tier 1) := update_self ..
  have hsold := hoffers.sold_fits
  have hsupply := hoffers.supply_fits
  rw [decrementInventory_eq_ok hkeyed]
  constructor
  · rintro ⟨-, info', tier', hstored', hlisted', ⟨hpos, -⟩, ⟨hpos', -⟩, rfl⟩
    obtain rfl := Option.some.inj (hstored.symm.trans hstored')
    obtain rfl := Option.some.inj (hlisted.symm.trans hlisted')
    change 0 < tier.currentSold + 1 at hpos
    change 0 < info.currentSupply + 1 at hpos'
    exact ⟨⟨by omega, by omega⟩, rfl⟩
  · rintro ⟨⟨hpos, hpos'⟩, rfl⟩
    refine ⟨hauth, _, _, hstored, hlisted, ⟨?_, ?_⟩, ⟨?_, ?_⟩, rfl⟩
    · show 0 < tier.currentSold + 1
      omega
    · show Fits (tier.currentSold + 1 - 1)
      exact hsold.of_le (by omega) (by omega)
    · show 0 < info.currentSupply + 1
      omega
    · show Fits (info.currentSupply + 1 - 1)
      exact hsupply.of_le (by omega) (by omega)

theorem saturatingAdd128_eq_self_iff {x : Int} : saturatingAdd128 x 1 = x ↔ x = 2 ^ 127 - 1 := by
  unfold saturatingAdd128
  omega

/-- The refund gives the seat back, and not what was counted beside it. -/
theorem seatBack_iff {g : Guests} (hoffers : Offers w e tierId 1 info tier)
    (hpermits : Permits w e tierId user 1 tier)
    (hg : g = w.guests.countSale e tierId user tier 1) :
    SeatBack w (({ w with guests := g }.setEvent e (info.increment tierId tier 1)).setEvent e
        ((info.increment tierId tier 1).decrement tierId
          { tier with currentSold := tier.currentSold + 1 })) e tierId user ↔
      tier.maxPerUser = 0 ∧ w.guests.globalTicketsSold = 2 ^ 127 - 1 := by
  subst hg
  rw [← countSale_count_iff Nat.one_ne_zero hpermits, ← saturatingAdd128_eq_self_iff]
  constructor
  · exact fun h => ⟨h.userTicketCount, h.globalTicketsSold⟩
  · rintro ⟨huser, hglobal⟩
    refine ⟨?_, ?_, huser, hglobal⟩
    · rw [World.tierSold, World.tierSold, World.setEvent_event, update_self, hoffers.stored]
      simp only [Option.bind_some, EventInfo.decrement, OrdMap.get_set_self, hoffers.listed,
        Option.map_some]
      rw [Int.add_sub_cancel]
    · rw [World.eventSupply, World.eventSupply, World.setEvent_event, update_self, hoffers.stored]
      exact congrArg some (Int.add_sub_cancel _ _)

/-- **When a refund gives the seat back.** In a reachable state a ticket is sold and refunded. The
refund succeeds and restores the tickets sold of the tier, the supply, the user's count and the
global counter exactly when the two counts were not negative, the tier has no limit per user and
the global counter is stuck at its maximum. -/
theorem refund_restores_iff (env' : Env host) {w0 : World} (hw : Fresh host w0)
    (steps : List (Step host))
    (hsale : incrementInventory env (run step w0 steps) e tierId user 1 token = .ok w1)
    (hauth : requireTicketPayment env' (run step w0 steps) = .ok ()) :
    (∃ w2, decrementInventory env' w1 e tierId = .ok w2 ∧
        SeatBack (run step w0 steps) w2 e tierId user) ↔
      ∃ info tier, (run step w0 steps).catalog.event e = some info ∧
        info.tiers.get tierId = some tier ∧
        0 ≤ tier.currentSold ∧ 0 ≤ info.currentSupply ∧ tier.maxPerUser = 0 ∧
        (run step w0 steps).guests.globalTicketsSold = 2 ^ 127 - 1 := by
  have hk : (run step w0 steps).catalog.Keyed := run_keyed hw
  generalize run step w0 steps = w at *
  obtain ⟨-, -, info, tier, hoffers, -, hpermits, rfl⟩ := (incrementInventory_eq_ok hk).mp hsale
  have hback := seatBack_iff hoffers hpermits rfl
  constructor
  · rintro ⟨w2, hrefund, hseat⟩
    obtain ⟨⟨hsold, hsupply⟩, rfl⟩ := (decrement_sold hk hoffers hauth).mp hrefund
    obtain ⟨hmax, hglobal⟩ := hback.mp hseat
    exact ⟨info, tier, hoffers.stored, hoffers.listed, hsold, hsupply, hmax, hglobal⟩
  · rintro ⟨info', tier', hstored, hlisted, hsold, hsupply, hmax, hglobal⟩
    obtain rfl := Option.some.inj (hoffers.stored.symm.trans hstored)
    obtain rfl := Option.some.inj (hoffers.listed.symm.trans hlisted)
    exact ⟨_, (decrement_sold hk hoffers hauth).mpr ⟨⟨hsold, hsupply⟩, rfl⟩,
      hback.mpr ⟨hmax, hglobal⟩⟩

end Refund

open Sample in
/-- Where the tier has a limit, or the global counter is below its maximum, something is lost. -/
theorem refund_restores_limited : ∃ w1,
    incrementInventory paymentsEnv (run step deployed (sellingRun limitedArgs)) "e1" "hall" alice 1
        usdc = .ok w1 ∧
      ¬ ∃ w2, decrementInventory paymentsEnv w1 "e1" "hall" = .ok w2 ∧
        SeatBack (run step deployed (sellingRun limitedArgs)) w2 "e1" "hall" alice := by
  obtain ⟨w1, hsale⟩ := exists_of_isOk (by decide : (incrementInventory paymentsEnv
    (run step deployed (sellingRun limitedArgs)) "e1" "hall" alice 1 usdc).isOk = true)
  refine ⟨w1, hsale, fun hback => ?_⟩
  obtain ⟨_, _, -, -, -, -, -, hglobal⟩ :=
    (refund_restores_iff paymentsEnv deployed_fresh (sellingRun limitedArgs) hsale
      (by decide)).mp hback
  exact absurd hglobal (by decide)

namespace Sample

/-- Alice buys her ticket and gives it back. -/
def refundedRun : List (Step node) :=
  sellingRun limitedArgs ++ [byPayments (.incrementInventory "e1" "hall" alice 1 usdc),
    byPayments (.decrementInventory "e1" "hall")]

end Sample

open Sample in
/-- Her ticket is still counted for her, and she cannot buy another one. -/
theorem refund_not_restored_limited :
    Fresh node deployed ∧ (history step deployed refundedRun).length = 5 ∧
      (run step deployed (sellingRun limitedArgs)).guests.userTicketCount ("e1", "hall", alice) =
        0 ∧
      (run step deployed refundedRun).guests.userTicketCount ("e1", "hall", alice) = 1 ∧
      (run step deployed refundedRun).guests.globalTicketsSold = 1 ∧
      incrementInventory paymentsEnv (run step deployed refundedRun) "e1" "hall" alice 1 usdc =
        .error (.error .perUserLimitExceeded) :=
  ⟨deployed_fresh, by decide, by decide, by decide, by decide, rfl⟩

end Agora.EventRegistry
