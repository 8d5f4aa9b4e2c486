import Agora.EventRegistry.Recording
import Mathlib.Algebra.Order.BigOperators.Group.List

/-!
# Tickets and supply

A record is `Supplied` when the tickets sold of each tier stay within its
limit and add up to the supply, which stays within the event's. Three calls
take numbers of sold tickets from the caller: the registration, the legacy
`store_event` and `add_tier`, which may replace a tier that has sales.
`Restocks` says what they have to hand in; every other call keeps the records
supplied.
-/

namespace Agora.EventRegistry

open Lib Function

variable {host : Host}

structure Supplied (info : EventInfo) : Prop where
  within : ∀ id tier, info.tiers.get id = some tier →
    0 ≤ tier.currentSold ∧ tier.currentSold ≤ tier.tierLimit
  supply : info.currentSupply = info.tiers.sum TicketTier.currentSold
  capped : 0 < info.maxSupply → info.currentSupply ≤ info.maxSupply

/-- Every stored event is supplied. -/
def Stocked (w : World) : Prop := ∀ id info, w.catalog.event id = some info → Supplied info

/-- The tickets sold of a tier, none if there is no such tier. -/
def EventInfo.soldOf (info : EventInfo) (tierId : String) : Int :=
  ((info.tiers.get tierId).map TicketTier.currentSold).getD 0

/-- What the callers that hand in tiers have to hand in. -/
def Restocks (w : World) : Op → Prop
  | .registerEvent a => ∀ id tier, a.tiers.get id = some tier →
      tier.currentSold = 0 ∧ 0 ≤ tier.tierLimit
  | .storeEvent info => Supplied info
  | .addTier e tierId tier =>
      0 ≤ tier.currentSold ∧ tier.currentSold ≤ tier.tierLimit ∧
        ∀ info, w.catalog.event e = some info → tier.currentSold = info.soldOf tierId
  | _ => True

section Records

variable {env : Env host} {w w' : World} {op : Op} {e tierId : String} {tier : TicketTier}
  {info old new : EventInfo}

/-- A tier is written, with what it does to the supply. -/
theorem Supplied.set (h : Supplied old) (htiers : new.tiers = old.tiers.set tierId tier)
    (hwithin : 0 ≤ tier.currentSold ∧ tier.currentSold ≤ tier.tierLimit)
    (hsupply : new.currentSupply = old.currentSupply - old.soldOf tierId + tier.currentSold)
    (hcapped : 0 < new.maxSupply → new.currentSupply ≤ new.maxSupply) : Supplied new where
  within := by
    intro id t ht
    rw [htiers] at ht
    by_cases hid : id = tierId
    · subst hid
      rw [OrdMap.get_set_self] at ht
      obtain rfl := Option.some.inj ht
      exact hwithin
    · rw [OrdMap.get_set_of_ne hid] at ht
      exact h.within id t ht
  supply := by
    rw [htiers, OrdMap.sum_set, hsupply, h.supply]
    rfl
  capped := hcapped

theorem EventInfo.soldOf_of_get (h : old.tiers.get tierId = some tier) :
    old.soldOf tierId = tier.currentSold := by
  simp [EventInfo.soldOf, h]

theorem Supplied.sell {quantity : Nat} (h : Supplied old) (hs : Sells old tierId tier quantity) :
    Supplied (old.sell tierId tier quantity) := by
  have hold := h.within tierId tier hs.listed
  refine h.set rfl ⟨?_, hs.within⟩ ?_ hs.supply
  · show 0 ≤ tier.currentSold + quantity
    omega
  · show old.currentSupply + quantity = _ - old.soldOf tierId + (tier.currentSold + quantity)
    rw [EventInfo.soldOf_of_get hs.listed]
    omega

theorem Supplied.edit (h : Supplied old) (hold : w.catalog.event e = some old)
    (hedit : Edit env w old op e new) (hop : Restocks w op) : Supplied new := by
  cases hedit with
  | status | cancel | metadata | feedback | resaleCap | postpone | customFee =>
    exact ⟨h.within, h.supply, h.capped⟩
  | addTier =>
    obtain ⟨hpos, hlimit, hsold⟩ := hop
    refine h.set rfl ⟨hpos, hlimit⟩ ?_ h.capped
    rw [hsold old hold]
    show old.currentSupply = _
    omega
  | @deactivateTier _ _ tier listed =>
    refine h.set rfl ⟨(h.within _ _ listed).1, le_rfl⟩ ?_ h.capped
    rw [EventInfo.soldOf_of_get listed]
    show old.currentSupply = _ - tier.currentSold + tier.currentSold
    omega
  | increment _ sells =>
    have hsell := h.sell sells
    exact ⟨hsell.within, hsell.supply, hsell.capped⟩
  | mint _ sells => exact h.sell sells
  | @decrement _ _ tier listed sold =>
    obtain ⟨-, hlimit⟩ := h.within _ _ listed
    refine h.set rfl ⟨?_, ?_⟩ ?_ fun hmax => ?_
    · show 0 ≤ tier.currentSold - 1
      omega
    · show tier.currentSold - 1 ≤ tier.tierLimit
      omega
    · rw [EventInfo.soldOf_of_get listed]
      show old.currentSupply - 1 = _ - tier.currentSold + (tier.currentSold - 1)
      omega
    · have hcap := h.capped hmax
      show old.currentSupply - 1 ≤ old.maxSupply
      omega

/-- A new record is supplied exactly if its tiers come without sales. -/
theorem supplied_event_iff {a : EventRegistrationArgs} {fee now : Nat} :
    Supplied (a.event fee now) ↔ ∀ id tier, a.tiers.get id = some tier →
      tier.currentSold = 0 ∧ 0 ≤ tier.tierLimit := by
  constructor
  · intro h id tier htier
    have hnonneg : ∀ x ∈ a.tiers.values.map TicketTier.currentSold, 0 ≤ x := by
      intro x hx
      obtain ⟨t, ht, rfl⟩ := List.mem_map.mp hx
      obtain ⟨k, hk⟩ := OrdMap.mem_values.mp ht
      exact (h.within k t hk).1
    have hle : tier.currentSold ≤ a.tiers.sum TicketTier.currentSold :=
      List.single_le_sum hnonneg _ (List.mem_map_of_mem (OrdMap.mem_values.mpr ⟨id, htier⟩))
    have hsum : (0 : Int) = a.tiers.sum TicketTier.currentSold := h.supply
    have hwithin := h.within id tier htier
    omega
  · intro h
    refine ⟨fun id tier htier => ?_, ?_, fun hmax => hmax.le⟩
    · obtain ⟨hzero, hlimit⟩ := h id tier htier
      omega
    · show (0 : Int) = a.tiers.sum TicketTier.currentSold
      refine (List.sum_eq_zero fun x hx => ?_).symm
      obtain ⟨t, ht, rfl⟩ := List.mem_map.mp hx
      obtain ⟨k, hk⟩ := OrdMap.mem_values.mp ht
      exact (h k t hk).1

theorem Supplied.fate {o : Option EventInfo} (hold : w.catalog.event e = o)
    (h : ∀ old, o = some old → Supplied old) (hfate : Fate env w op e o (some new))
    (hop : Restocks w op) : Supplied new := by
  cases hfate with
  | kept => exact h new rfl
  | registered => exact supplied_event_iff.mpr hop
  | stored => exact hop
  | edited edit => exact (h _ rfl).edit hold edit hop
  | suspended =>
    have hold := h _ rfl
    exact ⟨hold.within, hold.supply, hold.capped⟩

end Records

/-! ## Runs -/

section Runs

variable {w w' : World} {a : Step host}

theorem step_stocked (hk : w.catalog.Keyed) (h : Stocked w) (hC : OnCalls Restocks w a)
    (hok : step w a = .ok w') : Stocked w' := by
  intro id info hinfo
  rcases step_record hk hok hinfo with hsame | ⟨env, op, rfl, hfate⟩
  · exact h id info hsame
  · exact Supplied.fate rfl (h id) hfate hC

/-- Whoever hands in tiers that leave the records supplied hands in what `Restocks` asks for. -/
theorem restocks_of_stocked (hk : w.catalog.Keyed) (h : Stocked w) (hok : step w a = .ok w')
    (h' : Stocked w') : OnCalls Restocks w a := by
  refine onCalls_of_step hok fun env op hcall => ?_
  obtain ⟨hrec, -⟩ := call_recording hcall
  cases op
  case registerEvent a => exact supplied_event_iff.mp (h' _ _ hrec.register_written.2)
  case storeEvent info => exact h' _ _ hrec.store_written
  case addTier e tierId tier =>
    obtain ⟨old, hold, hnew⟩ := hrec.addTier_written hk
    have hsupplied := h' _ _ hnew
    obtain ⟨hpos, hlimit⟩ := hsupplied.within tierId tier OrdMap.get_set_self
    refine ⟨hpos, hlimit, fun info hinfo => ?_⟩
    obtain rfl := Option.some.inj (hold.symm.trans hinfo)
    -- the supply is the old one, so the sum of the tiers is the old sum
    have hsum : old.currentSupply = (old.tiers.set tierId tier).sum _ := hsupplied.supply
    rw [OrdMap.sum_set, (h _ _ hold).supply] at hsum
    have hsold : old.soldOf tierId = ((old.tiers.get tierId).map _).getD 0 := rfl
    omega
  all_goals exact True.intro

/-- **Ticket supply.** In every state of a run the tickets sold stay within the limits and add up
to the supply exactly if the tiers handed in by the callers do. -/
theorem supply_kept_iff {steps : List (Step host)} (hw : Fresh host w) :
    (∀ pre, pre <+: steps → Stocked (run step w pre)) ↔ Along step (OnCalls Restocks) w steps := by
  have hstart : Stocked w := by
    obtain ⟨_, -, rfl⟩ := hw
    intro id info hinfo
    cases hinfo
  exact catalog_iff (fun _ _ _ hk h hC hok => step_stocked hk h hC hok) (fun _ h => h)
    (fun _ _ _ hk h hok h' => restocks_of_stocked hk h hok h') hw hstart

end Runs

namespace Sample

theorem args_tier {e id : String} {t : TicketTier} (h : (args e).tiers.get id = some t) :
    t = tier 0 := by
  have hmem : (id, t) ∈ [("hall", tier 0)] := OrdMap.get_eq_some.mp h
  exact (Prod.mk.inj (List.mem_singleton.mp hmem)).2

/-- Two tickets are sold. -/
def soldRun : List (Step node) :=
  listedRun ++ [byAdmin (.setTicketPaymentContract payments),
    byPayments (.incrementInventory "e1" "hall" alice 2 usdc)]

/-- Then the organizer adds the tier again. -/
def replacedRun : List (Step node) := soldRun ++ [byOrganizer (.addTier "e1" "hall" (tier 0))]

end Sample

open Sample in
theorem supply_kept_sold :
    (∀ pre, pre <+: soldRun ++ [byOrganizer (.addTier "e1" "hall" (tier 2))] →
      Stocked (run step deployed pre)) ∧
    ((run step deployed soldRun).catalog.event "e1").map (·.currentSupply) = some 2 := by
  refine ⟨(supply_kept_iff deployed_fresh).mpr ?_, by decide⟩
  refine ⟨fun _ _ => True.intro, fun _ _ id t ht => ?_, fun _ _ => True.intro,
    fun _ _ => True.intro, fun _ _ => ⟨by decide, by decide, fun info hinfo => ?_⟩, True.intro⟩
  · rw [args_tier ht]
    decide
  · have hsold : ((run step deployed soldRun).catalog.event "e1").map (·.soldOf "hall") = some 2 := by
      decide
    rw [show (run step deployed soldRun).catalog.event "e1" = some info from hinfo] at hsold
    exact (Option.some.inj hsold).symm

open Sample in
theorem supply_not_kept_replaced :
    Fresh node deployed ∧ ¬ Stocked (run step deployed replacedRun) := by
  refine ⟨deployed_fresh, fun h => ?_⟩
  have hstored : ((run step deployed replacedRun).catalog.event "e1").map
      (fun info => (info.currentSupply, info.tiers.sum TicketTier.currentSold)) = some (2, 0) := by
    decide
  obtain ⟨info, hinfo, heq⟩ := Option.map_eq_some_iff.mp hstored
  have hsupply := (h "e1" info hinfo).supply
  rw [Prod.mk.injEq] at heq
  omega

end Agora.EventRegistry
