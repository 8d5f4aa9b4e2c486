import Agora.EventRegistry.Types
import Agora.TicketPayment.Interfaces

/-!
# Values between the contracts

What one contract returns reaches the other as a host value: a record is a map
from the names of its fields, and it is read back only as a record of exactly
these fields. The payment contract declares the records of the registry once
more (`interfaces.rs`). Milestones and auctions are declared alike; a ticket
tier and an event have other fields than in the registry (`types.rs`), so no
stored event is ever read (`readEvent_eventVal`).
-/

namespace Agora.System

/-- A value between contracts. -/
inductive Val where
  | void
  | bool (b : Bool)
  | u32 (n : Nat)
  | u64 (n : Nat)
  | i128 (x : Int)
  | string (s : String)
  | symbol (s : String)
  | address (a : Address)
  | vec (l : List Val)
  | map (entries : List (String × Val))
  | record (fields : List (String × Val))

namespace Val

def ofOption {α : Type} (f : α → Val) : Option α → Val
  | none => .void
  | some a => f a

def asBool : Val → Option Bool
  | .bool b => some b
  | _ => none

def asU32 : Val → Option Nat
  | .u32 n => some n
  | _ => none

def asU64 : Val → Option Nat
  | .u64 n => some n
  | _ => none

def asI128 : Val → Option Int
  | .i128 x => some x
  | _ => none

def asAddress : Val → Option Address
  | .address a => some a
  | _ => none

def asOption {α : Type} (read : Val → Option α) : Val → Option (Option α)
  | .void => some none
  | v => (read v).map some

def asVec {α : Type} (read : Val → Option α) : Val → Option (List α)
  | .vec l => l.mapM read
  | _ => none

def asMap {α : Type} (read : Val → Option α) : Val → Option (List (String × α))
  | .map entries => entries.mapM fun x => (read x.2).map fun a => (x.1, a)
  | _ => none

/-- The field of a record, when the record has exactly the fields `keys`. The host unpacks no other
map into a record. -/
def unpack (keys : List String) : Val → Option (String → Option Val)
  | .record fields =>
    if (fields.map Prod.fst).Perm keys then some fun key => fields.lookup key else none
  | _ => none

theorem unpack_of_length {keys : List String} {fields : List (String × Val)}
    (h : fields.length ≠ keys.length) : unpack keys (.record fields) = none := by
  rw [unpack, if_neg]
  intro hperm
  exact h (by simpa using hperm.length_eq)

end Val

/-! ## The registry's records -/

section Written

open EventRegistry

def statusVal : EventStatus → Val
  | .active => .vec [.symbol "Active"]
  | .inactive => .vec [.symbol "Inactive"]
  | .cancelled => .vec [.symbol "Cancelled"]

def auctionVal (a : AuctionConfig) : Val :=
  .record [("start_price", .i128 a.startPrice), ("end_time", .u64 a.endTime),
    ("min_increment", .i128 a.minIncrement)]

def milestoneVal (m : Milestone) : Val :=
  .record [("sales_threshold", .i128 m.salesThreshold), ("release_percent", .u32 m.releasePercent)]

def tierVal (t : TicketTier) : Val :=
  .record [("name", .string t.name), ("price", .i128 t.price), ("tier_limit", .i128 t.tierLimit),
    ("current_sold", .i128 t.currentSold), ("is_refundable", .bool t.isRefundable),
    ("auction_config", .vec (t.auctionConfig.map auctionVal)),
    ("loyalty_multiplier", .u32 t.loyaltyMultiplier), ("max_per_user", .u32 t.maxPerUser)]

def eventVal (e : EventInfo) : Val :=
  .record [("event_id", .string e.eventId), ("name", .string e.name),
    ("organizer_address", .address e.organizerAddress),
    ("payment_address", .address e.paymentAddress),
    ("platform_fee_percent", .u32 e.platformFeePercent), ("is_active", .bool e.isActive),
    ("status", statusVal e.status), ("created_at", .u64 e.createdAt),
    ("metadata_cid", .string e.metadataCid), ("max_supply", .i128 e.maxSupply),
    ("current_supply", .i128 e.currentSupply),
    ("milestone_plan", .ofOption (fun plan => .vec (plan.map milestoneVal)) e.milestonePlan),
    ("tiers", .map (e.tiers.entries.map fun x => (x.1, tierVal x.2))),
    ("refund_deadline", .u64 e.refundDeadline), ("restocking_fee", .i128 e.restockingFee),
    ("resale_cap_bps", .ofOption .u32 e.resaleCapBps), ("is_postponed", .bool e.isPostponed),
    ("grace_period_end", .u64 e.gracePeriodEnd), ("min_sales_target", .i128 e.minSalesTarget),
    ("target_deadline", .u64 e.targetDeadline), ("goal_met", .bool e.goalMet),
    ("custom_fee_bps", .ofOption .u32 e.customFeeBps),
    ("banner_cid", .ofOption .string e.bannerCid),
    ("tags", .ofOption (fun l => .vec (l.map .string)) e.tags),
    ("category_ids", .ofOption (fun l => .vec (l.map .u32)) e.categoryIds),
    ("start_time", .u64 e.startTime), ("is_private", .bool e.isPrivate),
    ("end_time", .u64 e.endTime), ("transfer_lock_duration", .u64 e.transferLockDuration),
    ("accepted_tokens", .vec (e.acceptedTokens.map .address)),
    ("use_global_whitelist", .bool e.useGlobalWhitelist),
    ("feedback_cid", .ofOption .string e.feedbackCid),
    ("cancellation_reason", .ofOption .string e.cancellationReason),
    ("referral_rate_bps", .u32 e.referralRateBps)]

end Written

/-! ## As the payment contract declares them -/

section Read

open TicketPayment

def statusOf : Val → Option EventStatus
  | .vec [.symbol "Active"] => some .active
  | .vec [.symbol "Inactive"] => some .inactive
  | .vec [.symbol "Cancelled"] => some .cancelled
  | _ => none

def readAuction (v : Val) : Option AuctionConfig := do
  let field ← v.unpack ["start_price", "end_time", "min_increment"]
  let startPrice ← (← field "start_price").asI128
  let endTime ← (← field "end_time").asU64
  let minIncrement ← (← field "min_increment").asI128
  return { startPrice, endTime, minIncrement }

def readMilestone (v : Val) : Option Milestone := do
  let field ← v.unpack ["sales_threshold", "release_percent"]
  let salesThreshold ← (← field "sales_threshold").asI128
  let releasePercent ← (← field "release_percent").asU32
  return { salesThreshold, releasePercent }

def tierKeys : List String :=
  ["name", "price", "early_bird_price", "early_bird_deadline", "usd_price", "tier_limit",
    "current_sold", "is_refundable", "auction_config", "loyalty_multiplier"]

def readTier (v : Val) : Option TicketTier := do
  let field ← v.unpack tierKeys
  let price ← (← field "price").asI128
  let earlyBirdPrice ← (← field "early_bird_price").asI128
  let earlyBirdDeadline ← (← field "early_bird_deadline").asU64
  let usdPrice ← (← field "usd_price").asI128
  let isRefundable ← (← field "is_refundable").asBool
  let auctionConfig ← (← field "auction_config").asVec readAuction
  return { price, earlyBirdPrice, earlyBirdDeadline, usdPrice, isRefundable, auctionConfig }

def eventKeys : List String :=
  ["event_id", "name", "organizer_address", "payment_address", "platform_fee_percent",
    "is_active", "status", "created_at", "metadata_cid", "max_supply", "current_supply",
    "milestone_plan", "tiers", "refund_deadline", "restocking_fee", "resale_cap_bps",
    "min_sales_target", "target_deadline", "goal_met", "custom_fee_bps", "banner_cid", "tags",
    "start_time", "end_time", "accepted_tokens", "use_global_whitelist", "referral_rate_bps"]

def readEvent (v : Val) : Option EventInfo := do
  let field ← v.unpack eventKeys
  let organizerAddress ← (← field "organizer_address").asAddress
  let paymentAddress ← (← field "payment_address").asAddress
  let platformFeePercent ← (← field "platform_fee_percent").asU32
  let isActive ← (← field "is_active").asBool
  let status ← statusOf (← field "status")
  let currentSupply ← (← field "current_supply").asI128
  let milestonePlan ← (← field "milestone_plan").asOption (Val.asVec readMilestone)
  let tiers ← (← field "tiers").asMap readTier
  let refundDeadline ← (← field "refund_deadline").asU64
  let restockingFee ← (← field "restocking_fee").asI128
  let resaleCapBps ← (← field "resale_cap_bps").asOption Val.asU32
  let minSalesTarget ← (← field "min_sales_target").asI128
  let targetDeadline ← (← field "target_deadline").asU64
  let goalMet ← (← field "goal_met").asBool
  let customFeeBps ← (← field "custom_fee_bps").asOption Val.asU32
  let endTime ← (← field "end_time").asU64
  let acceptedTokens ← (← field "accepted_tokens").asVec Val.asAddress
  let useGlobalWhitelist ← (← field "use_global_whitelist").asBool
  return { organizerAddress, paymentAddress, platformFeePercent, isActive, status, currentSupply,
           milestonePlan, tiers, refundDeadline, restockingFee, resaleCapBps, minSalesTarget,
           targetDeadline, goalMet, customFeeBps, endTime, acceptedTokens, useGlobalWhitelist }

end Read

/-! ## What passes -/

theorem readAuction_auctionVal (a : EventRegistry.AuctionConfig) :
    readAuction (auctionVal a) = some ⟨a.startPrice, a.endTime, a.minIncrement⟩ := rfl

theorem readMilestone_milestoneVal (m : EventRegistry.Milestone) :
    readMilestone (milestoneVal m) = some ⟨m.salesThreshold, m.releasePercent⟩ := rfl

/-- The registry's tier has no early bird and no price in dollars. -/
theorem readTier_tierVal (t : EventRegistry.TicketTier) : readTier (tierVal t) = none := by
  rw [readTier, tierVal, Val.unpack_of_length (by simp [tierKeys])]
  rfl

theorem readEvent_eventVal (e : EventRegistry.EventInfo) : readEvent (eventVal e) = none := by
  rw [readEvent, eventVal, Val.unpack_of_length (by simp [eventKeys])]
  rfl

end Agora.System
