import Agora.Indexer.Order
import Agora.TicketPayment.Inversion

/-!
# The table of tickets

The events that the payment contract publishes about its tickets (`events.rs`)
are delivered by the RPC and applied by the indexer. The contract names the
guest `buyer_address` when it sells a ticket, and the indexer looks for `buyer`
and `owner`. So a ticket that enters the table has no owner, and the table
mirrors the contract in every state of a run exactly when no sale of the run
enters it (`tickets_mirrored_iff`).
-/

namespace Agora.System.TicketMirror

open Lib

open TicketPayment (Op World Fault)

open Indexer (Setting SorobanEvent Tables Change EventKind eventKindForTopic applyAll applyAll_eq)

variable {host : Host} {σ : Setting}

/-! ## Published events -/

inductive AgoraEvent where
  | paymentProcessed | paymentStatusChanged | contractInitialized | contractUpgraded
  | ticketTransferred | priceSwitched | bulkRefundProcessed | discountCodeApplied | revenueClaimed
  | feeSettled | globalPromoApplied | contractPaused | disputeStatusChanged
  | partialRefundProcessed | ticketCheckedIn | bidPlaced | auctionClosed | proposalCreated
  | proposalVoted | governanceActionExecuted | contractVerificationFailed | resaleListed
  | resaleCancelled | resalePurchased | poapMinted | eventCancelled | cancellationRefundClaimed
  | escrowWithdrawalProposed | escrowWithdrawalApproved | escrowWithdrawalExecuted
  | milestoneReleased
  deriving DecidableEq

/-- The symbol that the variant is encoded as. -/
def AgoraEvent.symbol : AgoraEvent → String
  | .paymentProcessed => "PaymentProcessed"
  | .paymentStatusChanged => "PaymentStatusChanged"
  | .contractInitialized => "ContractInitialized"
  | .contractUpgraded => "ContractUpgraded"
  | .ticketTransferred => "TicketTransferred"
  | .priceSwitched => "PriceSwitched"
  | .bulkRefundProcessed => "BulkRefundProcessed"
  | .discountCodeApplied => "DiscountCodeApplied"
  | .revenueClaimed => "RevenueClaimed"
  | .feeSettled => "FeeSettled"
  | .globalPromoApplied => "GlobalPromoApplied"
  | .contractPaused => "ContractPaused"
  | .disputeStatusChanged => "DisputeStatusChanged"
  | .partialRefundProcessed => "PartialRefundProcessed"
  | .ticketCheckedIn => "TicketCheckedIn"
  | .bidPlaced => "BidPlaced"
  | .auctionClosed => "AuctionClosed"
  | .proposalCreated => "ProposalCreated"
  | .proposalVoted => "ProposalVoted"
  | .governanceActionExecuted => "GovernanceActionExecuted"
  | .contractVerificationFailed => "ContractVerificationFailed"
  | .resaleListed => "ResaleListed"
  | .resaleCancelled => "ResaleCancelled"
  | .resalePurchased => "ResalePurchased"
  | .poapMinted => "PoapMinted"
  | .eventCancelled => "EventCancelled"
  | .cancellationRefundClaimed => "CancellationRefundClaimed"
  | .escrowWithdrawalProposed => "EscrowWithdrawalProposed"
  | .escrowWithdrawalApproved => "EscrowWithdrawalApproved"
  | .escrowWithdrawalExecuted => "EscrowWithdrawalExecuted"
  | .milestoneReleased => "MilestoneReleased"

/-- What the indexer takes the topics for. -/
def AgoraEvent.kind : AgoraEvent → EventKind
  | .paymentProcessed => .processPurchase
  | .bulkRefundProcessed | .partialRefundProcessed | .cancellationRefundClaimed => .refund
  | .ticketTransferred => .transferTicket
  | _ => .unhandled

theorem kind_symbol (topic : AgoraEvent) : eventKindForTopic topic.symbol = topic.kind := by
  cases topic <;> rfl

/-- An event of the contract: its fields that are strings or addresses, and the names of its other
fields. -/
structure Published where
  topic : AgoraEvent
  texts : List (String × String)
  others : List String

namespace Published

def paymentProcessed (paymentId eventId : String) (buyerAddress : Address) : Published :=
  ⟨.paymentProcessed,
    [("payment_id", paymentId), ("event_id", eventId), ("buyer_address", buyerAddress.strkey)],
    ["amount", "platform_fee", "timestamp"]⟩

def paymentStatusChanged (paymentId transactionHash : String) : Published :=
  ⟨.paymentStatusChanged, [("payment_id", paymentId), ("transaction_hash", transactionHash)],
    ["old_status", "new_status", "timestamp"]⟩

def ticketTransferred (paymentId : String) (from_ to_ : Address) : Published :=
  ⟨.ticketTransferred, [("payment_id", paymentId), ("from", from_.strkey), ("to", to_.strkey)],
    ["transfer_fee", "timestamp"]⟩

def resalePurchased (paymentId : String) (seller buyer : Address) : Published :=
  ⟨.resalePurchased,
    [("payment_id", paymentId), ("seller", seller.strkey), ("buyer", buyer.strkey)],
    ["price", "royalty", "timestamp"]⟩

def bulkRefundProcessed (eventId : String) : Published :=
  ⟨.bulkRefundProcessed, [("event_id", eventId)], ["refund_count", "total_refunded", "timestamp"]⟩

def partialRefundProcessed (eventId : String) : Published :=
  ⟨.partialRefundProcessed, [("event_id", eventId)],
    ["refund_count", "total_refunded", "percentage_bps", "timestamp"]⟩

def cancellationRefundClaimed (paymentId eventId : String) (buyer : Address) : Published :=
  ⟨.cancellationRefundClaimed,
    [("payment_id", paymentId), ("event_id", eventId), ("buyer", buyer.strkey)],
    ["amount", "timestamp"]⟩

end Published

/-- The events that a successful call publishes on the sale, the holder and the refund of tickets.
The others have topics that the indexer does not handle (`AgoraEvent.kind`). -/
def published (w : World) : Op → List Published
  | .processPayment a => [.paymentProcessed a.paymentId a.eventId a.buyerAddress]
  | .closeAuction paymentId eventId ticketTierId =>
    match w.ledger.highestBid (eventId, ticketTierId) with
    | some bid => [.paymentProcessed paymentId eventId bid.bidder]
    | none => []
  | .confirmPayment paymentId transactionHash => [.paymentStatusChanged paymentId transactionHash]
  | .requestGuestRefund paymentId | .adminRefund paymentId | .claimAutomaticRefund paymentId =>
    [.paymentStatusChanged paymentId "refund"]
  | .claimCancellationRefund paymentId =>
    match w.ledger.payment paymentId with
    | some p => [.cancellationRefundClaimed paymentId p.eventId p.buyerAddress]
    | none => []
  | .triggerBulkRefund eventId _ =>
    if (w.index.getEventPayments eventId).length ≤ w.cursors.bulkRefundIndex eventId then []
    else [.bulkRefundProcessed eventId]
  | .issuePartialRefund eventId _ _ =>
    if (w.index.getEventPayments eventId).length ≤ w.cursors.partialRefundIndex eventId then []
    else [.partialRefundProcessed eventId]
  | .triggerDisputeRefundCascade eventId => [.bulkRefundProcessed eventId]
  | .transferTicket paymentId to_ _ =>
    match w.ledger.payment paymentId with
    | some p => [.ticketTransferred paymentId p.buyerAddress to_]
    | none => []
  | .purchaseResaleTicket paymentId buyer _ =>
    match w.ledger.resaleListing paymentId with
    | some listing => [.resalePurchased paymentId listing.seller buyer]
    | none => []
  | _ => []

/-! ## Delivery -/

/-- The RPC delivers the event, and its XDR is read as it was written. -/
structure Delivers (σ : Setting) (p : Published) (raw : SorobanEvent) : Prop where
  contract : raw.contractId = σ.config.ticketPaymentContractId
  topic : Indexer.decodeTopicSymbol σ.fromXdr raw.topic.head? = p.topic.symbol
  texts : ∀ key ∉ p.others,
    (Indexer.normalizePayload σ.fromXdr raw.value).text key = p.texts.lookup key

/-- The contract and the tables of the indexer. -/
structure State where
  payments : World
  tables : Tables

/-- A step of the contract, and its events as the RPC delivers them. -/
structure Step (host : Host) where
  action : TicketPayment.Step host
  events : List SorobanEvent

def Step.published (s : State) (a : Step host) : List Published :=
  match a.action with
  | .call _ op => TicketMirror.published s.payments op
  | .outside .. => []

/-- The contract takes the step, and the indexer applies its events. -/
def step (σ : Setting) (s : State) (a : Step host) : Except Fault State := do
  let w ← TicketPayment.step s.payments a.action
  return ⟨w, applyAll σ a.events s.tables⟩

def Delivered (σ : Setting) (s : State) (a : Step host) : Prop :=
  List.Forall₂ (Delivers σ) (a.published s) a.events

/-! ## The mirror -/

/-- Each ticket of the table is revoked exactly when its payment is refunded, and belongs to the
holder of the payment. -/
def Mirrors (s : State) : Prop :=
  ∀ id ticket, s.tables.tickets id = some ticket → ∃ p, s.payments.ledger.payment id = some p ∧
    (ticket.status = .revoked ↔ p.status = .refunded) ∧
    ticket.ownerWallet = some p.buyerAddress.strkey

/-- The id is the UUID of a row in the table of events. -/
def Known (σ : Setting) (eventId : String) : Prop :=
  eventId ≠ "" ∧ ∃ uuid, σ.db.castUuid eventId = some uuid ∧ σ.db.events uuid = true

/-- The step sells no ticket of an event that the indexer knows. -/
def Unlisted (σ : Setting) (a : Step host) : Prop :=
  match a.action with
  | .call _ (.processPayment p) => ¬ Known σ p.eventId
  | .call _ (.closeAuction _ eventId _) => ¬ Known σ eventId
  | _ => True

section Delivery

variable {p : Published} {raw : SorobanEvent}

theorem change_of_delivers (h : Delivers σ p raw) : σ.change raw =
    match p.topic.kind with
    | .processPurchase =>
      let event := raw.decode σ.fromXdr raw.ledger
      let payload := event.asPurchase
      let stellarId := if payload.paymentId = "" then event.id else payload.paymentId
      match if payload.eventId = "" then none else σ.db.castUuid payload.eventId with
      | none => .nothing
      | some uuid =>
        if σ.db.events uuid then
          .insert stellarId ⟨some uuid, payload.buyer, payload.owner.or payload.buyer, .unused⟩
        else .nothing
    | .refund =>
      let event := raw.decode σ.fromXdr raw.ledger
      let payload := event.asRefund
      .revoke (if payload.paymentId = "" then event.id else payload.paymentId)
        (σ.db.parseStr payload.eventId)
    | .transferTicket =>
      let payload := (raw.decode σ.fromXdr raw.ledger).asTransfer
      match payload.to_ with
      | none => .nothing
      | some to_ => if payload.paymentId = "" then .nothing else .setOwner to_ payload.paymentId
    | _ => .nothing := by
  have hkind : (raw.decode σ.fromXdr raw.ledger).kind = p.topic.kind :=
    (congrArg eventKindForTopic h.topic).trans (kind_symbol p.topic)
  have hcontract : (raw.decode σ.fromXdr raw.ledger).contractId =
      σ.config.ticketPaymentContractId := h.contract
  rw [← hkind]
  exact if_pos hcontract

/-- The sale as the indexer reads it: the guest is under a key that it does not look up. -/
theorem asPurchase_of_delivers {paymentId eventId : String} {buyer : Address}
    (h : Delivers σ (.paymentProcessed paymentId eventId buyer) raw) :
    let payload := (raw.decode σ.fromXdr raw.ledger).asPurchase
    payload.paymentId = paymentId ∧ payload.eventId = eventId ∧ payload.buyer = none ∧
      payload.owner = none := by
  have hpayment := h.texts "payment_id" (by simp [Published.paymentProcessed])
  have hevent := h.texts "event_id" (by simp [Published.paymentProcessed])
  have hbuyer := h.texts "buyer" (by simp [Published.paymentProcessed])
  have howner := h.texts "owner" (by simp [Published.paymentProcessed])
  simp only [Indexer.IndexedEvent.asPurchase, SorobanEvent.decode, Indexer.decode, hpayment, hevent,
    hbuyer, howner]
  exact ⟨rfl, rfl, rfl, rfl⟩

theorem change_of_sale {paymentId eventId : String} {buyer : Address}
    (h : Delivers σ (.paymentProcessed paymentId eventId buyer) raw) :
    (¬ Known σ eventId → σ.change raw = .nothing) ∧
    (Known σ eventId → ∃ id eventId, σ.change raw = .insert id ⟨eventId, none, none, .unused⟩) := by
  obtain ⟨hpayment, hevent, hbuyer, howner⟩ := asPurchase_of_delivers h
  have hchange := change_of_delivers h
  simp only [Published.paymentProcessed, AgoraEvent.kind, hpayment, hevent, hbuyer, howner] at hchange
  constructor
  · intro hunknown
    by_cases hid : eventId = ""
    · simpa only [hid, if_true] using hchange
    · cases huuid : σ.db.castUuid eventId with
      | none => simpa only [hid, if_false, huuid] using hchange
      | some uuid =>
        have hevents : σ.db.events uuid ≠ true := fun hevents =>
          hunknown ⟨hid, uuid, huuid, hevents⟩
        rw [hchange]
        simp only [hid, if_false, huuid]
        exact if_neg hevents
  · rintro ⟨hid, uuid, huuid, hevents⟩
    exact ⟨_, _, by simpa only [hid, if_false, huuid, hevents, if_true, Option.or] using hchange⟩

theorem tickets_none_of_delivers {t : Tables} (h : Delivers σ p raw)
    (hsale : p.topic.kind = .processPurchase → σ.change raw = .nothing)
    (ht : ∀ id, t.tickets id = none) : ∀ id, ((σ.change raw).apply t).tickets id = none := by
  intro id
  have hadd : ∀ stellarId ticket, σ.change raw ≠ .insert stellarId ticket := by
    intro stellarId ticket hinsert
    have hchange := change_of_delivers h
    rw [hinsert] at hchange
    cases hkind : p.topic.kind with
    | processPurchase => exact absurd (hinsert.symm.trans (hsale hkind)) (by simp)
    | refund => simp [hkind] at hchange
    | transferTicket =>
      simp only [hkind] at hchange
      split at hchange
      · cases hchange
      · split at hchange <;> cases hchange
    | _ => simp [hkind] at hchange
  simp only [Change.apply_tickets, ht]
  cases hc : σ.change raw with
  | insert stellarId ticket => exact absurd hc (hadd stellarId ticket)
  | _ => rfl

end Delivery

/-! ## Runs -/

variable {s s' : State} {a : Step host}

theorem step_eq_ok : step σ s a = .ok s' ↔
    ∃ w, TicketPayment.step s.payments a.action = .ok w ∧ ⟨w, applyAll σ a.events s.tables⟩ = s' := by
  simp only [step, bind_eq_ok, pure_eq_ok]

theorem tickets_none {ps : List Published} {raws : List SorobanEvent} {t : Tables}
    (h : List.Forall₂ (Delivers σ) ps raws)
    (hsale : ∀ p ∈ ps, p.topic.kind = .processPurchase →
      ∀ raw, Delivers σ p raw → σ.change raw = .nothing)
    (ht : ∀ id, t.tickets id = none) : ∀ id, (applyAll σ raws t).tickets id = none := by
  rw [applyAll_eq]
  induction h generalizing t with
  | nil => exact ht
  | cons hhead _ ih =>
    rw [List.foldl_cons]
    refine ih (fun p hp => hsale p (List.mem_cons_of_mem _ hp)) ?_
    exact tickets_none_of_delivers hhead (fun hk => hsale _ List.mem_cons_self hk _ hhead) ht

theorem sale_of_published {w : World} {op : Op} {p : Published} (hp : p ∈ published w op)
    (hk : p.topic.kind = .processPurchase) :
    (∃ order, op = .processPayment order ∧
      p = .paymentProcessed order.paymentId order.eventId order.buyerAddress) ∨
    ∃ paymentId eventId tier buyer, op = .closeAuction paymentId eventId tier ∧
      p = .paymentProcessed paymentId eventId buyer := by
  cases op with
  | processPayment order => exact .inl ⟨order, rfl, List.mem_singleton.mp hp⟩
  | closeAuction paymentId eventId tier =>
    simp only [published] at hp
    split at hp
    · exact .inr ⟨paymentId, eventId, tier, _, rfl, List.mem_singleton.mp hp⟩
    · cases hp
  | _ =>
    exfalso
    simp only [published] at hp
    (try split at hp) <;> simp only [List.mem_singleton, List.not_mem_nil] at hp <;>
      (subst hp; cases hk)

/-- A sale of the step, which the indexer does not know. -/
theorem Unlisted.sale (h : Unlisted σ a) {p : Published} (hp : p ∈ a.published s)
    (hk : p.topic.kind = .processPurchase) {raw : SorobanEvent} (hraw : Delivers σ p raw) :
    σ.change raw = .nothing := by
  unfold Step.published at hp
  unfold Unlisted at h
  split at hp
  · next env op haction =>
    rw [haction] at h
    rcases sale_of_published hp hk with ⟨order, rfl, rfl⟩ | ⟨paymentId, eventId, tier, _, rfl, rfl⟩
    · exact (change_of_sale hraw).1 h
    · exact (change_of_sale hraw).1 h
  · cases hp

/-- A sale that enters the table of tickets leaves it with a ticket that has no owner. -/
theorem not_mirrors_of_sale {paymentId eventId : String} {buyer : Address}
    (hs : ∀ id, s.tables.tickets id = none) (hknown : Known σ eventId)
    (hevents : List.Forall₂ (Delivers σ) [.paymentProcessed paymentId eventId buyer] a.events)
    (htables : s'.tables = applyAll σ a.events s.tables) : ¬ Mirrors s' := by
  intro hmirrors
  obtain ⟨raw, rest, hraw, hrest, hraws⟩ := List.forall₂_cons_left_iff.mp hevents
  cases List.forall₂_nil_left_iff.mp hrest
  obtain ⟨id, uuid, hchange⟩ := (change_of_sale hraw).2 hknown
  have hrow : s'.tables.tickets id = some ⟨uuid, none, none, .unused⟩ := by
    rw [htables, hraws, applyAll_eq, List.foldl_cons, List.foldl_nil, hchange]
    simp [Change.apply_tickets, Change.onTicket, hs id]
  obtain ⟨p, -, -, howner⟩ := hmirrors id _ hrow
  cases howner

/-- **The table of tickets mirrors the contract** in every state of a run exactly when no sale of
the run is of an event that the indexer knows. -/
theorem tickets_mirrored_iff (w : World) (t : Tables) (ht : ∀ id, t.tickets id = none)
    (steps : List (Step host)) (h : Along (step σ) (Delivered σ) ⟨w, t⟩ steps) :
    (∀ bs, bs <+: steps → Mirrors (run (step σ) ⟨w, t⟩ bs)) ↔
      Along (step σ) (fun _ a => Unlisted σ a) ⟨w, t⟩ steps := by
  refine Along.iff_forall_prefix_of (I := fun s => ∀ id, s.tables.tickets id = none) ?_ ?_ ?_ h ht
  · intro s a s' hs hdelivered hunlisted hok
    obtain ⟨w, -, rfl⟩ := step_eq_ok.mp hok
    exact tickets_none hdelivered (fun p hp hk raw hraw => hunlisted.sale hp hk hraw) hs
  · intro s hs id ticket hid
    rw [hs id] at hid
    cases hid
  · intro s a s' hs hdelivered hok hmirrors
    obtain ⟨w, hw, rfl⟩ := step_eq_ok.mp hok
    unfold Unlisted
    split
    · next env order haction =>
      intro hknown
      have hevents : List.Forall₂ (Delivers σ) _ a.events := hdelivered
      simp only [Step.published, haction, published] at hevents
      exact not_mirrors_of_sale hs hknown hevents rfl hmirrors
    · next env paymentId eventId tier haction =>
      intro hknown
      have hevents : List.Forall₂ (Delivers σ) _ a.events := hdelivered
      rw [haction] at hw
      obtain ⟨info, bid, -, -, -, hbid, -⟩ := TicketPayment.closeAuction_eq hw
      simp only [Step.published, haction, published, hbid] at hevents
      exact not_mirrors_of_sale hs hknown hevents rfl hmirrors
    · trivial

namespace Box

open TicketPayment.Sample
open Indexer.Sample (box hall)

/-- The event as a node renders it. -/
def encode (p : Published) : SorobanEvent where
  id := "a"
  ledger := 1
  contractId := box.config.ticketPaymentContractId
  topic := [p.topic.symbol]
  value := .obj (p.texts.map (fun x => (x.1, .str x.2)) ++ p.others.map fun key => (key, .num 0))

theorem text_encode {key : String} {others : List String} (hkey : key ∉ others)
    (texts : List (String × String)) :
    (Indexer.Json.obj (texts.map (fun x => (x.1, .str x.2)) ++
      others.map fun key => (key, .num 0))).text key = texts.lookup key := by
  simp only [Indexer.Json.text, Indexer.Json.get]
  induction texts with
  | nil =>
    have hnone : (others.map fun key => (key, Indexer.Json.num 0)).lookup key = none := by
      rw [List.lookup_eq_none_iff]
      intro x hx
      obtain ⟨other, hother, rfl⟩ := List.mem_map.mp hx
      simpa using fun heq : key = other => hkey (heq ▸ hother)
    simp [hnone]
  | cons x texts ih =>
    rw [List.map_cons, List.cons_append, List.lookup_cons, List.lookup_cons]
    split
    · rfl
    · exact ih

theorem delivers_encode (p : Published) : Delivers box p (encode p) where
  contract := rfl
  topic := rfl
  texts key hkey := by
    have hplain : ∀ value, Indexer.normalizePayload box.fromXdr value = value := by
      intro value
      unfold Indexer.normalizePayload
      dsimp only
      split <;> rfl
    rw [hplain]
    exact text_encode hkey p.texts

/-- A guest buys one ticket. -/
def sale (eventId : String) : List (Step node) :=
  [⟨start, []⟩,
    ⟨byAlice event (.processPayment (order "t1" eventId alice usdc 1)),
      [encode (.paymentProcessed "t1" eventId alice)]⟩]

def installed : State := ⟨deployed, ⟨fun _ => none, []⟩⟩

theorem delivered_sale (eventId : String) :
    Along (step box) (Delivered box) installed (sale eventId) :=
  ⟨fun _ _ => .nil, fun _ _ => .cons (delivers_encode _) .nil, trivial⟩

end Box

open Box TicketPayment.Sample in
open Indexer.Sample (box hall) in
theorem tickets_mirrored_unlisted :
    ((run (step box) installed (sale "e1")).payments.ledger.payment "t1").isSome ∧
      ∀ bs, bs <+: sale "e1" → Mirrors (run (step box) installed bs) := by
  refine ⟨by decide, (tickets_mirrored_iff deployed _ (fun _ => rfl) (sale "e1")
    (delivered_sale "e1")).mpr ⟨fun _ _ => trivial, fun _ _ => ?_, trivial⟩⟩
  rintro ⟨-, uuid, huuid, -⟩
  exact absurd huuid (by simp [box, hall, order])

open Box TicketPayment.Sample in
open Indexer.Sample (box hall) in
/-- The guest holds the payment, and the ticket of the table belongs to nobody. -/
theorem ticket_without_owner :
    let s := run (step box) installed (sale hall)
    Along (step box) (Delivered box) installed (sale hall) ∧
      (s.payments.ledger.payment "t1").map (·.buyerAddress) = some alice ∧
      s.tables.tickets "t1" = some ⟨some ⟨1⟩, none, none, .unused⟩ ∧ ¬ Mirrors s := by
  intro s
  have hrow : s.tables.tickets "t1" = some ⟨some ⟨1⟩, none, none, .unused⟩ := by decide
  refine ⟨delivered_sale hall, by decide, hrow, fun hmirrors => ?_⟩
  obtain ⟨p, -, -, howner⟩ := hmirrors "t1" _ hrow
  cases howner

end Agora.System.TicketMirror
