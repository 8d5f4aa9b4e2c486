import Agora.TicketPayment.Contract

/-!
# Discount hashes of other events

The registered hashes are one table for all events. Replacing the table
commutes with every call that neither registers hashes nor presents one
(`call_withHashes`), so two runs that register different hashes stay the same
up to the table for as long as no purchase presents a hash that only one of
them has registered.
-/

namespace Agora.TicketPayment

open Lib Function

/-- The contract with another table of registered hashes. -/
def World.withHashes (H : Bytes32 → Bool) (w : World) : World :=
  { w with policy.discountCodeHash := H }

def Batch.withHashes (H : Bytes32 → Bool) (b : Batch) : Batch :=
  { b with world := b.world.withHashes H }

variable {host : Host} {env : Env host} {w w0 : World} {H : Bytes32 → Bool} {e : String}

/-! ## Purchases -/

theorem applyCodePreimage_withHashes {o : Option Bytes} {x : Int}
    (hsame : ∀ b, o = some b → H (host.sha256 b) = w.policy.discountCodeHash (host.sha256 b)) :
    applyCodePreimage host (w.withHashes H) o x = applyCodePreimage host w o x := by
  cases o with
  | none => rfl
  | some b =>
    have hreg : (w.withHashes H).policy.discountCodeHash (host.sha256 b) =
        w.policy.discountCodeHash (host.sha256 b) := hsame b rfl
    simp only [applyCodePreimage]
    rw [hreg]
    rfl

theorem applyDiscountCode_withHashes (o : Option String) (x : Int) :
    applyDiscountCode env (w.withHashes H) e o x =
      (fun r => (r.1, r.2.withHashes H)) <$> applyDiscountCode env w e o x := by
  cases o with
  | none => rfl
  | some c =>
    simp only [applyDiscountCode, map_bind, map_pure]
    rfl

theorem checkWalletLimit_withHashes (buyer : Address) (n : Nat) :
    checkWalletLimit (w.withHashes H) e buyer n =
      World.withHashes H <$> checkWalletLimit w e buyer n := by
  simp only [checkWalletLimit, map_bind, map_pure, map_if]
  rfl

theorem notePriceSwitch_withHashes (tier : TicketTier) (i : String) :
    notePriceSwitch env (w.withHashes H) tier e i =
      (notePriceSwitch env w tier e i).withHashes H := by
  rw [notePriceSwitch, notePriceSwitch, apply_ite (World.withHashes H)]
  rfl

theorem issueTickets_withHashes (a : Purchase) (now : Nat) (q : Quote) :
    issueTickets a now q (w.withHashes H) = (issueTickets a now q w).withHashes H :=
  List.foldl_hom (World.withHashes H) fun _ _ => rfl

/-- A purchase sees the table only at the hash that it presents. -/
theorem processPayment_withHashes (a : Purchase)
    (hsame : ∀ b, a.options.codePreimage = some b →
      H (host.sha256 b) = w.policy.discountCodeHash (host.sha256 b)) :
    processPayment env (w.withHashes H) a =
      (fun r => (r.1, r.2.withHashes H)) <$> processPayment env w a := by
  have hmark : ∀ (w : World) (l : Ledger) (o : Option Bytes32),
      { w.withHashes H with ledger := l }.markDiscountHashUsed o =
        ({ w with ledger := l }.markDiscountHashUsed o).withHashes H :=
    fun w l o => by cases o <;> rfl
  simp only [processPayment, map_bind, map_pure, applyCodePreimage_withHashes hsame,
    applyDiscountCode_withHashes, bind_map_left, checkWalletLimit_withHashes,
    notePriceSwitch_withHashes, hmark, issueTickets_withHashes]
  rfl

/-! ## Batches -/

theorem bulkRefundOne_withHashes (b : Batch) (i : String) :
    bulkRefundOne env e (b.withHashes H) i = Batch.withHashes H <$> bulkRefundOne env e b i := by
  unfold bulkRefundOne
  have hpay : (b.withHashes H).world.ledger.payment i = b.world.ledger.payment i := rfl
  rw [hpay]
  cases b.world.ledger.payment i with
  | none => rfl
  | some p =>
    simp only [map_bind, map_pure, map_if]
    rfl

theorem partialRefundOne_withHashes (pct : Nat) (b : Batch) (i : String) :
    partialRefundOne env e pct (b.withHashes H) i =
      Batch.withHashes H <$> partialRefundOne env e pct b i := by
  unfold partialRefundOne
  have hpay : (b.withHashes H).world.ledger.payment i = b.world.ledger.payment i := rfl
  rw [hpay]
  cases b.world.ledger.payment i with
  | none => rfl
  | some p =>
    simp only [map_bind, map_pure, map_if]
    rfl

theorem cascadeRefundOne_withHashes (acc : World × Nat) (i : String) :
    cascadeRefundOne env e (acc.1.withHashes H, acc.2) i =
      (fun r => (r.1.withHashes H, r.2)) <$> cascadeRefundOne env e acc i := by
  unfold cascadeRefundOne
  have hpay : (acc.1.withHashes H).ledger.payment i = acc.1.ledger.payment i := rfl
  rw [hpay]
  cases acc.1.ledger.payment i with
  | none => rfl
  | some p =>
    simp only [map_bind, map_pure, map_if]
    rfl

theorem Batch.finish_withHashes (b : Batch) :
    (b.withHashes H).finish e = World.withHashes H <$> b.finish e := by
  simp only [Batch.finish, map_bind, map_pure, map_if]
  rfl

theorem Batch.start_withHashes (w : World) :
    (⟨w.withHashes H, (w.withHashes H).ledger.balances e, 0, 0⟩ : Batch) =
      Batch.withHashes H ⟨w, w.ledger.balances e, 0, 0⟩ := rfl

theorem triggerBulkRefund_withHashes (n : Nat) :
    triggerBulkRefund env (w.withHashes H) e n =
      (fun r => (r.1, r.2.withHashes H)) <$> triggerBulkRefund env w e n := by
  have hloop (ids : List String) (b : Batch) :
      ids.foldlM (bulkRefundOne env e) (b.withHashes H) =
        Batch.withHashes H <$> ids.foldlM (bulkRefundOne env e) b :=
    foldlM_map bulkRefundOne_withHashes ids b
  simp only [triggerBulkRefund, map_bind, map_pure, map_if, Batch.start_withHashes, hloop,
    bind_map_left, Batch.finish_withHashes]
  rfl

theorem issuePartialRefund_withHashes (pct n : Nat) :
    issuePartialRefund env (w.withHashes H) e pct n =
      (fun r => (r.1, r.2.withHashes H)) <$> issuePartialRefund env w e pct n := by
  have hlock : (w.withHashes H).lockPercentage e pct = (w.lockPercentage e pct).withHashes H := by
    rw [World.lockPercentage, World.lockPercentage, apply_ite (World.withHashes H)]
    rfl
  have hloop (pct : Nat) (ids : List String) (b : Batch) :
      ids.foldlM (partialRefundOne env e pct) (b.withHashes H) =
        Batch.withHashes H <$> ids.foldlM (partialRefundOne env e pct) b :=
    foldlM_map (partialRefundOne_withHashes pct) ids b
  simp only [issuePartialRefund, hlock, map_bind, map_pure, map_if, Batch.start_withHashes, hloop,
    bind_map_left, Batch.finish_withHashes]
  rfl

theorem triggerDisputeRefundCascade_withHashes :
    triggerDisputeRefundCascade env (w.withHashes H) e =
      (fun r => (r.1, r.2.withHashes H)) <$> triggerDisputeRefundCascade env w e := by
  have hloop : (w.index.getEventPayments e).foldlM (cascadeRefundOne env e) (w.withHashes H, 0) =
      _ <$> (w.index.getEventPayments e).foldlM (cascadeRefundOne env e) (w, 0) :=
    foldlM_map cascadeRefundOne_withHashes (w.index.getEventPayments e) (w, 0)
  simp only [triggerDisputeRefundCascade, map_bind, map_pure]
  refine bind_congr fun _ => ?_
  refine bind_congr fun _ => ?_
  refine bind_congr fun _ => ?_
  refine bind_congr fun _ => ?_
  refine bind_congr fun _ => ?_
  refine (congrArg (· >>= _) hloop).trans ?_
  rw [bind_map_left]

/-! ## Calls -/

theorem applyChange_withHashes (c : ParameterChange) :
    applyChange (w.withHashes H) c = World.withHashes H <$> applyChange w c := by
  cases c <;> simp only [applyChange, setSlippageBps, map_bind, map_pure, map_if] <;> rfl

theorem countAgainstCap_withHashes (t : Address) (x : Int) :
    countAgainstCap env (w.withHashes H) t x =
      World.withHashes H <$> countAgainstCap env w t x := by
  simp only [countAgainstCap, map_bind, map_pure, map_if]
  rfl

theorem confirmPayment_withHashes (i h : String) :
    confirmPayment env (w.withHashes H) i h = World.withHashes H <$> confirmPayment env w i h := by
  simp only [confirmPayment, map_bind]
  refine bind_congr fun _ => ?_
  refine bind_congr fun _ => ?_
  have hpay : (w.withHashes H).ledger.payment i = w.ledger.payment i := rfl
  rw [hpay]
  cases w.ledger.payment i <;> rfl

/-- The call registers discount hashes. -/
def Op.addsHashes : Op → Bool
  | .addDiscountHashes .. => true
  | _ => false

/-- The preimage that a call presents. -/
def Op.preimage : Op → Option Bytes
  | .processPayment a => a.options.codePreimage
  | _ => none

/-- **Frame.** A call that registers no hash sees the table only at the hash
that it presents. -/
theorem call_withHashes {op : Op} (hno : op.addsHashes = false)
    (hsame : ∀ b, op.preimage = some b →
      H (host.sha256 b) = w.policy.discountCodeHash (host.sha256 b)) :
    call env (w.withHashes H) op = World.withHashes H <$> call env w op := by
  cases op <;> simp only [call, Functor.map_map]
  case addDiscountHashes => cases hno
  case processPayment a => simp only [processPayment_withHashes a hsame, Functor.map_map]
  case confirmPayment => exact confirmPayment_withHashes ..
  case triggerBulkRefund => simp only [triggerBulkRefund_withHashes, Functor.map_map]
  case issuePartialRefund => simp only [issuePartialRefund_withHashes, Functor.map_map]
  case triggerDisputeRefundCascade =>
    simp only [triggerDisputeRefundCascade_withHashes, Functor.map_map]
  case executeProposal =>
    simp only [executeProposal, map_bind, map_pure, applyChange_withHashes, bind_map_left]
    rfl
  case withdrawPlatformFees =>
    simp only [withdrawPlatformFees, map_bind, map_pure, countAgainstCap_withHashes,
      bind_map_left]
    rfl
  case initializeContract => simp only [initializeContract, map_bind, map_pure]; rfl
  case setPause => simp only [setPause, map_bind, map_pure]; rfl
  case setEventDispute => simp only [setEventDispute, map_bind, map_pure]; rfl
  case createDiscountCode => simp only [createDiscountCode, map_bind, map_pure]; rfl
  case setMaxTicketsPerWallet => simp only [setMaxTicketsPerWallet, map_bind, map_pure]; rfl
  case setOracle => simp only [setOracle, map_bind, map_pure]; rfl
  case setSlippage => simp only [setSlippage, setSlippageBps, map_bind, map_pure]; rfl
  case setWithdrawalCap => simp only [setWithdrawalCap, map_bind, map_pure]; rfl
  case setTransferFee => simp only [setTransferFee, map_bind, map_pure]; rfl
  case setAffiliateRate => simp only [setAffiliateRate, map_bind, map_pure]; rfl
  case setResaleRoyaltyBps => simp only [setResaleRoyaltyBps, map_bind, map_pure]; rfl
  case proposeParameterChange => simp only [proposeParameterChange, map_bind, map_pure]; rfl
  case voteOnProposal => simp only [voteOnProposal, map_bind, map_pure]; rfl
  case proposeEscrowWithdrawal => simp only [proposeEscrowWithdrawal, map_bind, map_pure]; rfl
  case approveEscrowWithdrawal =>
    simp only [approveEscrowWithdrawal, map_bind, map_pure, map_if]
    rfl
  case executeEscrowWithdrawal => simp only [executeEscrowWithdrawal, map_bind, map_pure]; rfl
  case requestGuestRefund =>
    simp only [requestGuestRefund, internalRefund, map_bind, map_pure]
    rfl
  case requestRefund => simp only [requestRefund, internalRefund, map_bind, map_pure]; rfl
  case adminRefund => simp only [adminRefund, internalRefund, map_bind, map_pure]; rfl
  case claimAutomaticRefund =>
    simp only [claimAutomaticRefund, internalRefund, map_bind, map_pure]
    rfl
  case claimCancellationRefund => simp only [claimCancellationRefund, map_bind, map_pure]; rfl
  case cancelEvent => simp only [cancelEvent, map_bind, map_pure]; rfl
  case checkIn => simp only [checkIn, map_bind, map_pure, map_if]; rfl
  case mintPoap => simp only [mintPoap, map_bind, map_pure]; rfl
  case withdrawOrganizerFunds =>
    simp only [withdrawOrganizerFunds, map_bind, map_pure, map_if]
    rfl
  case settlePlatformFees => simp only [settlePlatformFees, map_bind, map_pure, map_if]; rfl
  case claimRevenue => simp only [claimRevenue, map_bind, map_pure]; rfl
  case releaseMilestoneEscrow =>
    simp only [releaseMilestoneEscrow, map_bind, map_pure, map_if]
    rfl
  case transferTicket => simp only [transferTicket, map_bind, map_pure]; rfl
  case listForResale => simp only [listForResale, map_bind, map_pure]; rfl
  case cancelResaleListing => simp only [cancelResaleListing, map_bind, map_pure]; rfl
  case purchaseResaleTicket => simp only [purchaseResaleTicket, map_bind, map_pure]; rfl
  case placeBid => simp only [placeBid, map_bind, map_pure]; rfl
  case closeAuction => simp only [closeAuction, map_bind, map_pure]; rfl

/-! ## Two runs -/

/-- The step registers discount hashes, for any event. -/
def AddsHashes : Step host → Prop
  | .call _ op => op.addsHashes = true
  | .outside .. => False

/-- A hash that the step presents is registered in both states or in neither. -/
def KnownAlike (w1 w2 : World) : Step host → Prop
  | .call _ op => ∀ b, op.preimage = some b →
      w1.policy.discountCodeHash (host.sha256 b) = w2.policy.discountCodeHash (host.sha256 b)
  | .outside .. => True

/-- The states differ in the table of hashes at most. -/
def SameButHashes (w1 w2 : World) : Prop := ∃ H, w2 = w1.withHashes H

/-- Registering hashes changes nothing else, whether it succeeds or not. -/
theorem commit_addsHashes {s : Step host} (h : AddsHashes s) :
    ∃ H, commit step w s = w.withHashes H := by
  rcases commit_cases step w s with hok | hno
  · cases s with
    | outside => cases h
    | call env op =>
      cases op <;> first | (cases h; done) | skip
      case addDiscountHashes e hs =>
        simp only [step, call, addDiscountHashes, bind_eq_ok, pure_eq_ok] at hok
        obtain ⟨_, -, _, -, _, -, _, -, _, -, heq⟩ := hok
        exact ⟨_, heq.symm⟩
  · exact ⟨w.policy.discountCodeHash, hno⟩

theorem SameButHashes.left {w1 w2 : World} {s : Step host} (h : SameButHashes w1 w2)
    (hs : AddsHashes s) : SameButHashes (commit step w1 s) w2 := by
  obtain ⟨H, rfl⟩ := h
  obtain ⟨H', heq⟩ := commit_addsHashes (w := w1) hs
  exact ⟨H, by rw [heq]; rfl⟩

theorem SameButHashes.right {w1 w2 : World} {s : Step host} (h : SameButHashes w1 w2)
    (hs : AddsHashes s) : SameButHashes w1 (commit step w2 s) := by
  obtain ⟨H, rfl⟩ := h
  obtain ⟨H', heq⟩ := commit_addsHashes (w := w1.withHashes H) hs
  exact ⟨H', heq⟩

/-- A step that registers nothing runs alike in both states. -/
theorem step_withHashes {s : Step host} (hno : ¬ AddsHashes s)
    (hsame : KnownAlike w (w.withHashes H) s) :
    step (w.withHashes H) s = World.withHashes H <$> step w s := by
  cases s with
  | outside tokens sent => rfl
  | call env op =>
    exact call_withHashes (by simpa [AddsHashes] using hno) fun b hb => (hsame b hb).symm

theorem SameButHashes.both {w1 w2 : World} {s : Step host} (h : SameButHashes w1 w2)
    (hs : KnownAlike w1 w2 s) : SameButHashes (commit step w1 s) (commit step w2 s) := by
  by_cases hadds : AddsHashes s
  · exact (h.left hadds).right hadds
  · obtain ⟨H, rfl⟩ := h
    have hstep := step_withHashes hadds hs
    cases hok : step w1 s with
    | ok w' =>
      rw [hok] at hstep
      exact ⟨H, by rw [commit_of_ok hok, commit_of_ok hstep]⟩
    | error f =>
      rw [hok] at hstep
      exact ⟨H, by rw [commit_of_error hok, commit_of_error hstep]⟩

/-- What a purchase returns and what it takes from the buyer, or how it fails. -/
def purchaseOutcome (env : Env host) (w : World) (a : Purchase) : Tx (String × Int) :=
  (fun r => (r.1, w.ledger.tokens.balance a.tokenAddress a.buyerAddress -
    r.2.ledger.tokens.balance a.tokenAddress a.buyerAddress)) <$> processPayment env w a

/-- **Confinement.** Take two runs that differ only in calls that register
hashes, for any events. As long as no purchase presents a hash that is
registered in one of them only, every purchase has the same outcome and the
same charge in both. -/
theorem purchases_confined {left right : List (Step host)} {a : Purchase}
    (h : Twin step AddsHashes KnownAlike w0 w0 left right)
    (hlast : KnownAlike (run step w0 left) (run step w0 right)
      (.call env (.processPayment a))) :
    purchaseOutcome env (run step w0 left) a = purchaseOutcome env (run step w0 right) a := by
  obtain ⟨H, heq⟩ : SameButHashes (run step w0 left) (run step w0 right) :=
    h.rel (fun _ _ _ hR hC => hR.both hC) (fun _ _ _ hR hD => hR.left hD)
      (fun _ _ _ hR hD => hR.right hD) ⟨w0.policy.discountCodeHash, rfl⟩
  rw [heq] at hlast ⊢
  have hframe : processPayment env ((run step w0 left).withHashes H) a = _ :=
    processPayment_withHashes a fun b hb => (hlast b hb).symm
  simp only [purchaseOutcome, hframe, Functor.map_map]
  rfl

namespace Sample

/-- A registry in which a guest runs the event `eA` and the organizer all others. -/
def twoOrganizers : Registry :=
  { registry event with
    getEvent := fun e =>
      if e = "eA" then some { event with organizerAddress := bob } else some event }

/-- The organizer of `eA` registers a hash for it. -/
def addHash : Step node :=
  .call (signedBy bob bob_ne_self 1000 twoOrganizers) (.addDiscountHashes "eA" [emptyDigest])

/-- An order for another event, with or without the preimage. -/
def orderWith (preimage : Option Bytes) : Purchase :=
  { order "t1" "e1" alice usdc 1 with options := ⟨preimage, none, none, none⟩ }

def buying : Env node := signedBy alice alice_ne_self 1000 twoOrganizers

end Sample

theorem purchases_confined_plain :
    (purchaseOutcome Sample.buying (run step Sample.deployed [Sample.start, Sample.addHash])
        (Sample.orderWith none)).toOption = some ("t1", 1000) ∧
      purchaseOutcome Sample.buying (run step Sample.deployed [Sample.start, Sample.addHash])
          (Sample.orderWith none) =
        purchaseOutcome Sample.buying (run step Sample.deployed [Sample.start])
          (Sample.orderWith none) := by
  refine ⟨by decide, purchases_confined (.both ?_ (.left rfl .nil)) ?_⟩
  · intro b hb
    cases hb
  · intro b hb
    cases hb

/-- The hash that the organizer of `eA` registers takes 10% off a ticket of
another organizer's event, whose buyer is refused without it. -/
theorem purchases_not_confined_hash :
    Twin step AddsHashes (fun _ _ _ => True) Sample.deployed Sample.deployed
        [Sample.start, Sample.addHash] [Sample.start] ∧
      (Sample.twoOrganizers.getEvent "eA").map (·.organizerAddress) ≠
        (Sample.twoOrganizers.getEvent "e1").map (·.organizerAddress) ∧
      (purchaseOutcome Sample.buying (run step Sample.deployed [Sample.start, Sample.addHash])
        (Sample.orderWith (some []))).toOption = some ("t1", 900) ∧
      purchaseOutcome Sample.buying (run step Sample.deployed [Sample.start])
        (Sample.orderWith (some [])) = .error (.error .invalidDiscountCode) :=
  ⟨.both trivial (.left rfl .nil), by decide, by decide, rfl⟩

end Agora.TicketPayment
