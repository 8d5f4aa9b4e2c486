import Agora.Host
import Agora.Lib.Int128
import Mathlib.Logic.Function.Basic

/-!
# Disputes of the event registry

The disputes of `dispute.rs` with their storage: a ticket holder opens the
dispute of an event up to 48 hours after its end, anyone votes once in the next
48 hours, and anyone resolves it after that. A call comes with its context: the
ledger time, who signed, and what the dispute code reads of the rest of the
registry and of the payment contract. `Ruled ctx d op d'` lists once what a
successful call does. Time-to-live extension is not modelled.
-/

namespace Agora.EventRegistry

open Lib Function

inductive DisputeStatus where
  | open_
  | voting
  | resolvedBuyer
  | resolvedOrganizer
  | expired
  deriving DecidableEq, Repr

inductive DisputeVote where
  | buyerFavor
  | organizerFavor
  deriving DecidableEq, Repr

structure Dispute where
  eventId : String
  openedBy : Address
  openedAt : Nat
  closesAt : Nat
  status : DisputeStatus
  totalVotes : Nat
  buyerVotes : Nat
  organizerVotes : Nat
  quorumThresholdBps : Nat
  totalEligibleTickets : Int
  deriving DecidableEq, Repr

/-- Open or under vote. -/
def Dispute.pending (d : Dispute) : Bool := d.status == .open_ || d.status == .voting

inductive EventRegistryError where
  | eventAlreadyExists | eventNotFound | unauthorized | invalidAddress | invalidFeePercent
  | eventInactive | notInitialized | alreadyInitialized | invalidMetadataCid | maxSupplyExceeded
  | supplyOverflow | tierLimitExceeds | tierNotFound | tierSoldOut | supplyUnderflow
  | invalidQuantity | organizerBlacklisted | orgNotBlacklisted | invalidResaleCapBps
  | invalidPromoBps | eventCancelled | eventAlreadyCanceled | invalidGracePeriod | eventIsActive
  | alreadyStaked | notStaked | invalidStakeAmount | stakingNotConfigured | noRewardsAvailable
  | invalidRewardAmount | invalidThreshold | propAlreadyExecuted | eventNotEnded
  | invalidMilestonePlan | invalidTags | proposalExpired | multisigError | propAlreadyCanceled
  | perUserLimitExceeded | invalidDeadline | alreadyOnWaitlist | notOnWaitlist | tooManyTiers
  | tokenNotAccepted | disputeNotFound | disputeNotOpen | alreadyVoted | notTicketHolder
  | replayAttackDetected | insufficientSignatures | invalidPrice
  deriving DecidableEq, Repr

/-- Why an invocation failed: an error of the contract, a panic, a missing signature or a
token's failure. -/
inductive Fault where
  | error (e : EventRegistryError)
  | panic (msg : String)
  | auth (who : Address)
  | token (f : TokenFault)
  deriving DecidableEq, Repr

abbrev Tx := Except Fault

/-- An operator of the release build, which checks for overflow. -/
def arith {α : Type} (o : Option α) : Tx α := okOr (.panic "attempt to overflow") o

/-- `checked_...().ok_or(SupplyOverflow)?`. -/
def checked {α : Type} (o : Option α) : Tx α := okOr (.error .supplyOverflow) o

@[simp] theorem arith_eq_ok {α : Type} {o : Option α} {a : α} : arith o = .ok a ↔ o = some a :=
  okOr_eq_ok

@[simp] theorem checked_eq_ok {α : Type} {o : Option α} {a : α} : checked o = .ok a ↔ o = some a :=
  okOr_eq_ok

/-- The stored disputes and votes. -/
structure Disputes where
  dispute : String → Option Dispute
  vote : String × Address → Option DisputeVote
  voteShard : String × Nat → List Address
  voteCount : String → Nat

/-- No dispute was ever opened. -/
def Disputes.empty : Disputes := ⟨fun _ => none, fun _ => none, fun _ => [], fun _ => 0⟩

/-- The context of one call: the end of an event is that of its stored record. -/
structure Context where
  timestamp : Nat
  auth : Address → Bool
  endTime : String → Option Nat
  ticketPaymentContract : Option Address
  hasConfirmedTicket : String → Address → Bool

def requireAuth (ctx : Context) (a : Address) : Tx Unit := ensure (ctx.auth a = true) (.auth a)

@[simp] theorem requireAuth_eq_ok {ctx : Context} {a : Address} {u : Unit} :
    requireAuth ctx a = .ok u ↔ ctx.auth a = true := ensure_eq_ok

def disputeVotingDuration : Nat := 172800

def defaultQuorumBps : Nat := 3000

def disputeShardSize : Nat := 50

namespace Disputes

variable (d : Disputes)

@[simp] def storeDispute (x : Dispute) : Disputes :=
  { d with dispute := update d.dispute x.eventId (some x) }

def addDisputeVote (eventId : String) (voter : Address) : Tx Disputes := do
  let count := d.voteCount eventId
  let shard := (eventId, count / disputeShardSize)
  let next ← arith (checkedAddNat 32 count 1)
  return { d with
    voteShard := update d.voteShard shard (d.voteShard shard ++ [voter])
    voteCount := update d.voteCount eventId next }

def getDisputeVotes (eventId : String) : List DisputeVote :=
  let count := d.voteCount eventId
  if count = 0 then [] else
    (List.range ((count + disputeShardSize - 1) / disputeShardSize)).flatMap fun i =>
      (d.voteShard (eventId, i)).filterMap fun voter => d.vote (eventId, voter)

def hasVoted (eventId : String) (voter : Address) : Bool := (d.vote (eventId, voter)).isSome

@[simp] def storeDisputeVote (eventId : String) (voter : Address) (vote : DisputeVote) : Disputes :=
  { d with vote := update d.vote (eventId, voter) (some vote) }

end Disputes

/-- `end_time == 0 || now > end_time + 172800` is refused. -/
def requireDisputeWindow (ctx : Context) (endTime : Nat) : Tx Unit := do
  ensure (endTime ≠ 0) (.error .eventNotEnded)
  let last ← arith (checkedAddNat 64 endTime 172800)
  ensure (ctx.timestamp ≤ last) (.error .eventNotEnded)

/-- A dispute without votes. -/
def newDispute (eventId : String) (openedBy : Address) (now closesAt : Nat) : Dispute where
  eventId := eventId
  openedBy := openedBy
  openedAt := now
  closesAt := closesAt
  status := .open_
  totalVotes := 0
  buyerVotes := 0
  organizerVotes := 0
  quorumThresholdBps := defaultQuorumBps
  totalEligibleTickets := 0

def openDispute (ctx : Context) (d : Disputes) (eventId : String) (openedBy : Address) :
    Tx Disputes := do
  requireAuth ctx openedBy
  let endTime ← okOr (.error .eventNotFound) (ctx.endTime eventId)
  ensure (d.dispute eventId = none) (.error .eventAlreadyExists)
  requireDisputeWindow ctx endTime
  let _ ← okOr (.error .notInitialized) ctx.ticketPaymentContract
  ensure (ctx.hasConfirmedTicket eventId openedBy = true) (.error .notTicketHolder)
  let closesAt ← arith (checkedAddNat 64 ctx.timestamp disputeVotingDuration)
  return d.storeDispute (newDispute eventId openedBy ctx.timestamp closesAt)

/-- One more vote in the tally. -/
def Dispute.count (x : Dispute) (vote : DisputeVote) : Tx Dispute := do
  let total ← checked (checkedAddNat 32 x.totalVotes 1)
  match vote with
  | .buyerFavor => do
    let buyer ← checked (checkedAddNat 32 x.buyerVotes 1)
    return { x with totalVotes := total, buyerVotes := buyer }
  | .organizerFavor => do
    let organizer ← checked (checkedAddNat 32 x.organizerVotes 1)
    return { x with totalVotes := total, organizerVotes := organizer }

def voteOnDispute (ctx : Context) (d : Disputes) (eventId : String) (voter : Address)
    (vote : DisputeVote) : Tx Disputes := do
  requireAuth ctx voter
  let x ← okOr (.error .disputeNotFound) (d.dispute eventId)
  ensure (x.pending = true) (.error .disputeNotOpen)
  ensure (ctx.timestamp < x.closesAt) (.error .proposalExpired)
  ensure (d.hasVoted eventId voter = false) (.error .alreadyVoted)
  let x : Dispute := { x with status := if x.status = .open_ then .voting else x.status }
  let x ← x.count vote
  let d := d.storeDisputeVote eventId voter vote
  let d ← d.addDisputeVote eventId voter
  return d.storeDispute x

/-- The outcome of the tally. -/
def Dispute.outcome (x : Dispute) : Tx DisputeStatus := do
  let buyerBps ← checked (checkedMulNat 32 x.buyerVotes 10000)
  let meetsQuorum := decide (0 < x.totalVotes ∧ x.quorumThresholdBps ≤ buyerBps / x.totalVotes)
  return if meetsQuorum ∧ x.organizerVotes < x.buyerVotes then .resolvedBuyer
    else .resolvedOrganizer

def resolveDispute (ctx : Context) (d : Disputes) (eventId : String) :
    Tx (DisputeStatus × Disputes) := do
  let x ← okOr (.error .disputeNotFound) (d.dispute eventId)
  ensure (x.closesAt < ctx.timestamp) (.error .proposalExpired)
  if x.status = .resolvedBuyer ∨ x.status = .resolvedOrganizer then return (x.status, d) else
    let status ← x.outcome
    return (status, d.storeDispute { x with status := status })

/-- A call of one entry point. -/
inductive DisputeOp where
  | openDispute (eventId : String) (openedBy : Address)
  | voteOnDispute (eventId : String) (voter : Address) (vote : DisputeVote)
  | resolveDispute (eventId : String)
  deriving DecidableEq

def disputeCall (ctx : Context) (d : Disputes) : DisputeOp → Tx Disputes
  | .openDispute e a => openDispute ctx d e a
  | .voteOnDispute e a v => voteOnDispute ctx d e a v
  | .resolveDispute e => Prod.snd <$> resolveDispute ctx d e

/-! ## When a dispute can be opened -/

section Open

variable {ctx : Context} {d d' : Disputes} {e : String} {a : Address}

theorem requireDisputeWindow_eq_ok {endTime : Nat} {u : Unit} :
    requireDisputeWindow ctx endTime = .ok u ↔
      endTime ≠ 0 ∧ endTime + 172800 < 2 ^ 64 ∧ ctx.timestamp ≤ endTime + 172800 := by
  simp only [requireDisputeWindow, bind_eq_ok, ensure_eq_ok, arith_eq_ok, checkedAddNat_eq_some,
    exists_const]
  constructor
  · rintro ⟨h0, _, ⟨hfit, rfl⟩, hnow⟩
    exact ⟨h0, hfit, hnow⟩
  · rintro ⟨h0, hfit, hnow⟩
    exact ⟨h0, _, ⟨hfit, rfl⟩, hnow⟩

theorem openDispute_eq_ok :
    openDispute ctx d e a = .ok d' ↔
      ctx.auth a = true ∧ d.dispute e = none ∧ ctx.hasConfirmedTicket e a = true ∧
        (∃ r, ctx.ticketPaymentContract = some r) ∧
        (∃ endTime, ctx.endTime e = some endTime ∧ endTime ≠ 0 ∧ endTime + 172800 < 2 ^ 64 ∧
          ctx.timestamp ≤ endTime + 172800) ∧
        ctx.timestamp + disputeVotingDuration < 2 ^ 64 ∧
        d' = d.storeDispute
          (newDispute e a ctx.timestamp (ctx.timestamp + disputeVotingDuration)) := by
  simp only [openDispute, bind_eq_ok, requireAuth_eq_ok, okOr_eq_ok, ensure_eq_ok, arith_eq_ok,
    checkedAddNat_eq_some, requireDisputeWindow_eq_ok, pure_eq_ok, exists_const]
  constructor
  · rintro ⟨ha, endTime, he, hn, hwin, r, hr, ht, _, ⟨hfit, rfl⟩, rfl⟩
    exact ⟨ha, hn, ht, ⟨r, hr⟩, ⟨endTime, he, hwin⟩, hfit, rfl⟩
  · rintro ⟨ha, hn, ht, ⟨r, hr⟩, ⟨endTime, he, hwin⟩, hfit, rfl⟩
    exact ⟨ha, endTime, he, hn, hwin, r, hr, ht, _, ⟨hfit, rfl⟩, rfl⟩

end Open

/-! ## What a call does -/

/-- The record with one more vote. -/
def Dispute.voted (x : Dispute) : DisputeVote → Dispute
  | .buyerFavor =>
    { x with status := .voting, totalVotes := x.totalVotes + 1, buyerVotes := x.buyerVotes + 1 }
  | .organizerFavor =>
    { x with
      status := .voting
      totalVotes := x.totalVotes + 1
      organizerVotes := x.organizerVotes + 1 }

/-- The votes so far for a side. -/
def Dispute.votesFor (x : Dispute) : DisputeVote → Nat
  | .buyerFavor => x.buyerVotes
  | .organizerFavor => x.organizerVotes

/-- Decided for one of the sides. -/
def Dispute.resolved (x : Dispute) : Prop :=
  x.status = .resolvedBuyer ∨ x.status = .resolvedOrganizer

/-- The side that the votes decide for. -/
def Dispute.winner (x : Dispute) : DisputeStatus :=
  if (0 < x.totalVotes ∧ x.quorumThresholdBps ≤ x.buyerVotes * 10000 / x.totalVotes) ∧
      x.organizerVotes < x.buyerVotes then .resolvedBuyer
  else .resolvedOrganizer

/-- The disputes with one more vote on the dispute `x` of the event. -/
def Disputes.cast (d : Disputes) (e : String) (x : Dispute) (voter : Address) (vote : DisputeVote) :
    Disputes where
  dispute := update d.dispute x.eventId (some (x.voted vote))
  vote := update d.vote (e, voter) (some vote)
  voteShard := update d.voteShard (e, d.voteCount e / disputeShardSize)
    (d.voteShard (e, d.voteCount e / disputeShardSize) ++ [voter])
  voteCount := update d.voteCount e (d.voteCount e + 1)

inductive Ruled (ctx : Context) (d : Disputes) : DisputeOp → Disputes → Prop where
  | opened {e : String} {a : Address} (isNew : d.dispute e = none) :
      Ruled ctx d (.openDispute e a)
        (d.storeDispute (newDispute e a ctx.timestamp (ctx.timestamp + disputeVotingDuration)))
  | voted {e : String} {a : Address} {v : DisputeVote} {x : Dispute}
      (stored : d.dispute e = some x) (pending : x.pending = true)
      (timely : ctx.timestamp < x.closesAt) (first : d.vote (e, a) = none) :
      Ruled ctx d (.voteOnDispute e a v) (d.cast e x a v)
  | again {e : String} {x : Dispute} (stored : d.dispute e = some x) (resolved : x.resolved) :
      Ruled ctx d (.resolveDispute e) d
  | decided {e : String} {x : Dispute} (stored : d.dispute e = some x) (undecided : ¬ x.resolved)
      (room : x.buyerVotes * 10000 < 2 ^ 32) :
      Ruled ctx d (.resolveDispute e) (d.storeDispute { x with status := x.winner })

section Calls

variable {ctx : Context} {d d' : Disputes} {e : String} {a : Address} {v : DisputeVote}
  {x y : Dispute} {st : DisputeStatus} {op : DisputeOp}

theorem Dispute.winner_cases (x : Dispute) :
    x.winner = .resolvedBuyer ∨ x.winner = .resolvedOrganizer := by
  unfold Dispute.winner
  split
  · exact .inl rfl
  · exact .inr rfl

theorem count_eq_ok :
    Dispute.count { x with status := .voting } v = .ok y ↔
      x.totalVotes + 1 < 2 ^ 32 ∧ x.votesFor v + 1 < 2 ^ 32 ∧ y = x.voted v := by
  cases v
  all_goals
    simp only [Dispute.count, bind_eq_ok, checked_eq_ok, checkedAddNat_eq_some, pure_eq_ok]
    constructor
    · rintro ⟨_, ⟨htotal, rfl⟩, _, ⟨hside, rfl⟩, rfl⟩
      exact ⟨htotal, hside, rfl⟩
    · rintro ⟨htotal, hside, rfl⟩
      exact ⟨_, ⟨htotal, rfl⟩, _, ⟨hside, rfl⟩, rfl⟩

theorem Dispute.status_of_pending (h : x.pending = true) :
    (if x.status = .open_ then .voting else x.status) = DisputeStatus.voting := by
  unfold Dispute.pending at h
  cases hst : x.status <;> simp_all

theorem voteOnDispute_eq_ok :
    voteOnDispute ctx d e a v = .ok d' ↔
      ∃ x, ctx.auth a = true ∧ d.dispute e = some x ∧ x.pending = true ∧
        ctx.timestamp < x.closesAt ∧ d.vote (e, a) = none ∧ x.totalVotes + 1 < 2 ^ 32 ∧
        x.votesFor v + 1 < 2 ^ 32 ∧ d.voteCount e + 1 < 2 ^ 32 ∧ d' = d.cast e x a v := by
  simp only [voteOnDispute, Disputes.addDisputeVote, Disputes.hasVoted, bind_eq_ok,
    requireAuth_eq_ok, okOr_eq_ok, ensure_eq_ok, arith_eq_ok, checkedAddNat_eq_some, pure_eq_ok,
    Option.isSome_eq_false_iff, Option.isNone_iff_eq_none, exists_const]
  constructor
  · rintro ⟨ha, x, hx, hpend, htime, hnew, y, hy, _, ⟨_, ⟨hcount, rfl⟩, rfl⟩, rfl⟩
    rw [Dispute.status_of_pending hpend] at hy
    obtain ⟨htotal, hside, rfl⟩ := count_eq_ok.mp hy
    refine ⟨x, ha, hx, hpend, htime, hnew, htotal, hside, hcount, ?_⟩
    cases v <;> rfl
  · rintro ⟨x, ha, hx, hpend, htime, hnew, htotal, hside, hcount, rfl⟩
    refine ⟨ha, x, hx, hpend, htime, hnew, x.voted v, ?_, _, ⟨_, ⟨hcount, rfl⟩, rfl⟩, ?_⟩
    · rw [Dispute.status_of_pending hpend]
      exact count_eq_ok.mpr ⟨htotal, hside, rfl⟩
    · cases v <;> rfl

theorem outcome_eq_ok :
    x.outcome = .ok st ↔ x.buyerVotes * 10000 < 2 ^ 32 ∧ st = x.winner := by
  simp only [Dispute.outcome, bind_eq_ok, checked_eq_ok, checkedMulNat_eq_some, pure_eq_ok,
    decide_eq_true_eq]
  constructor
  · rintro ⟨_, ⟨hroom, rfl⟩, rfl⟩
    exact ⟨hroom, rfl⟩
  · rintro ⟨hroom, rfl⟩
    exact ⟨_, ⟨hroom, rfl⟩, rfl⟩

theorem resolveDispute_eq_ok :
    resolveDispute ctx d e = .ok (st, d') ↔
      ∃ x, d.dispute e = some x ∧ x.closesAt < ctx.timestamp ∧
        (x.resolved ∧ st = x.status ∧ d' = d ∨
          ¬ x.resolved ∧ x.buyerVotes * 10000 < 2 ^ 32 ∧ st = x.winner ∧
            d' = d.storeDispute { x with status := x.winner }) := by
  simp only [resolveDispute, bind_eq_ok, okOr_eq_ok, ensure_eq_ok, exists_const]
  refine exists_congr fun x => and_congr_right fun _ => and_congr_right fun _ => ?_
  by_cases hres : x.resolved
  · have hif : x.status = .resolvedBuyer ∨ x.status = .resolvedOrganizer := hres
    simp only [if_pos hif, pure_eq_ok, Prod.mk.injEq, hres, true_and, not_true, false_and, or_false]
    constructor
    · rintro ⟨rfl, rfl⟩
      exact ⟨rfl, rfl⟩
    · rintro ⟨rfl, rfl⟩
      exact ⟨rfl, rfl⟩
  · have hif : ¬ (x.status = .resolvedBuyer ∨ x.status = .resolvedOrganizer) := hres
    simp only [if_neg hif, bind_eq_ok, outcome_eq_ok, pure_eq_ok, Prod.mk.injEq, hres, false_and,
      not_false_iff, true_and, false_or]
    constructor
    · rintro ⟨_, ⟨hroom, rfl⟩, rfl, rfl⟩
      exact ⟨hroom, rfl, rfl⟩
    · rintro ⟨hroom, rfl, rfl⟩
      exact ⟨_, ⟨hroom, rfl⟩, rfl, rfl⟩

/-- **What a call does to the disputes.** -/
theorem disputeCall_ruled (h : disputeCall ctx d op = .ok d') : Ruled ctx d op d' := by
  cases op with
  | openDispute e a =>
    obtain ⟨-, hnew, -, -, -, -, rfl⟩ := openDispute_eq_ok.mp h
    exact .opened hnew
  | voteOnDispute e a v =>
    obtain ⟨x, -, hx, hpend, htime, hnew, -, -, -, rfl⟩ := voteOnDispute_eq_ok.mp h
    exact .voted hx hpend htime hnew
  | resolveDispute e =>
    obtain ⟨st, h⟩ := snd_map_eq_ok.mp h
    obtain ⟨x, hx, -, ⟨hres, -, rfl⟩ | ⟨hres, hroom, -, rfl⟩⟩ := resolveDispute_eq_ok.mp h
    · exact .again hx hres
    · exact .decided hx hres hroom

end Calls

/-! ## The life of a dispute -/

section Life

variable {ctx : Context} {d d' : Disputes} {op : DisputeOp} {e : String} {x y : Dispute}

namespace Disputes

/-- Every dispute is stored under its event. -/
def Keyed (d : Disputes) : Prop := ∀ e x, d.dispute e = some x → x.eventId = e

/-- The event has a dispute that is open or under vote. -/
def Pending (d : Disputes) (e : String) : Prop := ∃ x, d.dispute e = some x ∧ x.pending = true

/-- The event has a dispute that the buyers won. -/
def Won (d : Disputes) (e : String) : Prop :=
  ∃ x, d.dispute e = some x ∧ x.status = .resolvedBuyer

end Disputes

/-- A call writes at most one dispute, and none that is resolved. -/
theorem disputeCall_writes (hk : d.Keyed) (h : disputeCall ctx d op = .ok d') :
    d'.dispute = d.dispute ∨ ∃ e y, d'.dispute = update d.dispute e (some y) ∧ y.eventId = e ∧
      ∀ x, d.dispute e = some x → ¬ x.resolved := by
  cases disputeCall_ruled h with
  | @opened e a isNew =>
    refine .inr ⟨e, _, rfl, rfl, fun x hx => ?_⟩
    rw [isNew] at hx
    cases hx
  | @voted e a v x stored pending =>
    have hkey := hk e x stored
    refine .inr ⟨e, x.voted v, ?_, by cases v <;> exact hkey, fun y hy hr => ?_⟩
    · rw [Disputes.cast, hkey]
    · obtain rfl := Option.some.inj (stored.symm.trans hy)
      rcases hr with hr | hr <;> simp [Dispute.pending, hr] at pending
  | again => exact .inl rfl
  | @decided e x stored undecided =>
    have hkey := hk e x stored
    refine .inr ⟨e, { x with status := x.winner }, ?_, hkey, fun y hy => ?_⟩
    · rw [Disputes.storeDispute, hkey]
    · obtain rfl := Option.some.inj (stored.symm.trans hy)
      exact undecided

theorem Disputes.Keyed.call (hk : d.Keyed) (h : disputeCall ctx d op = .ok d') : d'.Keyed := by
  intro e x hx
  rcases disputeCall_writes hk h with hsame | ⟨e', y, hd, hy, -⟩
  · exact hk e x (hsame ▸ hx)
  · rw [hd] at hx
    by_cases he : e = e'
    · subst he
      rw [update_self, Option.some.injEq] at hx
      exact hx ▸ hy
    · rw [update_of_ne he] at hx
      exact hk e x hx

theorem Disputes.Won.call (hw : d.Won e) (hk : d.Keyed) (h : disputeCall ctx d op = .ok d') :
    d'.Won e := by
  obtain ⟨x, hx, hwon⟩ := hw
  rcases disputeCall_writes hk h with hsame | ⟨e', y, hd, -, hopen⟩
  · exact ⟨x, by rwa [hsame], hwon⟩
  · have he : e ≠ e' := by
      rintro rfl
      exact hopen x hx (.inl hwon)
    exact ⟨x, by rwa [hd, update_of_ne he], hwon⟩

end Life

end Agora.EventRegistry
