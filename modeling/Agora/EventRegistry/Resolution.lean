import Agora.EventRegistry.Tally

/-!
# The outcome of a dispute

What a decision for the buyers rests on, and when a dispute can be decided at
all. The record of a dispute has a quorum in basis points, but the outcome
compares it with the part of the votes cast that are for the buyers, which a
majority always reaches; the number of tickets is not looked at. The product
of the votes for the buyers with 10000 has to fit into 32 bits.
-/

namespace Agora.EventRegistry

open Lib Function

variable {host : Host}

/-! ## The mandate -/

/-- The sold tickets of the event. -/
def soldTickets (w : World) (e : String) : Int :=
  match w.catalog.event e with
  | some info => info.currentSupply
  | none => 0

/-- Every vote on the event was cast by an address that held a confirmed ticket. -/
def VotedByHolders (e : String) (hist : List (World × Step host × World)) : Prop :=
  ∀ s env a v s', (s, .call env (.dispute (.voteOnDispute e a v)), s') ∈ hist →
    env.hasConfirmedTicket e a = true

/-- The turnout reaches the quorum of the sold tickets. -/
def Quorate (w : World) (e : String) (x : Dispute) : Prop :=
  x.quorumThresholdBps * soldTickets w e ≤ x.totalVotes * 10000

/-- What a decision for the buyers is to rest on. -/
structure Mandate (e : String) (hist : List (World × Step host × World)) (w : World) (x : Dispute) :
    Prop where
  holders : VotedByHolders e hist
  majority : x.organizerVotes < x.buyerVotes
  quorate : Quorate w e x

section Mandate

variable {env : Env host} {w : World} {steps : List (Step host)} {e : String} {st : DisputeStatus}
  {d : Disputes}

/-- The decision is for the buyers exactly if the votes are. -/
theorem resolved_buyer_iff {ctx : Context} {d' : Disputes} {x : Dispute}
    {ballots : List (Address × DisputeVote)} (h : Tallied d e ballots)
    (hx : d.dispute e = some x) (hok : resolveDispute ctx d e = .ok (st, d')) :
    st = .resolvedBuyer ↔ x.organizerVotes < x.buyerVotes := by
  have hcounts := h.record x hx
  obtain ⟨y, hy, -, hcase⟩ := resolveDispute_eq_ok.mp hok
  obtain rfl := Option.some.inj (hx.symm.trans hy)
  rw [← hcounts.winner_eq_buyer]
  rcases hcase with ⟨hres, rfl, -⟩ | ⟨-, -, rfl, -⟩
  · rw [(hcounts.decided hres).1]
  · rfl

/-- **A decision for the buyers.** It is taken exactly if they have the majority of the votes, so
it has the mandate exactly if that majority comes with votes of ticket holders only and with a
quorum of the sold tickets. -/
theorem buyer_decision_iff (hw : Fresh host w)
    (hok : resolveDispute (disputeContext env (run step w steps)) (run step w steps).disputes e =
      .ok (st, d)) :
    ∃ x, (run step w steps).disputes.dispute e = some x ∧
      (st = .resolvedBuyer ↔ x.organizerVotes < x.buyerVotes) ∧
      ((st = .resolvedBuyer → Mandate e (history step w steps) (run step w steps) x) ↔
        (x.organizerVotes < x.buyerVotes →
          VotedByHolders e (history step w steps) ∧ Quorate (run step w steps) e x)) := by
  obtain ⟨x, hx, -, -⟩ := resolveDispute_eq_ok.mp hok
  have hiff := resolved_buyer_iff ((tallied_run hw steps).2 e) hx hok
  refine ⟨x, hx, hiff, ?_⟩
  rw [hiff]
  constructor
  · intro h hmajority
    exact ⟨(h hmajority).holders, (h hmajority).quorate⟩
  · intro h hmajority
    obtain ⟨hholders, hquorate⟩ := h hmajority
    exact ⟨hholders, hmajority, hquorate⟩

end Mandate

namespace Sample

theorem bob_ne_self : bob ≠ node.self := by decide

/-- One ticket is sold, to Alice, and she votes. -/
def heldRun : List (Step node) :=
  disputedRun ++ [byPayments (.incrementInventory "e1" "hall" alice 1 usdc),
    vote alice alice_ne_self .buyerFavor]

/-- Ten tickets are sold. -/
def soldOutRun : List (Step node) :=
  disputedRun ++ [byPayments (.incrementInventory "e1" "hall" alice 10 usdc)]

/-- Bob, who has none, is the only one to vote. -/
def outvotedRun : List (Step node) := soldOutRun ++ [vote bob bob_ne_self .buyerFavor]

theorem heldRun_voted : VotedByHolders "e1" (history step deployed heldRun) := by
  intro s env a v s' hmem
  obtain ⟨pre, post, heq, -, -⟩ := exists_of_mem_history hmem
  have hstep : Step.call env (.dispute (.voteOnDispute "e1" a v)) ∈ heldRun := by simp [heq]
  simp only [heldRun, disputedRun, start, byOrganizer, byAdmin, byPayments, vote, List.cons_append,
    List.nil_append, List.mem_cons, Step.call.injEq, reduceCtorEq, and_false, false_or, or_false,
    Op.dispute.injEq, DisputeOp.voteOnDispute.injEq, List.not_mem_nil] at hstep
  obtain ⟨rfl, -, rfl, -⟩ := hstep
  rfl

end Sample

open Sample in
theorem buyer_decision_iff_held :
    ∃ x, (run step deployed heldRun).disputes.dispute "e1" = some x ∧
      Mandate "e1" (history step deployed heldRun) (run step deployed heldRun) x := by
  obtain ⟨⟨st, d⟩, hok⟩ := exists_of_isOk (x := resolveDispute
    (disputeContext late (run step deployed heldRun)) (run step deployed heldRun).disputes "e1")
    (by decide)
  obtain ⟨x, hx, hst, hmandate⟩ := buyer_decision_iff deployed_fresh hok
  have hcounts : ((run step deployed heldRun).disputes.dispute "e1").map
      (fun x => (x.organizerVotes, x.buyerVotes, x.totalVotes, x.quorumThresholdBps)) =
        some (0, 1, 1, 3000) := by decide
  have hsold : soldTickets (run step deployed heldRun) "e1" = 1 := by decide
  simp only [hx, Option.map_some, Option.some.injEq, Prod.mk.injEq] at hcounts
  obtain ⟨horganizer, hbuyer, htotal, hquorum⟩ := hcounts
  refine ⟨x, hx, hmandate.mpr (fun _ => ⟨heldRun_voted, ?_⟩) (hst.mpr (by omega))⟩
  rw [Quorate, hsold, htotal, hquorum]
  decide

open Sample in
/-- One vote of an address without a ticket decides an event with ten sold tickets. -/
theorem buyer_decision_unmandated :
    Fresh node deployed ∧
      Prod.fst <$> resolveDispute (disputeContext late (run step deployed outvotedRun))
        (run step deployed outvotedRun).disputes "e1" = .ok .resolvedBuyer ∧
      ¬ VotedByHolders "e1" (history step deployed outvotedRun) ∧
      ∀ x, (run step deployed outvotedRun).disputes.dispute "e1" = some x →
        ¬ Quorate (run step deployed outvotedRun) "e1" x := by
  refine ⟨deployed_fresh, by decide, fun h => ?_, fun x hx hquorate => ?_⟩
  · obtain ⟨w', hok⟩ := exists_of_isOk
      (x := step (run step deployed soldOutRun) (vote bob bob_ne_self .buyerFavor)) (by decide)
    exact absurd (h _ _ _ _ _ (mem_history_concat hok)) (by decide)
  · have hcounts : ((run step deployed outvotedRun).disputes.dispute "e1").map
        (fun x => (x.totalVotes, x.quorumThresholdBps)) = some (1, 3000) := by decide
    have hsold : soldTickets (run step deployed outvotedRun) "e1" = 10 := by decide
    rw [hx, Option.map_some, Option.some.injEq, Prod.mk.injEq] at hcounts
    rw [Quorate, hsold, hcounts.1, hcounts.2] at hquorate
    exact absurd hquorate (by decide)

/-! ## Resolving -/

section Resolving

variable {env : Env host} {w : World} {steps : List (Step host)} {e : String} {x : Dispute}

/-- **Resolving.** After the vote a dispute is resolved exactly if at most 429496 votes are for the
buyers; one with more is never resolved. -/
theorem resolve_iff (hw : Fresh host w) (hx : (run step w steps).disputes.dispute e = some x)
    (htime : x.closesAt < env.timestamp) :
    ((∃ st d, resolveDispute (disputeContext env (run step w steps)) (run step w steps).disputes e =
          .ok (st, d) ∧ (st = .resolvedBuyer ∨ st = .resolvedOrganizer)) ↔
        x.buyerVotes ≤ 429496) ∧
      (429496 < x.buyerVotes → ∀ more, ∃ y,
        (run step w (steps ++ more)).disputes.dispute e = some y ∧ y.pending = true) := by
  have h := (tallied_run hw steps).2 e
  have hcounts := h.record x hx
  refine ⟨⟨?_, fun hroom => ?_⟩, fun hmany more => ?_⟩
  · rintro ⟨st, d, hok, -⟩
    obtain ⟨y, hy, -, hcase⟩ := resolveDispute_eq_ok.mp hok
    obtain rfl := Option.some.inj (hx.symm.trans hy)
    have hroom : x.buyerVotes * 10000 < 2 ^ 32 := by
      rcases hcase with ⟨hres, -⟩ | ⟨-, hroom, -⟩
      · exact (hcounts.decided hres).2
      · exact hroom
    omega
  · by_cases hres : x.resolved
    · exact ⟨x.status, _, resolveDispute_eq_ok.mpr ⟨x, hx, htime, .inl ⟨hres, rfl, rfl⟩⟩, hres⟩
    · exact ⟨x.winner, _, resolveDispute_eq_ok.mpr ⟨x, hx, htime, .inr ⟨hres, by omega, rfl, rfl⟩⟩,
        x.winner_cases⟩
  · -- no vote is ever taken back
    obtain ⟨y, hy, hmany⟩ := record_kept (P := fun y => 429496 < y.buyerVotes)
      (fun y z hlt hfollows => hlt.trans_le (hfollows.kept .buyerFavor)) hw hx hmany more
    have hafter := ((tallied_run hw (steps ++ more)).2 e).record y hy
    refine ⟨y, hy, hafter.undecided fun hres => ?_⟩
    have hroom := (hafter.decided hres).2
    omega

end Resolving

namespace Sample

/-- The voters of a crowd. -/
def voter (n : Nat) : Address := ⟨String.ofList (List.replicate n 'G')⟩

theorem voter_injective : Injective voter := by
  intro m n h
  have hlist := String.ofList_injective (Address.mk.inj h)
  simpa using congrArg List.length hlist

theorem voter_ne_self (n : Nat) : voter n ≠ node.self := by
  intro h
  have hlist : List.replicate n 'G' = "C-registry".toList := by
    rw [← String.toList_ofList (l := List.replicate n 'G')]
    exact congrArg String.toList (Address.mk.inj h)
  have hmem : 'C' ∈ List.replicate n 'G' := by
    rw [hlist]
    decide
  exact absurd (List.eq_of_mem_replicate hmem) (by decide)

/-- The first `n` of them vote for the buyers. -/
def crowd (n : Nat) : List (Step node) :=
  (List.range n).map fun i => vote (voter i) (voter_ne_self i) .buyerFavor

/-- The dispute after the votes of a crowd. -/
structure Crowded (d : Disputes) (n : Nat) (x : Dispute) : Prop where
  stored : d.dispute "e1" = some x
  key : x.eventId = "e1"
  pending : x.pending = true
  closesAt : x.closesAt = 173800
  total : x.totalVotes = n
  buyer : x.buyerVotes = n
  count : d.voteCount "e1" = n
  others : ∀ i, n ≤ i → d.vote ("e1", voter i) = none

theorem Crowded.next {w : World} {n : Nat} {x : Dispute} (h : Crowded w.disputes n x)
    (hn : n + 1 < 2 ^ 32) :
    ∃ y, Crowded (commit step w (vote (voter n) (voter_ne_self n) .buyerFavor)).disputes
      (n + 1) y := by
  have hd : disputeCall
      (disputeContext (holding alice (signedBy (voter n) (voter_ne_self n) 1000)) w)
      w.disputes (.voteOnDispute "e1" (voter n) .buyerFavor) =
        .ok (w.disputes.cast "e1" x (voter n) .buyerFavor) := by
    refine voteOnDispute_eq_ok.mpr ⟨x, ?_, h.stored, h.pending, ?_, h.others n le_rfl, ?_, ?_, ?_,
      rfl⟩
    · show (voter n == voter n) = true
      exact beq_self_eq_true _
    · show 1000 < x.closesAt
      rw [h.closesAt]
      decide
    · rwa [h.total]
    · show x.buyerVotes + 1 < 2 ^ 32
      rwa [h.buyer]
    · rwa [h.count]
  have hok : step w (vote (voter n) (voter_ne_self n) .buyerFavor) =
      .ok { w with disputes := w.disputes.cast "e1" x (voter n) .buyerFavor } := by
    show callDispute _ w _ = _
    rw [callDispute, hd]
    rfl
  rw [commit_of_ok hok]
  refine ⟨x.voted .buyerFavor, ?_, h.key, rfl, h.closesAt, ?_, ?_, ?_, fun i hi => ?_⟩
  · show update w.disputes.dispute x.eventId _ "e1" = _
    rw [h.key, update_self]
  · show x.totalVotes + 1 = n + 1
    rw [h.total]
  · show x.buyerVotes + 1 = n + 1
    rw [h.buyer]
  · show update w.disputes.voteCount "e1" (w.disputes.voteCount "e1" + 1) "e1" = n + 1
    rw [update_self, h.count]
  · have hne : (("e1", voter i) : String × Address) ≠ ("e1", voter n) := by
      intro heq
      have := voter_injective (Prod.mk.inj heq).2
      omega
    show update w.disputes.vote ("e1", voter n) _ ("e1", voter i) = none
    rw [update_of_ne hne]
    exact h.others i (by omega)

theorem crowded (n : Nat) (hn : n < 2 ^ 32) :
    ∃ x, Crowded (run step deployed (disputedRun ++ crowd n)).disputes n x := by
  induction n with
  | zero =>
    have hstored : (run step deployed (disputedRun ++ crowd 0)).disputes.dispute "e1" =
        some (newDispute "e1" alice 1000 173800) := by decide
    exact ⟨_, hstored, rfl, rfl, rfl, rfl, rfl, by decide, fun _ _ => rfl⟩
  | succ n ih =>
    obtain ⟨x, hx⟩ := ih (by omega)
    have hsplit : disputedRun ++ crowd (n + 1) =
        (disputedRun ++ crowd n) ++ [vote (voter n) (voter_ne_self n) .buyerFavor] := by
      rw [crowd, List.range_succ, List.map_append, ← List.append_assoc]
      rfl
    rw [hsplit, run_append]
    exact hx.next hn

end Sample

open Sample in
theorem resolve_iff_voted :
    ∃ st d, resolveDispute
      (disputeContext late (run step deployed heldRun)) (run step deployed heldRun).disputes "e1" =
        .ok (st, d) ∧ (st = .resolvedBuyer ∨ st = .resolvedOrganizer) := by
  have hfields : ((run step deployed heldRun).disputes.dispute "e1").map
      (fun x => (x.closesAt, x.buyerVotes)) = some (173800, 1) := by decide
  cases hx : (run step deployed heldRun).disputes.dispute "e1" with
  | none =>
    rw [hx] at hfields
    cases hfields
  | some x =>
    rw [hx, Option.map_some, Option.some.injEq, Prod.mk.injEq] at hfields
    have htime : x.closesAt < late.timestamp := by
      rw [hfields.1]
      decide
    exact (resolve_iff deployed_fresh hx htime).1.mpr (by omega)

open Sample in
/-- After 429497 votes for the buyers every attempt to resolve the dispute fails. -/
theorem resolve_overflows :
    Fresh node deployed ∧
      ∃ x, (run step deployed (disputedRun ++ crowd 429497)).disputes.dispute "e1" = some x ∧
        x.closesAt < late.timestamp ∧
        resolveDispute (disputeContext late (run step deployed (disputedRun ++ crowd 429497)))
          (run step deployed (disputedRun ++ crowd 429497)).disputes "e1" =
            .error (.error .supplyOverflow) := by
  obtain ⟨x, hx⟩ := crowded 429497 (by decide)
  have htime : x.closesAt < late.timestamp := by
    rw [hx.closesAt]
    decide
  refine ⟨deployed_fresh, x, hx.stored, htime, ?_⟩
  have hres : ¬ (x.status = .resolvedBuyer ∨ x.status = .resolvedOrganizer) :=
    Dispute.not_resolved_of_pending hx.pending
  have hoverflow : x.outcome = .error (.error .supplyOverflow) := by
    rw [Dispute.outcome, hx.buyer]
    rfl
  have hensure : ensure (x.closesAt < late.timestamp) (Fault.error .proposalExpired) = .ok () :=
    ensure_eq_ok.mpr htime
  rw [resolveDispute, hx.stored]
  show (ensure (x.closesAt < late.timestamp) _ >>= _) = _
  rw [hensure]
  show (if _ then _ else x.outcome >>= _) = _
  rw [if_neg hres, hoverflow]
  rfl

end Agora.EventRegistry
