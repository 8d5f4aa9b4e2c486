import Agora.TicketPayment.Escrow

/-!
# Revenue of the organizers

What an event was credited and what its organizer was paid, over the journal.
A withdrawal pays out of the event's own balance. A claim does too, unless the
balance is dust: then it pays what the contract holds of the token, whoever it
belongs to (`SweepsDust`). Balances carry no token, so a payout is in the
token that was collected when the event collected in no other
(`PaysInKind`).
-/

namespace Agora.TicketPayment

open Lib Function

variable {host : Host} {env : Env host} {w w' : World} {l l' : Ledger} {e : String} {t : Address}

/-! ## Sums over the journal -/

/-- What an entry pays the organizer of an event. -/
def Entry.pays (e : String) : Entry → Int
  | .paidOut e' _ x => if e' = e then x else 0
  | _ => 0

/-- What an entry pays the organizer of an event in one token. -/
def Entry.paysIn (e : String) (t : Address) : Entry → Int
  | .paidOut e' t' x => if e' = e ∧ t' = t then x else 0
  | _ => 0

/-- What an entry credits to the organizer of an event: the organizer's part of
a sale, a transfer fee, or what a refund leaves beyond the ticket's part. -/
def Entry.credits (e : String) : Entry → Int
  | .sold e' _ o _ => if e' = e then max o 0 else 0
  | .transferFee e' _ x => if e' = e then max x 0 else 0
  | .refunded _ e' _ _ o _ _ => if e' = e then max (-o) 0 else 0
  | _ => 0

/-- What an entry credits to the organizer of an event in one token. -/
def Entry.creditsIn (e : String) (t : Address) : Entry → Int
  | .sold e' t' o _ => if e' = e ∧ t' = t then max o 0 else 0
  | .transferFee e' t' x => if e' = e ∧ t' = t then max x 0 else 0
  | .refunded _ e' t' _ o _ _ => if e' = e ∧ t' = t then max (-o) 0 else 0
  | _ => 0

def paidOutOf (e : String) (journal : List Entry) : Int := tally (Entry.pays e) journal

def paidOutIn (e : String) (t : Address) (journal : List Entry) : Int :=
  tally (Entry.paysIn e t) journal

def creditedTo (e : String) (journal : List Entry) : Int := tally (Entry.credits e) journal

def creditedIn (e : String) (t : Address) (journal : List Entry) : Int :=
  tally (Entry.creditsIn e t) journal

theorem Entry.creditsIn_nonneg (x : Entry) : 0 ≤ x.creditsIn e t := by
  cases x <;> simp only [Entry.creditsIn] <;> omega

/-! ## Claims -/

/-- A claim that sweeps: the balance is dust and the contract holds more of the
token than it, after the event's platform fee. -/
def SweepsDust (b : EventBalance) (held : Int) : Prop :=
  0 < b.organizerAmount ∧ b.organizerAmount ≤ dustThreshold ∧ b.organizerAmount ≤ held ∧
    ∃ s, checkedSub held b.platformFee = some s ∧ b.organizerAmount < s

theorem claimAmount_eq_iff {b : EventBalance} {held : Int} :
    claimAmount b held = b.organizerAmount ↔ ¬ SweepsDust b held := by
  unfold claimAmount SweepsDust
  split
  · next h =>
    obtain ⟨h1, h2, h3⟩ := h
    cases hs : checkedSub held b.platformFee with
    | none => simp
    | some s => simp [h1, h2, h3]
  · next h =>
    simp only [true_iff]
    rintro ⟨h1, h2, h3, -⟩
    exact h ⟨h1, h2, h3⟩

theorem claimAmount_of_nonpos {b : EventBalance} {held : Int} (h : b.organizerAmount ≤ 0) :
    claimAmount b held = b.organizerAmount := by
  unfold claimAmount
  rw [if_neg (fun hc => absurd hc.1 (not_lt.mpr h))]

/-- What a claim pays is the event's balance, if and only if the balance is not
negative and the claim does not sweep. -/
theorem claimRevenue_pays_iff {x : Int} (h : claimRevenue env w e t = .ok (x, w')) :
    paidOutOf e w'.ledger.journal =
        paidOutOf e w.ledger.journal + (w.ledger.balances e).organizerAmount ↔
      0 ≤ (w.ledger.balances e).organizerAmount ∧
        ¬ SweepsDust (w.ledger.balances e) (w.ledger.tokens.balance t host.self) := by
  obtain ⟨info, -, -, hx, -, hl⟩ := claimRevenue_eq h
  rw [hl]
  rcases lt_trichotomy (w.ledger.balances e).organizerAmount 0 with hneg | hzero | hpos
  · have hx' := hx.trans (claimAmount_of_nonpos hneg.le)
    rw [if_neg (by omega)]
    simp only [Ledger.setEventBalance_journal]
    omega
  · have hx' := hx.trans (claimAmount_of_nonpos hzero.le)
    rw [if_neg (by omega)]
    simp [hzero, SweepsDust]
  · have hxpos : 0 < x := by rw [hx]; exact claimAmount_pos_iff.mpr hpos
    rw [if_pos hxpos, ← claimAmount_eq_iff, ← hx]
    simp only [paidOutOf, Ledger.withdraw_journal, tally_append, tally_singleton, Entry.pays,
      if_true]
    omega

/-! ## Paid out of one's own -/

/-- What the organizer of `e` was paid, and what its balance still holds, was
credited to it. -/
def Backed (e : String) (l : Ledger) : Prop :=
  paidOutOf e l.journal + max (l.balances e).organizerAmount 0 ≤ creditedTo e l.journal

namespace Backed

/-- A posting that credits `o`, or takes back `-o`, and says so. -/
theorem post {e' : String} {o f : Int} {entries : List Entry} (h : Backed e l)
    (hb : l'.balances = addShares l.balances e' o f) (hj : l'.journal = l.journal ++ entries)
    (hp : paidOutOf e entries = 0) (hc : creditedTo e entries = if e' = e then max o 0 else 0) :
    Backed e l' := by
  unfold Backed paidOutOf creditedTo at *
  rw [hj, tally_append, tally_append, hp, hc, hb, addShares_organizerAmount]
  by_cases he : e' = e
  · subst he
    simp only [if_true]
    omega
  · rw [if_neg he, if_neg (Ne.symm he)]
    omega

theorem payout {e' : String} {t : Address} {x : Int} {b : EventBalance} (h : Backed e l)
    (hb : l'.balances = update l.balances e' b) (hj : l'.journal = l.journal ++ [.paidOut e' t x])
    (hx : x + max b.organizerAmount 0 ≤ max (l.balances e').organizerAmount 0) :
    Backed e l' := by
  unfold Backed paidOutOf creditedTo at *
  rw [hj, tally_append, tally_append, hb]
  by_cases he : e = e'
  · subst he
    simp only [update_self, tally_singleton, Entry.pays, Entry.credits, if_true]
    omega
  · simp only [update_of_ne he, tally_singleton, Entry.pays, Entry.credits, if_neg (Ne.symm he)]
    omega

theorem reduce {e' : String} {b : EventBalance} (h : Backed e l)
    (hb : l'.balances = update l.balances e' b) (hj : l'.journal = l.journal)
    (hx : max b.organizerAmount 0 ≤ max (l.balances e').organizerAmount 0) : Backed e l' := by
  unfold Backed at *
  rw [hj, hb]
  by_cases he : e = e'
  · subst he
    simp only [update_self]
    omega
  · simpa only [update_of_ne he] using h

theorem congr {entries : List Entry} (h : Backed e l) (hb : l'.balances = l.balances)
    (hj : l'.journal = l.journal ++ entries) (hp : paidOutOf e entries = 0)
    (hc : creditedTo e entries = 0) : Backed e l' := by
  unfold Backed paidOutOf creditedTo at *
  rw [hj, hb, tally_append, tally_append, hp, hc]
  omega

theorem refund {i e' : String} {p : Payment} {x o f : Int} {full : Bool} (h : Backed e l) :
    Backed e (l.refund host i p e' x o f full) :=
  h.post rfl rfl (by simp [paidOutOf, Entry.pays]) (by simp [creditedTo, Entry.credits])

theorem closeOne {now : Nat} {e' i : String} (h : Backed e l) :
    Backed e (l.closeOne host now e' i) :=
  Ledger.closeOne_rec h fun _ _ _ => h.refund

theorem shareOne {pct : Nat} {e' i : String} (h : Backed e l) :
    Backed e (l.shareOne host pct e' i) :=
  Ledger.shareOne_rec h fun _ _ _ _ _ => h.refund

theorem takeTransferFee {p : Payment} {x : Int} (h : Backed e l) :
    Backed e (l.takeTransferFee host p x) := by
  unfold Ledger.takeTransferFee
  split
  · exact h.post rfl rfl (by simp [paidOutOf, Entry.pays]) (by simp [creditedTo, Entry.credits])
  · exact h

end Backed

/-- No claim sweeps. -/
def PaysOwnRevenue (w : World) : Step host → Prop
  | .call _ (.claimRevenue e t) =>
    ¬ SweepsDust (w.ledger.balances e) (w.ledger.tokens.balance t host.self)
  | _ => True

/-- **Revenue, one call.** -/
theorem Backed.effect {op : Op} (h : Backed e w.ledger) (hC : PaysOwnRevenue w (.call env op))
    (he : Effect env w op l') : Backed e l' := by
  cases he with
  | same => exact h
  | sale =>
    refine List.foldlRecOn (motive := Backed e) _ _ (h.post rfl rfl
      (by simp [paidOutOf, Entry.pays]) (by simp [creditedTo, Entry.credits])) fun l hl k _ => ?_
    exact hl.congr rfl rfl (by simp [paidOutOf, Entry.pays]) (by simp [creditedTo, Entry.credits])
  | confirm => exact h
  | checkIn => exact h
  | ticketRefund => exact h.refund
  | cancellationRefund => exact h.refund
  | bulkRefund => exact List.foldlRecOn (motive := Backed e) _ _ h fun l hl _ _ => hl.closeOne
  | cascade => exact List.foldlRecOn (motive := Backed e) _ _ h fun l hl _ _ => hl.closeOne
  | partialRefund => exact List.foldlRecOn (motive := Backed e) _ _ h fun l hl _ _ => hl.shareOne
  | withdrawal _ _ _ paid covered =>
    refine h.payout rfl rfl ?_
    dsimp only
    omega
  | claim _ _ claimed paid =>
    rw [claimAmount_eq_iff.mpr hC] at claimed
    refine h.payout rfl rfl ?_
    dsimp only
    omega
  | emptyClaim => exact h.reduce rfl rfl (by dsimp only; omega)
  | settle => exact h.reduce rfl rfl le_rfl
  | feesWithdrawn =>
    exact h.congr rfl rfl (by simp [paidOutOf, Entry.pays]) (by simp [creditedTo, Entry.credits])
  | transfer => exact h.takeTransferFee
  | listing => exact h
  | unlisting => exact h
  | resale => exact h
  | bid => exact h
  | auction =>
    exact h.post rfl (List.append_assoc _ _ _) (by simp [paidOutOf, tally, Entry.pays])
      (by simp [creditedTo, tally, Entry.credits])
  | cancel => exact h

theorem Backed.fresh {w0 : World} (h0 : Fresh host w0) : Backed e w0.ledger := by
  obtain ⟨tokens, -, rfl⟩ := h0
  simp [Backed, paidOutOf, creditedTo, World.empty]

/-- **A claim spends its own event's escrow.** After every run from a fresh
contract: a successful claim pays the event's balance exactly when that is not
negative and is not swept as dust; and if no claim of the run swept, the
organizer of each event was paid no more than was credited to the event. -/
theorem claim_pays_own_revenue {w0 : World} (h0 : Fresh host w0) (steps : List (Step host)) :
    (∀ (env : Env host) e t x w', claimRevenue env (run step w0 steps) e t = .ok (x, w') →
      (paidOutOf e w'.ledger.journal = paidOutOf e (run step w0 steps).ledger.journal +
          ((run step w0 steps).ledger.balances e).organizerAmount ↔
        0 ≤ ((run step w0 steps).ledger.balances e).organizerAmount ∧
          ¬ SweepsDust ((run step w0 steps).ledger.balances e)
            ((run step w0 steps).ledger.tokens.balance t host.self))) ∧
    (Along step PaysOwnRevenue w0 steps → ∀ e,
      paidOutOf e (run step w0 steps).ledger.journal ≤
        creditedTo e (run step w0 steps).ledger.journal) := by
  refine ⟨fun env e t x w' h => claimRevenue_pays_iff h, fun h e => ?_⟩
  have hb := ledger_inv (I := Backed e) (fun w env op l' _ hI hC he => hI.effect hC he)
    (fun w tokens sent hI _ => hI) h (.fresh h0) (.fresh h0)
  unfold Backed at hb
  omega

namespace Sample

/-- The event once it has ended. -/
def ended : EventInfo := { event with isActive := false, status := .inactive }

/-- The organizer claims the revenue of the only ticket. -/
def claimRun : List (Step node) :=
  [start, byAlice event (.processPayment (order "t1" "e1" alice usdc 1)),
    byOrganizer ended (.claimRevenue "e1" usdc)]

/-- The same, while the contract also holds the price of a ticket of another event. -/
def sweepRun : List (Step node) :=
  [start, byBob event (.processPayment (order "t2" "e2" bob usdc 1)),
    byAlice event (.processPayment (order "t1" "e1" alice usdc 1)),
    byOrganizer ended (.claimRevenue "e1" usdc)]

end Sample

theorem claim_pays_own_revenue_single :
    paidOutOf "e1" (run step Sample.deployed Sample.claimRun).ledger.journal = 950 ∧
      paidOutOf "e1" (run step Sample.deployed Sample.claimRun).ledger.journal ≤
        creditedTo "e1" (run step Sample.deployed Sample.claimRun).ledger.journal := by
  refine ⟨by decide, (claim_pays_own_revenue Sample.deployed_fresh _).2 ?_ "e1"⟩
  refine ⟨fun _ _ => trivial, fun _ _ => trivial, fun _ _ => ?_, trivial⟩
  refine claimAmount_eq_iff.mp ?_
  decide

/-- A claim on a balance of 950 pays 1950. -/
theorem claim_sweeps_other_events :
    Fresh Sample.node Sample.deployed ∧
      ((run step Sample.deployed (Sample.sweepRun.take 3)).ledger.balances "e1").organizerAmount =
        950 ∧
      paidOutOf "e1" (run step Sample.deployed Sample.sweepRun).ledger.journal = 1950 ∧
      creditedTo "e1" (run step Sample.deployed Sample.sweepRun).ledger.journal = 950 :=
  ⟨Sample.deployed_fresh, by decide, by decide, by decide⟩

/-! ## Paid in the token that was collected -/

/-- A payout of `e` in `t` comes when what the event was credited in other
tokens has been paid out in other tokens; and no claim sweeps. -/
def PaysInKind (w : World) : Step host → Prop
  | .call _ (.withdrawOrganizerFunds e t) =>
    creditedTo e w.ledger.journal - creditedIn e t w.ledger.journal ≤
      paidOutOf e w.ledger.journal - paidOutIn e t w.ledger.journal
  | .call _ (.claimRevenue e t) =>
    creditedTo e w.ledger.journal - creditedIn e t w.ledger.journal ≤
        paidOutOf e w.ledger.journal - paidOutIn e t w.ledger.journal ∧
      ¬ SweepsDust (w.ledger.balances e) (w.ledger.tokens.balance t host.self)
  | _ => True

theorem PaysInKind.own {s : Step host} (h : PaysInKind w s) : PaysOwnRevenue w s := by
  cases s with
  | outside => trivial
  | call env op => cases op <;> first | exact h.2 | trivial

/-- Payouts in a token stay within the credits in it, since the balance is
what remains of the credits in all tokens. -/
theorem paidOutIn_le_effect {op : Op} (hb : Backed e w.ledger)
    (h : paidOutIn e t w.ledger.journal ≤ creditedIn e t w.ledger.journal)
    (hC : PaysInKind w (.call env op)) (he : Effect env w op l') :
    paidOutIn e t l'.journal ≤ creditedIn e t l'.journal := by
  have hj := he.extends_journal
  have hmono : creditedIn e t w.ledger.journal ≤ creditedIn e t l'.journal :=
    hj.tally_le fun x => x.creditsIn_nonneg
  by_cases hop : op = .withdrawOrganizerFunds e t ∨ op = .claimRevenue e t
  · unfold Backed at hb
    rcases hop with rfl | rfl
    · cases he with
      | same => exact h
      | ticketRefund kind => cases kind
      | withdrawal _ _ _ paid covered =>
        simp only [PaysInKind] at hC
        simp only [Ledger.withdraw_journal, paidOutIn, tally_append, tally_singleton, Entry.paysIn,
          and_self, if_true] at hb hC hmono ⊢
        omega
    · obtain ⟨hkind, hsweep⟩ := hC
      cases he with
      | same => exact h
      | ticketRefund kind => cases kind
      | claim _ _ claimed paid =>
        rw [claimAmount_eq_iff.mpr hsweep] at claimed
        simp only [Ledger.withdraw_journal, paidOutIn, tally_append, tally_singleton, Entry.paysIn,
          and_self, if_true] at hb hkind hmono ⊢
        omega
      | emptyClaim => exact h
  · -- the call pays the organizer of `e` nothing in `t`
    have hpaid : paidOutIn e t l'.journal = paidOutIn e t w.ledger.journal := by
      apply hj.tally_eq
      intro x hx
      cases x with
      | paidOut e' t' x =>
        obtain ⟨-, -, -, hop'⟩ := hx
        refine if_neg ?_
        rintro ⟨rfl, rfl⟩
        exact hop hop'
      | issued | sold | transferFee | refunded | feesWithdrawn => rfl
    rw [hpaid]
    exact h.trans hmono

/-- **Payouts stay in kind.** Along every run from a fresh contract whose payouts
meet `PaysInKind`, the organizer of an event was paid no more of a token than
was credited to the event in it. -/
theorem payouts_stay_in_token {w0 : World} (h0 : Fresh host w0) {steps : List (Step host)}
    (h : Along step PaysInKind w0 steps) (e : String) (t : Address) :
    paidOutIn e t (run step w0 steps).ledger.journal ≤
      creditedIn e t (run step w0 steps).ledger.journal := by
  refine (ledger_inv (I := fun l => Backed e l ∧ paidOutIn e t l.journal ≤ creditedIn e t l.journal)
    (fun w env op l' _ hI hC he => ⟨hI.1.effect hC.own he, paidOutIn_le_effect hI.1 hI.2 hC he⟩)
    (fun w tokens sent hI _ => hI) h (.fresh h0) ⟨.fresh h0, ?_⟩).2
  obtain ⟨tokens, -, rfl⟩ := h0
  exact le_rfl

namespace Sample

/-- The organizer withdraws the revenue of the only ticket in the token it was paid in. -/
def withdrawalRun : List (Step node) :=
  [start, byAlice event (.processPayment (order "t1" "e1" alice usdc 1)),
    byOrganizer event (.withdrawOrganizerFunds "e1" usdc)]

/-- A call after the voting period. -/
def later (signer : Address) (h : signer ≠ node.self) (op : Op) : Step node :=
  .call (signedBy signer h 200000 (registry event)) op

/-- The admin, the only governor, puts EURC on the whitelist. Then a ticket of
`e1` is sold for USDC and one of `e2` for EURC, and the organizer of `e1`
withdraws in EURC. -/
def crossRun : List (Step node) :=
  [start, byAdmin (.proposeParameterChange admin (.addTokenToWhitelist eurc)),
    later admin admin_ne_self (.executeProposal admin 1),
    later alice alice_ne_self (.processPayment (order "t1" "e1" alice usdc 1)),
    later bob bob_ne_self (.processPayment (order "t2" "e2" bob eurc 1)),
    later organizer organizer_ne_self (.withdrawOrganizerFunds "e1" eurc)]

end Sample

theorem payouts_stay_in_token_single :
    paidOutIn "e1" Sample.usdc (run step Sample.deployed Sample.withdrawalRun).ledger.journal ≤
      creditedIn "e1" Sample.usdc
        (run step Sample.deployed Sample.withdrawalRun).ledger.journal := by
  refine payouts_stay_in_token Sample.deployed_fresh ?_ "e1" Sample.usdc
  refine ⟨fun _ _ => trivial, fun _ _ => trivial, fun _ _ => ?_, trivial⟩
  change (_ - _ : Int) ≤ _ - _
  decide

/-- An event that collected no EURC is paid out 950 EURC. -/
theorem payouts_leave_token_cross :
    Fresh Sample.node Sample.deployed ∧
      paidOutIn "e1" Sample.eurc (run step Sample.deployed Sample.crossRun).ledger.journal = 950 ∧
      creditedIn "e1" Sample.eurc (run step Sample.deployed Sample.crossRun).ledger.journal = 0 :=
  ⟨Sample.deployed_fresh, by decide, by decide⟩

end Agora.TicketPayment
