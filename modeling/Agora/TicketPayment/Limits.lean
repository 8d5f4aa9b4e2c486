import Agora.TicketPayment.Records

/-!
# Limits

The per-wallet limit of an event and the daily cap on the platform's
withdrawals. Each is checked against a counter, and the counter moves only
while the limit is set. It is right along the runs in which everything it
counts happens while the limit is set (`CountsTickets`, `CountsWithdrawals`);
for the cap these are exactly the runs.
-/

namespace Agora.TicketPayment

open Lib Function

variable {host : Host} {env : Env host} {w w' w0 : World} {e : String} {b t : Address}
  {day : Nat} {s : Step host} {steps : List (Step host)}

/-! ## Tickets of a wallet -/

/-- The tickets of an event that a wallet buys in a step. -/
def boughtIn (e : String) (b : Address) : World × Step host × World → Int
  | (_, .call _ (.processPayment a), _) =>
    if a.eventId = e ∧ a.buyerAddress = b then a.quantity else 0
  | _ => 0

/-- The wallet buys tickets of the event only while a limit is set. -/
def CountsTickets (e : String) (b : Address) (w : World) : Step host → Prop
  | .call _ (.processPayment a) =>
    a.eventId = e → a.buyerAddress = b → 0 < w.policy.maxTicketsPerWallet e
  | _ => True

/-- Only a purchase of the wallet moves its count, and only under a limit. -/
theorem walletTicketCount_step (hw : Sound host w) (h : step w s = .ok w') :
    (w'.policy.walletTicketCount (e, b) : Int) = w.policy.walletTicketCount (e, b) +
      if 0 < w.policy.maxTicketsPerWallet e then boughtIn e b (w, s, w') else 0 := by
  cases s with
  | outside tokens sent =>
    obtain rfl := pure_eq_ok.mp h
    simp [boughtIn]
  | call env op =>
    have hreg := call_regulation hw.toSetup h
    generalize w'.policy = p at hreg
    cases hreg with
    | @sale a noted =>
      simp only [Policy.sell_walletTicketCount, Policy.countTickets, boughtIn]
      by_cases he : a.eventId = e
      · subst he
        by_cases hlim : 0 < w.policy.maxTicketsPerWallet a.eventId
        · by_cases hb : a.buyerAddress = b
          · subst hb
            simp [hlim]
          · simp [hlim, hb, Ne.symm hb]
        · simp [hlim]
      · split
        · simp [he, Ne.symm he]
        · simp [he]
    | @change x i c => cases c <;> simp [Policy.change, boughtIn]
    | same hop =>
      cases op <;> first | cases hop; done | simp [boughtIn]
    | code | limit | withdrawal | cap | transferFee | affiliate | royalty | hashes =>
      simp [boughtIn, Policy.countWithdrawal]

/-- A purchase that goes uncounted is by another wallet or of another event. -/
theorem boughtIn_eq_zero (hC : CountsTickets e b w s)
    (hno : ¬ 0 < w.policy.maxTicketsPerWallet e) : boughtIn e b (w, s, w') = 0 := by
  unfold boughtIn
  split
  · rename_i heq
    simp only [Prod.mk.injEq] at heq
    obtain ⟨rfl, rfl, rfl⟩ := heq
    exact if_neg fun hboth => hno (hC hboth.1 hboth.2)
  · rfl

/-- Along a run that counts them, the count is what the wallet bought. -/
theorem walletTicketCount_eq (h0 : Fresh host w0)
    (h : Along step (CountsTickets e b) w0 steps) :
    ((run step w0 steps).policy.walletTicketCount (e, b) : Int) =
      tally (boughtIn e b) (history step w0 steps) := by
  refine Along.count_eq (I := Sound host)
    (c := fun w => (w.policy.walletTicketCount (e, b) : Int))
    (fun _ _ _ hw hok => hw.step hok) ?_ h (.fresh h0) ?_
  · intro w s w' hw hC hok
    rw [walletTicketCount_step hw hok]
    split
    · rfl
    · rename_i hno
      rw [boughtIn_eq_zero hC hno]
  · obtain ⟨tokens, -, rfl⟩ := h0
    rfl

/-- **Per-wallet limit.** Along every run in which the wallet buys tickets of
the event only while a limit is set, a purchase under a limit leaves the
wallet with no more tickets bought, over the whole run, than the limit. -/
theorem walletLimit_kept (h0 : Fresh host w0) (h : Along step (CountsTickets e b) w0 steps)
    {a : Purchase} (he : a.eventId = e) (hb : a.buyerAddress = b)
    (hok : step (run step w0 steps) (.call env (.processPayment a)) = .ok w')
    (hlim : 0 < (run step w0 steps).policy.maxTicketsPerWallet e) :
    tally (boughtIn e b) (history step w0 (steps ++ [.call env (.processPayment a)])) ≤
      (run step w0 steps).policy.maxTicketsPerWallet e := by
  subst he hb
  have hcount := walletTicketCount_eq h0 h
  have hcall : call env (run step w0 steps) (.processPayment a) = .ok w' := hok
  have hreg := call_regulation ((Sound.fresh h0).run steps).toSetup hcall
  have hwallet : (run step w0 steps).policy.walletTicketCount (a.eventId, a.buyerAddress) +
      a.quantity ≤ (run step w0 steps).policy.maxTicketsPerWallet a.eventId := by
    generalize w'.policy = p at hreg
    cases hreg with
    | same hop => cases hop
    | sale permitted => exact permitted.wallet hlim
  rw [history_append, history_of_ok hok, tally_append, ← hcount]
  simp only [history, tally_singleton, boughtIn, and_self, if_true]
  omega

namespace Sample

/-- The organizer limits each wallet to `limit` tickets. -/
def limitTo (limit : Nat) : Step node :=
  byOrganizer event (.setMaxTicketsPerWallet "e1" limit)

def buy (id : String) (quantity : Nat) : Step node :=
  byAlice event (.processPayment (order id "e1" alice usdc quantity))

end Sample

theorem walletLimit_kept_two :
    (run step Sample.deployed [Sample.start, Sample.limitTo 2]).policy.maxTicketsPerWallet "e1" =
        2 ∧
      tally (boughtIn "e1" Sample.alice)
          (history step Sample.deployed
            ([Sample.start, Sample.limitTo 2] ++ [Sample.buy "t1" 2])) ≤
        (run step Sample.deployed
          [Sample.start, Sample.limitTo 2]).policy.maxTicketsPerWallet "e1" := by
  obtain ⟨w', hok⟩ := exists_of_isOk (x := step (run step Sample.deployed
    [Sample.start, Sample.limitTo 2]) (Sample.buy "t1" 2)) (by decide)
  refine ⟨by decide, walletLimit_kept Sample.deployed_fresh ?_ rfl rfl hok (by decide)⟩
  exact ⟨fun _ _ => trivial, fun _ _ => trivial, trivial⟩

/-- A ticket bought before the limit of one was set is not counted, so the
wallet can buy a second one under the limit. -/
theorem walletLimit_exceeded_late :
    Fresh Sample.node Sample.deployed ∧
      (run step Sample.deployed
        [Sample.start, Sample.buy "t1" 1, Sample.limitTo 1]).policy.maxTicketsPerWallet "e1" =
          1 ∧
      (step (run step Sample.deployed [Sample.start, Sample.buy "t1" 1, Sample.limitTo 1])
        (Sample.buy "t2" 1)).isOk = true ∧
      tally (boughtIn "e1" Sample.alice) (history step Sample.deployed
        [Sample.start, Sample.buy "t1" 1, Sample.limitTo 1, Sample.buy "t2" 1]) = 2 :=
  ⟨Sample.deployed_fresh, by decide, by decide, by decide⟩

/-! ## Fees withdrawn on a day -/

/-- What a step withdraws of the token's fees on the day. -/
def withdrawnOn (t : Address) (day : Nat) : World × Step host × World → Int
  | (_, .call env (.withdrawPlatformFees x token), _) =>
    if token = t ∧ env.timestamp / 86400 = day then x else 0
  | _ => 0

/-- Fees of the token are withdrawn only while it has a cap. -/
def CountsWithdrawals (t : Address) (w : World) : Step host → Prop
  | .call _ (.withdrawPlatformFees _ token) => token = t → 0 < w.policy.withdrawalCap t
  | _ => True

/-- Only a withdrawal moves the amount of its day, and only under a cap. -/
theorem dailyWithdrawalAmount_step (hw : Sound host w) (h : step w s = .ok w') :
    w'.policy.dailyWithdrawalAmount (t, day) = w.policy.dailyWithdrawalAmount (t, day) +
      if 0 < w.policy.withdrawalCap t then withdrawnOn t day (w, s, w') else 0 := by
  cases s with
  | outside tokens sent =>
    obtain rfl := pure_eq_ok.mp h
    simp [withdrawnOn]
  | call env op =>
    have hreg := call_regulation hw.toSetup h
    generalize w'.policy = p at hreg
    cases hreg with
    | @withdrawal token x positive within =>
      simp only [Policy.countWithdrawal_dailyWithdrawalAmount, withdrawnOn]
      by_cases ht : token = t
      · subst ht
        by_cases hcap : 0 < w.policy.withdrawalCap token
        · simp [hcap, eq_comm]
        · simp [hcap]
      · split
        · simp [ht, Ne.symm ht]
        · simp [ht]
    | @change x i c => cases c <;> simp [Policy.change, withdrawnOn]
    | same hop =>
      cases op <;> first | cases hop; done | simp [withdrawnOn]
    | code | limit | sale | cap | transferFee | affiliate | royalty | hashes =>
      simp [withdrawnOn]

/-- A withdrawal that goes uncounted is of another token. -/
theorem withdrawnOn_eq_zero (hC : CountsWithdrawals t w s)
    (hno : ¬ 0 < w.policy.withdrawalCap t) : withdrawnOn t day (w, s, w') = 0 := by
  unfold withdrawnOn
  split
  · rename_i heq
    simp only [Prod.mk.injEq] at heq
    obtain ⟨rfl, rfl, rfl⟩ := heq
    exact if_neg fun hboth => hno (hC hboth.1)
  · rfl

/-- Along a run that counts them, the amount of a day is what was withdrawn. -/
theorem dailyWithdrawalAmount_eq (h0 : Fresh host w0)
    (h : Along step (CountsWithdrawals t) w0 steps) :
    (run step w0 steps).policy.dailyWithdrawalAmount (t, day) =
      tally (withdrawnOn t day) (history step w0 steps) := by
  refine Along.count_eq (I := Sound host)
    (c := fun w => w.policy.dailyWithdrawalAmount (t, day))
    (fun _ _ _ hw hok => hw.step hok) ?_ h (.fresh h0) ?_
  · intro w s w' hw hC hok
    rw [dailyWithdrawalAmount_step hw hok]
    split
    · rfl
    · rename_i hno
      rw [withdrawnOn_eq_zero hC hno]
  · obtain ⟨tokens, -, rfl⟩ := h0
    rfl

/-- In every state of the run, the amount reported for the day is what was
withdrawn of the token on that day. -/
def ReportsWithdrawals (t : Address) (w0 : World) (steps : List (Step host)) : Prop :=
  ∀ pre, pre <+: steps → ∀ env : Env host,
    getDailyWithdrawnAmount env (run step w0 pre) t =
      tally (withdrawnOn t (env.timestamp / 86400)) (history step w0 pre)

/-- Every withdrawal under a cap leaves what was withdrawn of the token on that
day at most the cap. -/
def KeepsCap (t : Address) (w0 : World) (steps : List (Step host)) : Prop :=
  ∀ (pre : List (Step host)) (env : Env host) (x : Int) (post : List (Step host)) (w' : World),
    steps = pre ++ .call env (.withdrawPlatformFees x t) :: post →
    step (run step w0 pre) (.call env (.withdrawPlatformFees x t)) = .ok w' →
    0 < (run step w0 pre).policy.withdrawalCap t →
    tally (withdrawnOn t (env.timestamp / 86400))
        (history step w0 (pre ++ [.call env (.withdrawPlatformFees x t)])) ≤
      (run step w0 pre).policy.withdrawalCap t

theorem withdrawPlatformFees_regulation {x : Int} (hw : Sound host w)
    (h : step w (.call env (.withdrawPlatformFees x t)) = .ok w') :
    0 < x ∧ (0 < w.policy.withdrawalCap t →
      w.policy.dailyWithdrawalAmount (t, env.timestamp / 86400) + x ≤
        w.policy.withdrawalCap t) := by
  have hcall : call env w (.withdrawPlatformFees x t) = .ok w' := h
  have hreg := call_regulation hw.toSetup hcall
  generalize w'.policy = p at hreg
  cases hreg with
  | same hop => cases hop
  | withdrawal positive within => exact ⟨positive, within⟩

/-- **Daily cap.** A run reports the withdrawals of a token on each day and
keeps them under its cap exactly when the token always has a cap when fees are
withdrawn in it. -/
theorem dailyCap_kept_iff (h0 : Fresh host w0) :
    ReportsWithdrawals t w0 steps ∧ KeepsCap t w0 steps ↔
      Along step (CountsWithdrawals t) w0 steps := by
  constructor
  · rintro ⟨hrep, -⟩
    rw [Along.iff_forall_split]
    rintro pre s post w' rfl hok
    have hw : Sound host (run step w0 pre) := (Sound.fresh h0).run pre
    unfold CountsWithdrawals
    split
    · next env x token =>
      rintro rfl
      by_contra hno
      -- the withdrawal is made but not counted, so one of the two reports is wrong
      have hbefore := hrep pre ⟨_, rfl⟩ env
      have hafter := hrep (pre ++ [.call env (.withdrawPlatformFees x token)])
        ⟨post, by simp⟩ env
      have hsame : w'.policy.dailyWithdrawalAmount (token, env.timestamp / 86400) = _ :=
        dailyWithdrawalAmount_step hw hok
      rw [if_neg hno, add_zero] at hsame
      rw [run_append, history_append, history_of_ok hok, run_cons, run_nil, commit_of_ok hok]
        at hafter
      simp only [getDailyWithdrawnAmount, history, tally_append, tally_singleton, withdrawnOn,
        and_self, if_true] at hbefore hafter
      have hpos := (withdrawPlatformFees_regulation hw hok).1
      omega
    · exact True.intro
  · refine fun h => ⟨?_, ?_⟩
    · rintro pre ⟨post, rfl⟩ env
      exact dailyWithdrawalAmount_eq h0 (Along.append.mp h).1
    · rintro pre env x post w' rfl hok hcap
      have hw : Sound host (run step w0 pre) := (Sound.fresh h0).run pre
      have hwithin := (withdrawPlatformFees_regulation hw hok).2 hcap
      rw [dailyWithdrawalAmount_eq h0 (Along.append.mp h).1] at hwithin
      rw [history_append, history_of_ok hok, tally_append]
      simpa [history, withdrawnOn] using hwithin

namespace Sample

/-- The admin sets a cap of 100, and a ticket is sold whose fee is withdrawn. -/
def cappedRun : List (Step node) :=
  [start, byAdmin (.setWithdrawalCap usdc 100), buy "t1" 1,
    byAdmin (.withdrawPlatformFees 50 usdc)]

/-- Two tickets are sold and the fee of one is withdrawn without a cap. -/
def uncappedRun : List (Step node) :=
  [start, buy "t1" 2, byAdmin (.withdrawPlatformFees 50 usdc),
    byAdmin (.setWithdrawalCap usdc 60)]

end Sample

theorem dailyCap_kept_capped :
    (run step Sample.deployed Sample.cappedRun).policy.dailyWithdrawalAmount (Sample.usdc, 0) =
        50 ∧
      ReportsWithdrawals Sample.usdc Sample.deployed Sample.cappedRun ∧
      KeepsCap Sample.usdc Sample.deployed Sample.cappedRun := by
  refine ⟨by decide, (dailyCap_kept_iff Sample.deployed_fresh).mpr ?_⟩
  exact ⟨fun _ _ => trivial, fun _ _ => trivial, fun _ _ => trivial, fun _ _ _ => by decide,
    trivial⟩

/-- Without a cap the amount withdrawn is reported as 0, and a cap of 60 that
is set on the same day lets 100 be withdrawn. -/
theorem dailyCap_exceeded_uncapped :
    Fresh Sample.node Sample.deployed ∧
      getDailyWithdrawnAmount
        (Sample.signedBy Sample.admin Sample.admin_ne_self 1000 (Sample.registry Sample.event))
        (run step Sample.deployed Sample.uncappedRun) Sample.usdc = 0 ∧
      tally (withdrawnOn Sample.usdc 0) (history step Sample.deployed Sample.uncappedRun) = 50 ∧
      (run step Sample.deployed Sample.uncappedRun).policy.withdrawalCap Sample.usdc = 60 ∧
      tally (withdrawnOn Sample.usdc 0) (history step Sample.deployed
        (Sample.uncappedRun ++
          [Sample.byAdmin (.withdrawPlatformFees 50 Sample.usdc)])) = 100 :=
  ⟨Sample.deployed_fresh, by decide, by decide, by decide, by decide⟩

end Agora.TicketPayment
