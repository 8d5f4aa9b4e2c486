import Agora.TicketPayment.Records

/-!
# Discounts

Uses of the two kinds of discount. A hash is spent by the first purchase that
presents its preimage, and registering it again does not bring it back. A code
counts its uses from its creation, which starts the count again. Both counts
are read off the successful purchases of the run.
-/

namespace Agora.TicketPayment

open Lib Function

variable {host : Host} {w w' w0 : World} {e c : String} {hash : Bytes32} {s : Step host}

/-! ## Hashes -/

/-- 1 for a purchase that presents a preimage of the hash. -/
def redeemsHash (hash : Bytes32) : World × Step host × World → Int
  | (_, .call _ (.processPayment a), _) =>
    if a.options.codePreimage.map host.sha256 = some hash then 1 else 0
  | _ => 0

/-- 1 for a spent hash. -/
def World.hashUses (w : World) (hash : Bytes32) : Int :=
  (w.policy.discountCodeUsed hash).toNat

/-- Each purchase that presents a hash spends it, and nothing restores it. -/
theorem hashUses_step (hw : Sound host w) (h : step w s = .ok w') :
    w'.hashUses hash = w.hashUses hash + redeemsHash hash (w, s, w') := by
  cases s with
  | outside tokens sent =>
    obtain rfl := pure_eq_ok.mp h
    simp [redeemsHash, World.hashUses]
  | call env op =>
    have hreg := call_regulation hw.toSetup h
    simp only [World.hashUses]
    generalize w'.policy = p at hreg
    cases hreg with
    | @sale a noted permitted =>
      simp only [Policy.sell_discountCodeUsed, redeemsHash]
      cases hpre : a.options.codePreimage with
      | none => simp [spendHash]
      | some preimage =>
        have hunused := (permitted.hash preimage hpre).2
        by_cases heq : host.sha256 preimage = hash
        · subst heq
          simp [spendHash, hunused]
        · simp [spendHash, heq, Ne.symm heq]
    | @change x i c => cases c <;> simp [Policy.change, redeemsHash]
    | same hop =>
      cases op <;> first | cases hop; done | simp [redeemsHash]
    | code | limit | withdrawal | cap | transferFee | affiliate | royalty | hashes =>
      simp [redeemsHash, Policy.countWithdrawal]

theorem redeemsHash_le_one (h0 : Fresh host w0) (steps : List (Step host)) (hash : Bytes32) :
    tally (redeemsHash hash) (history step w0 steps) ≤ 1 := by
  have hcount : (run step w0 steps).hashUses hash =
      tally (redeemsHash hash) (history step w0 steps) := by
    refine Along.count_eq (I := Sound host) (c := fun w => w.hashUses hash)
      (fun _ _ _ hw hok => hw.step hok) (fun _ _ _ hw _ hok => hashUses_step hw hok)
      .trivial (.fresh h0) ?_
    obtain ⟨tokens, -, rfl⟩ := h0
    rfl
  rw [← hcount, World.hashUses]
  have hbit := Bool.toNat_le ((run step w0 steps).policy.discountCodeUsed hash)
  omega

/-! ## Codes -/

/-- 1 for a purchase that uses the event's code. -/
def redeemsCode (e c : String) : World × Step host × World → Int
  | (_, .call _ (.processPayment a), _) =>
    if a.eventId = e ∧ a.options.discountCode = some c then 1 else 0
  | _ => 0

/-- The step creates the event's code. -/
def createsCode (e c : String) : World × Step host × World → Bool
  | (_, .call _ (.createDiscountCode event code _ _ _), _) => event == e && code == c
  | _ => false

/-- `current_uses` of the code, 0 for a code that was never created. -/
def World.codeUses (w : World) (e c : String) : Int :=
  ((w.policy.discountCode (e, c)).map fun d => (d.currentUses : Int)).getD 0

/-- The code was used at most as often as its creation allows. -/
def World.CodeWithin (w : World) (e c : String) : Prop :=
  ∀ d, w.policy.discountCode (e, c) = some d → d.currentUses ≤ d.maxUses

/-- A use takes the code one step up, within its limit. -/
theorem codeUses_sale {a : Purchase} {noted : String × String → Bool} {p : Policy}
    (hp : Permits host w a) (hs : p = w.policy.sell host a noted) (hw' : w'.policy = p)
    (hin : w.CodeWithin e c) :
    w'.codeUses e c = w.codeUses e c +
        (if a.eventId = e ∧ a.options.discountCode = some c then 1 else 0) ∧
      w'.CodeWithin e c := by
  subst hs
  simp only [World.codeUses, World.CodeWithin, hw', Policy.sell_discountCode]
  cases hcode : a.options.discountCode with
  | none =>
    simp only [countUse, reduceCtorEq, and_false, if_false, add_zero, true_and]
    exact hin
  | some code =>
    obtain ⟨data, hdata, hlt⟩ := hp.code code hcode
    by_cases heq : (e, c) = (a.eventId, code)
    · obtain ⟨rfl, rfl⟩ := Prod.mk.inj heq
      simp only [countUse, update_self, hdata, Option.map_some, Option.getD_some, and_self,
        if_true, Option.some.injEq]
      refine ⟨by push_cast; rfl, ?_⟩
      rintro d rfl
      exact hlt
    · have hne : ¬ (a.eventId = e ∧ code = c) := by
        rintro ⟨rfl, rfl⟩
        exact heq rfl
      simp only [countUse, update_of_ne heq, Option.some.injEq, if_neg hne, add_zero, true_and]
      exact hin

theorem codeUses_step (hw : Sound host w) (hin : w.CodeWithin e c) (h : step w s = .ok w') :
    w'.codeUses e c = (if createsCode e c (w, s, w') then 0 else
        w.codeUses e c + redeemsCode e c (w, s, w')) ∧
      w'.CodeWithin e c := by
  cases s with
  | outside tokens sent =>
    obtain rfl := pure_eq_ok.mp h
    exact ⟨by simp [createsCode, redeemsCode, World.codeUses], hin⟩
  | call env op =>
    have hreg := call_regulation hw.toSetup h
    generalize hp : w'.policy = p at hreg
    have hsame : p.discountCode = w.policy.discountCode →
        w'.codeUses e c = w.codeUses e c ∧ w'.CodeWithin e c := by
      intro heq
      simp only [World.codeUses, World.CodeWithin, hp, heq]
      exact ⟨trivial, hin⟩
    cases hreg with
    | sale permitted => exact codeUses_sale permitted rfl hp hin
    | @code event code pct expires uses =>
      by_cases heq : (e, c) = (event, code)
      · obtain ⟨rfl, rfl⟩ := Prod.mk.inj heq
        simp [World.codeUses, World.CodeWithin, createsCode, hp]
      · have hne : ¬ (event = e ∧ code = c) := by
          rintro ⟨rfl, rfl⟩
          exact heq rfl
        simp only [World.codeUses, World.CodeWithin, createsCode, redeemsCode, hp,
          update_of_ne heq, Bool.and_eq_true, beq_iff_eq, hne, if_false, add_zero, true_and]
        exact hin
    | @change x i c => exact (by cases c <;> simpa [createsCode, redeemsCode] using hsame rfl)
    | same hop =>
      cases op <;> first | cases hop; done | simpa [createsCode, redeemsCode] using hsame rfl
    | limit | withdrawal | cap | transferFee | affiliate | royalty | hashes =>
      simpa [createsCode, redeemsCode] using hsame rfl

/-- **Discount limits.** In every run a hash is redeemed by at most one
purchase, and the uses of a code are the purchases that used it since it was
last created, never more than it allows. -/
theorem discounts_within_limits (h0 : Fresh host w0) (steps : List (Step host)) :
    (∀ hash, tally (redeemsHash hash) (history step w0 steps) ≤ 1) ∧
      ∀ e c, since (createsCode e c) (redeemsCode e c) (history step w0 steps) =
          (run step w0 steps).codeUses e c ∧
        ∀ d, (run step w0 steps).policy.discountCode (e, c) = some d →
          (run step w0 steps).codeUses e c = d.currentUses ∧ d.currentUses ≤ d.maxUses := by
  refine ⟨redeemsHash_le_one h0 steps, fun e c => ?_⟩
  let I : World → List (World × Step host × World) → Prop := fun w hist =>
    Sound host w ∧ w.CodeWithin e c ∧
      w.codeUses e c = since (createsCode e c) (redeemsCode e c) hist
  have hinv : I (run step w0 steps) (history step w0 steps) := by
    refine Along.history_inv ?_ .trivial ⟨.fresh h0, ?_⟩
    · rintro w s w' hist ⟨hw, hin, hcount⟩ - hok
      obtain ⟨hstep, hin'⟩ := codeUses_step hw hin hok
      exact ⟨hw.step hok, hin', by rw [hstep, hcount, since_concat]⟩
    · obtain ⟨tokens, -, rfl⟩ := h0
      refine ⟨?_, rfl⟩
      intro d hd
      cases hd
  obtain ⟨-, hin, hcount⟩ := hinv
  exact ⟨hcount.symm, fun d hd => ⟨by simp [World.codeUses, hd], hin d hd⟩⟩

namespace Sample

/-- The admin creates a code for one use, the organizer registers a hash, and a guest
pays with both. -/
def couponRun : List (Step node) :=
  [start, byAdmin (.createDiscountCode "e1" "SAVE" 20 2000 1),
    byOrganizer event (.addDiscountHashes "e1" [emptyDigest]),
    byAlice event (.processPayment { order "t1" "e1" alice usdc 1 with
      options := ⟨some [], none, some "SAVE", none⟩ })]

end Sample

theorem discounts_within_limits_coupon :
    ((run step Sample.deployed Sample.couponRun).codeUses "e1" "SAVE" = 1 ∧
        tally (redeemsHash Sample.emptyDigest)
          (history step Sample.deployed Sample.couponRun) = 1) ∧
      (∀ hash, tally (redeemsHash hash) (history step Sample.deployed Sample.couponRun) ≤ 1) ∧
      ∀ e c, since (createsCode e c) (redeemsCode e c)
            (history step Sample.deployed Sample.couponRun) =
          (run step Sample.deployed Sample.couponRun).codeUses e c ∧
        ∀ d, (run step Sample.deployed Sample.couponRun).policy.discountCode (e, c) = some d →
          (run step Sample.deployed Sample.couponRun).codeUses e c = d.currentUses ∧
            d.currentUses ≤ d.maxUses :=
  ⟨by decide, discounts_within_limits Sample.deployed_fresh Sample.couponRun⟩

end Agora.TicketPayment
