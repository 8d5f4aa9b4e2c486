import Agora.ProSubscription.Contract
import Mathlib.Data.List.Nodup

/-!
# The Pro members

The list of the members should hold exactly the organizers with an active Pro
subscription, and the counter should be its length. A renewal enters the list
without counting, and whatever the tier is; the admin's cancellation counts
down also for a Basic subscription.
-/

namespace Agora.ProSubscription

open Lib Function

namespace Roll

/-- Every record is stored under its organizer. -/
def Keyed (r : Roll) : Prop := ∀ o s, r.subscription o = some s → s.organizer = o

/-- The organizer has an active Pro subscription. -/
def IsPro (r : Roll) (o : Address) : Prop :=
  ∃ s, r.subscription o = some s ∧ s.tier = .pro ∧ s.isActive = true

/-- List and counter are those of the active Pro subscriptions. -/
structure Counts (r : Roll) : Prop where
  nodup : r.proMembersList.Nodup
  mem : ∀ o, o ∈ r.proMembersList ↔ r.IsPro o
  total : r.totalProSubscriptions = r.proMembersList.length

variable {r r' : Roll} {now : Nat} {o : Address} {s : Subscription}

/-! ## Reading and writing -/

@[simp] theorem setSubscription_list :
    (r.setSubscription s).proMembersList = r.proMembersList := rfl

@[simp] theorem setSubscription_total :
    (r.setSubscription s).totalProSubscriptions = r.totalProSubscriptions := rfl

@[simp] theorem addToProMembersList_subscription :
    (r.addToProMembersList o).subscription = r.subscription := by
  unfold addToProMembersList; split <;> rfl

@[simp] theorem addToProMembersList_total :
    (r.addToProMembersList o).totalProSubscriptions = r.totalProSubscriptions := by
  unfold addToProMembersList; split <;> rfl

theorem incrementTotalProSubscriptions_eq_ok (h : r.incrementTotalProSubscriptions = .ok r') :
    r' = { r with totalProSubscriptions := r.totalProSubscriptions + 1 } := by
  simp only [incrementTotalProSubscriptions, bind_eq_ok, okOr_eq_ok, checkedAddNat_eq_some,
    pure_eq_ok] at h
  obtain ⟨_, ⟨-, rfl⟩, rfl⟩ := h
  rfl

theorem deactivate_subscription (hs : s.organizer = o) :
    (r.deactivate o s).subscription =
      update r.subscription o (some { s with isActive := false }) := by
  subst hs
  rfl

theorem isPro_setSubscription (o : Address) :
    (r.setSubscription s).IsPro o ↔
      if o = s.organizer then s.tier = .pro ∧ s.isActive = true else r.IsPro o := by
  unfold IsPro setSubscription
  split
  · rename_i ho
    subst ho
    simp
  · rename_i ho
    simp [ho]

theorem getSubscriptionWithExpiration_cases (r : Roll) (now : Nat) (o : Address) :
    (∃ s, r.subscription o = some s ∧ s.tier = .pro ∧ s.isActive = true ∧ s.expiresAt ≤ now ∧
        r.getSubscriptionWithExpiration now o =
          (some { s with isActive := false }, r.deactivate o s)) ∨
      r.getSubscriptionWithExpiration now o = (r.subscription o, r) ∧
        ∀ s, r.subscription o = some s → s.tier = .pro → s.isActive = true → now < s.expiresAt := by
  cases hs : r.subscription o with
  | none => exact .inr ⟨by simp [getSubscriptionWithExpiration, hs], by simp⟩
  | some s =>
    by_cases hold : s.tier = .pro ∧ s.isActive = true ∧ s.expiresAt ≤ now
    · exact .inl ⟨s, rfl, hold.1, hold.2.1, hold.2.2, by
        simp [getSubscriptionWithExpiration, hs, hold]⟩
    · refine .inr ⟨by simp [getSubscriptionWithExpiration, hs, hold], ?_⟩
      rintro _ ⟨⟩ htier hactive
      by_contra hlate
      exact hold ⟨htier, hactive, by omega⟩

/-- What a look-up returns is stored after it. -/
theorem lookUp_subscription (hk : r.Keyed) (now : Nat) (o : Address) :
    (r.getSubscriptionWithExpiration now o).2.subscription o =
      (r.getSubscriptionWithExpiration now o).1 := by
  rcases r.getSubscriptionWithExpiration_cases now o with ⟨s, hs, -, -, -, heq⟩ | ⟨heq, -⟩
  · rw [heq]
    dsimp only
    rw [deactivate_subscription (hk o s hs), update_self]
  · rw [heq]

/-- An active Pro subscription that a look-up returns has not ended. -/
theorem lt_expiresAt_of_lookUp (h : (r.getSubscriptionWithExpiration now o).1 = some s)
    (htier : s.tier = .pro) (hactive : s.isActive = true) : now < s.expiresAt := by
  rcases r.getSubscriptionWithExpiration_cases now o with ⟨_, -, -, -, -, heq⟩ | ⟨heq, hlive⟩
  · rw [heq] at h
    cases h
    cases hactive
  · rw [heq] at h
    exact hlive s h htier hactive

/-! ## Keys -/

theorem Keyed.setSubscription (hk : r.Keyed) : (r.setSubscription s).Keyed := by
  intro o t ht
  by_cases ho : o = s.organizer
  · subst ho
    simp only [Roll.setSubscription, update_self, Option.some.injEq] at ht
    rw [ht]
  · simp only [Roll.setSubscription, update_of_ne ho] at ht
    exact hk o t ht

theorem Keyed.deactivate (hk : r.Keyed) : (r.deactivate o s).Keyed :=
  hk.setSubscription (s := { s with isActive := false })

theorem Keyed.lookUp (hk : r.Keyed) : (r.getSubscriptionWithExpiration now o).2.Keyed := by
  rcases r.getSubscriptionWithExpiration_cases now o with ⟨s, -, -, -, -, heq⟩ | ⟨heq, -⟩
  · rw [heq]; exact hk.deactivate
  · rw [heq]; exact hk

theorem Keyed.add (hk : r.Keyed) : (r.addToProMembersList o).Keyed := by
  unfold Keyed
  rw [addToProMembersList_subscription]
  exact hk

theorem Keyed.moves {op : Op} (hk : r.Keyed) (h : Moves now r op r') : r'.Keyed := by
  cases h with
  | subscribed _ counted =>
    rw [incrementTotalProSubscriptions_eq_ok counted]
    exact hk.lookUp.setSubscription.add
  | renewed => exact hk.setSubscription.add
  | cancelled => exact hk.lookUp.deactivate
  | already => exact hk.lookUp
  | lookedUp => exact hk.lookUp
  | basic => exact hk.setSubscription
  | kept => exact hk

/-! ## Counts -/

theorem Counts.leave (h : r.Counts) (hk : r.Keyed) (hs : r.subscription o = some s)
    (htier : s.tier = .pro) (hactive : s.isActive = true) : (r.deactivate o s).Counts := by
  have hmem : o ∈ r.proMembersList := (h.mem o).mpr ⟨s, hs, htier, hactive⟩
  refine ⟨h.nodup.erase o, fun p => ?_, ?_⟩
  · have hpro : (r.deactivate o s).IsPro p ↔
        (r.setSubscription { s with isActive := false }).IsPro p := Iff.rfl
    rw [hpro, isPro_setSubscription, hk o s hs]
    show p ∈ r.proMembersList.erase o ↔ _
    rw [h.nodup.mem_erase_iff, h.mem p]
    by_cases hp : p = o <;> simp [hp]
  · show r.totalProSubscriptions - 1 = (r.proMembersList.erase o).length
    rw [List.length_erase_of_mem hmem, h.total]

theorem Counts.lookUp (h : r.Counts) (hk : r.Keyed) (now : Nat) (o : Address) :
    (r.getSubscriptionWithExpiration now o).2.Counts := by
  rcases r.getSubscriptionWithExpiration_cases now o with ⟨s, hs, htier, hactive, -, heq⟩ | ⟨heq, -⟩
  · rw [heq]; exact h.leave hk hs htier hactive
  · rw [heq]; exact h

/-- One who is no member gets an active Pro subscription and is counted. -/
theorem Counts.enter (h : r.Counts) (hout : ¬ r.IsPro s.organizer) (htier : s.tier = .pro)
    (hactive : s.isActive = true)
    (hok : ((r.setSubscription s).addToProMembersList
      s.organizer).incrementTotalProSubscriptions = .ok r') : r'.Counts := by
  have hnew : s.organizer ∉ r.proMembersList := fun hmem => hout ((h.mem _).mp hmem)
  have hlist : ((r.setSubscription s).addToProMembersList s.organizer).proMembersList =
      r.proMembersList ++ [s.organizer] := by
    simp [addToProMembersList, hnew]
  obtain rfl := incrementTotalProSubscriptions_eq_ok hok
  refine ⟨?_, fun p => ?_, ?_⟩
  · rw [hlist, ← List.concat_eq_append]
    exact .concat hnew h.nodup
  · have hpro : ({ ((r.setSubscription s).addToProMembersList s.organizer) with
        totalProSubscriptions := ((r.setSubscription s).addToProMembersList
          s.organizer).totalProSubscriptions + 1 } : Roll).IsPro p ↔
        (r.setSubscription s).IsPro p := by
      unfold IsPro
      rw [addToProMembersList_subscription]
    rw [hpro, isPro_setSubscription, hlist, List.mem_append, List.mem_singleton, h.mem p]
    by_cases hp : p = s.organizer <;> simp [hp, htier, hactive]
  · rw [hlist, List.length_append, List.length_singleton, addToProMembersList_total,
      setSubscription_total, h.total]

/-- A record is rewritten and its organizer stays a member, or stays none. -/
theorem Counts.rewrite (h : r.Counts)
    (hsame : (s.tier = .pro ∧ s.isActive = true) ↔ r.IsPro s.organizer) :
    (r.setSubscription s).Counts := by
  refine ⟨h.nodup, fun p => ?_, h.total⟩
  rw [isPro_setSubscription, setSubscription_list, h.mem p]
  split
  · rename_i hp
    rw [hp, hsame]
  · rfl

theorem Counts.add_eq (h : r.Counts) (ho : r.IsPro o) : r.addToProMembersList o = r :=
  if_pos ((h.mem o).mpr ho)

/-- The three writes of a cancellation for one who is no member. -/
theorem Counts.deactivate_iff (h : r.Counts) (hk : r.Keyed) (hs : r.subscription o = some s)
    (hout : s.tier ≠ .pro) : (r.deactivate o s).Counts ↔ r.totalProSubscriptions = 0 := by
  have hnot : ¬ r.IsPro o := by
    rintro ⟨t, ht, htier, -⟩
    obtain rfl := Option.some.inj (hs.symm.trans ht)
    exact hout htier
  have hlist : (r.deactivate o s).proMembersList = r.proMembersList :=
    List.erase_of_not_mem fun hmem => hnot ((h.mem o).mp hmem)
  have hset : (r.setSubscription { s with isActive := false }).Counts := by
    refine h.rewrite ?_
    simpa [hk o s hs] using hnot
  constructor
  · intro h'
    have htotal : r.totalProSubscriptions - 1 = r.proMembersList.length := by
      rw [← hlist]; exact h'.total
    have := h.total
    omega
  · intro hzero
    refine ⟨by rw [hlist]; exact h.nodup, fun p => ?_, ?_⟩
    · rw [hlist]
      exact hset.mem p
    · rw [hlist, ← h.total]
      show r.totalProSubscriptions - 1 = r.totalProSubscriptions
      omega

end Roll

/-! ## Runs -/

/-- A renewal finds an active Pro subscription. The admin cancels an active Basic subscription only
while no subscription is counted. -/
def KeepsCounts (w : World) : Op → Prop
  | .renewSubscription o _ => w.roll.IsPro o
  | .cancelSubscription o => ∀ s, w.roll.subscription o = some s → s.tier = .basic →
      s.isActive = true → w.roll.totalProSubscriptions = 0
  | _ => True

section Runs

variable {self : Address} {w w' : World} {a : Step} {now : Nat} {op : Op}

theorem SubscriptionTier.ne_pro {t : SubscriptionTier} : t ≠ .pro ↔ t = .basic := by
  cases t <;> simp

theorem Roll.lookUp_basic {r : Roll} {o : Address} {s : Subscription}
    (h : (r.getSubscriptionWithExpiration now o).1 = some s) (htier : s.tier = .basic) :
    r.getSubscriptionWithExpiration now o = (some s, r) := by
  rcases r.getSubscriptionWithExpiration_cases now o with ⟨t, -, ht, -, -, heq⟩ | ⟨heq, -⟩
  · rw [heq] at h
    cases h
    rw [ht] at htier
    cases htier
  · rw [heq] at h
    rw [heq, ← h]

theorem Roll.Counts.moves {r' : Roll} (h : w.roll.Counts) (hk : w.roll.Keyed)
    (hC : KeepsCounts w op) (hmove : Moves now w.roll op r') : r'.Counts := by
  have hlook (o : Address) := h.lookUp hk now o
  cases hmove with
  | @subscribed o token months amount r' free counted =>
    refine (hlook o).enter (s := ⟨o, .pro, now, _, true, amount, token⟩) ?_ rfl rfl counted
    rintro ⟨s, hs, htier, hactive⟩
    rw [Roll.lookUp_subscription hk] at hs
    exact free s hs ⟨hactive, Roll.lt_expiresAt_of_lookUp hs htier hactive⟩
  | @renewed o months s amount stored =>
    obtain ⟨t, ht, htier, hactive⟩ := hC
    obtain rfl := Option.some.inj (stored.symm.trans ht)
    have hset : (w.roll.setSubscription
        { s with
          expiresAt := max s.expiresAt now + secondsPerMonth * months
          isActive := true
          amountPaid := amount }).Counts := by
      refine h.rewrite ?_
      simp only [htier, hk o s stored, true_and, true_iff]
      exact ⟨s, stored, htier, hactive⟩
    rwa [hset.add_eq]
    rw [Roll.isPro_setSubscription, if_pos (hk o s stored).symm]
    exact ⟨htier, rfl⟩
  | @cancelled op o s hcall found active =>
    have hstored := Roll.lookUp_subscription hk now o
    rw [found] at hstored
    by_cases htier : s.tier = .pro
    · exact (hlook o).leave hk.lookUp hstored htier active
    · rcases hcall with rfl | ⟨-, hpro⟩
      · have heq := Roll.lookUp_basic found (SubscriptionTier.ne_pro.mp htier)
        rw [heq] at hstored ⊢
        exact (h.deactivate_iff hk hstored htier).mpr
          (hC s hstored (SubscriptionTier.ne_pro.mp htier) active)
      · exact absurd hpro htier
  | already => exact hlook _
  | lookedUp => exact hlook _
  | @basic o token free =>
    refine h.rewrite ?_
    simp only [reduceCtorEq, false_and, false_iff]
    rintro ⟨s, hs, hpro⟩
    exact free s hs hpro
  | kept => exact h

/-- A call after which list and counter are right meets the condition. -/
theorem keepsCounts_of_counts {r' : Roll} (h : w.roll.Counts) (hk : w.roll.Keyed)
    (hmove : Moves now w.roll op r') (h' : r'.Counts) : KeepsCounts w op := by
  cases hmove with
  | @renewed o months s amount stored =>
    by_contra hout
    have hnot : o ∉ w.roll.proMembersList := fun hmem => hout ((h.mem o).mp hmem)
    have htotal := h'.total
    have hlist : ∀ t, ((w.roll.setSubscription t).addToProMembersList o).proMembersList =
        w.roll.proMembersList ++ [o] := by
      intro t
      simp [Roll.addToProMembersList, hnot]
    rw [hlist, Roll.addToProMembersList_total, Roll.setSubscription_total, h.total] at htotal
    simp at htotal
  | @cancelled op o s hcall found active =>
    rcases hcall with rfl | ⟨rfl, -⟩
    · intro t ht htier hactive
      have hfound : w.roll.getSubscriptionWithExpiration now o = (some t, w.roll) := by
        rcases w.roll.getSubscriptionWithExpiration_cases now o with ⟨u, hu, hpro, -⟩ | ⟨heq, -⟩
        · obtain rfl := Option.some.inj (ht.symm.trans hu)
          rw [htier] at hpro
          cases hpro
        · rw [heq, ht]
      rw [hfound] at h' found
      cases found
      exact (h.deactivate_iff hk ht (SubscriptionTier.ne_pro.mpr htier)).mp h'
    · exact True.intro
  | @already op o s hcall found idle =>
    rcases hcall with rfl | rfl
    · intro t ht htier hactive
      rcases w.roll.getSubscriptionWithExpiration_cases now o with ⟨u, hu, hpro, -⟩ | ⟨heq, -⟩
      · obtain rfl := Option.some.inj (ht.symm.trans hu)
        rw [htier] at hpro
        cases hpro
      · rw [heq, ht] at found
        cases found
        rw [hactive] at idle
        cases idle
    · exact True.intro
  | kept setting =>
    cases op <;> first | exact True.intro | cases setting
  | subscribed => exact True.intro
  | lookedUp => exact True.intro
  | basic => exact True.intro

theorem keyed_run (hw : Fresh w) (steps : List Step) : (run (step self) w steps).roll.Keyed := by
  obtain ⟨tokens, rfl⟩ := hw
  refine Along.inv (I := fun w : World => w.roll.Keyed) (fun w a w' hk _ hok => ?_)
    .trivial (by rintro o s ⟨⟩)
  rcases step_cases hok with ⟨env, op, rfl, hmove⟩ | ⟨-, hsame⟩
  · exact hk.moves hmove
  · rw [hsame]; exact hk

theorem pro_members_iff {steps : List Step} (hw : Fresh w) :
    (∀ pre, pre <+: steps → (run (step self) w pre).roll.Counts) ↔
      Along (step self) (OnCalls KeepsCounts) w steps := by
  obtain ⟨tokens, rfl⟩ := hw
  refine Along.iff_forall_prefix (I := fun w : World => w.roll.Keyed ∧ w.roll.Counts)
    (fun w a w' hI hC hok => ?_) (fun _ hI => hI.2) (fun w a w' hI hok h' => ?_) ⟨?_, ?_⟩
  · rcases step_cases hok with ⟨env, op, rfl, hmove⟩ | ⟨-, hsame⟩
    · exact ⟨hI.1.moves hmove, hI.2.moves hI.1 hC hmove⟩
    · rw [hsame]; exact hI
  · rcases step_cases hok with ⟨env, op, rfl, hmove⟩ | ⟨⟨_, rfl⟩, -⟩
    · exact keepsCounts_of_counts hI.2 hI.1 hmove h'
    · exact True.intro
  · rintro o s ⟨⟩
  · refine ⟨List.nodup_nil, fun o => ?_, rfl⟩
    simp [World.empty, Roll.IsPro]

end Runs

open Sample in
/-- An early renewal of an active subscription. -/
theorem pro_members_renewed :
    Fresh deployed ∧
      ∀ pre, pre <+: renewedRun → (run (step self) deployed pre).roll.Counts := by
  refine ⟨deployed_fresh, (pro_members_iff deployed_fresh).mpr ?_⟩
  refine ⟨fun _ _ => True.intro, fun _ _ => True.intro, fun _ _ => ?_, True.intro⟩
  show (run (step self) deployed subscribedRun).roll.IsPro alice
  exact ⟨⟨alice, .pro, 1000, 1000 + secondsPerMonth, true, 100, usdc⟩, by decide, rfl, rfl⟩

open Sample in
/-- The renewal of a cancelled subscription is not counted. -/
theorem pro_members_miscounted :
    Fresh deployed ∧ (run (step self) deployed revivedRun).roll.proMembersList = [alice] ∧
      (run (step self) deployed revivedRun).roll.totalProSubscriptions = 0 ∧
      ¬ (run (step self) deployed revivedRun).roll.Counts := by
  have hlist : (run (step self) deployed revivedRun).roll.proMembersList = [alice] := by decide
  have htotal : (run (step self) deployed revivedRun).roll.totalProSubscriptions = 0 := by decide
  refine ⟨deployed_fresh, hlist, htotal, fun h => ?_⟩
  have hcount := h.total
  rw [hlist, htotal] at hcount
  cases hcount

end Agora.ProSubscription
