import Agora.ProSubscription.Members
import Mathlib.Data.Set.Card
import Mathlib.Order.Interval.Finset.Nat

/-!
# Paid membership

The seconds in which `is_pro_member` answers yes are paid for. What an
organizer may still use is the time up to the stored end of the subscription,
also of a cancelled one, since a renewal goes on from there. Together with the
seconds used so far it is at most what was paid.
-/

namespace Agora.ProSubscription

open Lib Function

/-- The ledger's time at a step; a change made outside has none. -/
def Step.time : Step → Option Nat
  | .call env _ => some env.timestamp
  | .outside _ => none

/-- The months that a call buys for the organizer if it succeeds. -/
def Op.months (o : Address) : Op → Nat
  | .subscribePro p m | .renewSubscription p m => if p = o then m else 0
  | _ => 0

def Step.months (o : Address) : Step → Nat
  | .call _ op => op.months o
  | .outside _ => 0

/-- The months the organizer paid for in a history. -/
def monthsPaid (o : Address) (hist : List (World × Step × World)) : Nat :=
  (hist.map fun x => x.2.1.months o).sum

/-- At some moment of second `u`, `is_pro_member` answers yes: the steps so far were not after `u`
and those to come are not before it. -/
def MemberAt (self : Address) (w : World) (steps : List Step) (o : Address) (u : Nat) : Prop :=
  ∃ pre post, steps = pre ++ post ∧ (∀ t ∈ pre.filterMap Step.time, t ≤ u) ∧
    (∀ t ∈ post.filterMap Step.time, u ≤ t) ∧
    (run (step self) w pre).roll.isProMember u o = true

namespace Roll

variable {r r' : Roll} {now : Nat} {o : Address} {op : Op}

/-- The stored end of the organizer's subscription. -/
def expiry (r : Roll) (o : Address) : Nat := ((r.subscription o).map (·.expiresAt)).getD 0

theorem expiry_setSubscription {s : Subscription} (o : Address) :
    (r.setSubscription s).expiry o = if o = s.organizer then s.expiresAt else r.expiry o := by
  unfold expiry setSubscription
  split
  · rename_i ho
    subst ho
    simp
  · rename_i ho
    simp [ho]

theorem expiry_add (p : Address) : (r.addToProMembersList p).expiry o = r.expiry o := by
  unfold expiry
  rw [addToProMembersList_subscription]

theorem expiry_deactivate {p : Address} {s : Subscription} (hk : r.Keyed)
    (hs : r.subscription p = some s) : (r.deactivate p s).expiry o = r.expiry o := by
  have heq : (r.deactivate p s).expiry o =
      (r.setSubscription { s with isActive := false }).expiry o := rfl
  rw [heq, expiry_setSubscription]
  split
  · rename_i ho
    rw [ho, hk p s hs, expiry, hs]
    rfl
  · rfl

theorem expiry_lookUp (hk : r.Keyed) (p : Address) :
    (r.getSubscriptionWithExpiration now p).2.expiry o = r.expiry o := by
  rcases r.getSubscriptionWithExpiration_cases now p with ⟨s, hs, -, -, -, heq⟩ | ⟨heq, -⟩
  · rw [heq]; exact expiry_deactivate hk hs
  · rw [heq]

theorem lt_expiry_of_isProMember (h : r.isProMember now o = true) : now < r.expiry o := by
  unfold isProMember at h
  rcases r.getSubscriptionWithExpiration_cases now o with ⟨s, -, -, -, -, heq⟩ | ⟨heq, -⟩
  · rw [heq] at h
    simp at h
  · rw [heq] at h
    unfold expiry
    cases hs : r.subscription o with
    | none => simp [hs] at h
    | some s =>
      simp only [hs, Bool.and_eq_true, decide_eq_true_eq] at h
      exact h.2

theorem expiry_subscribed {p token : Address} {months : Nat} {amount : Int} (hk : r.Keyed)
    (counted : (((r.getSubscriptionWithExpiration now p).2.setSubscription
      ⟨p, .pro, now, now + secondsPerMonth * months, true, amount, token⟩).addToProMembersList
        p).incrementTotalProSubscriptions = .ok r') :
    r'.expiry o = if o = p then now + secondsPerMonth * months else r.expiry o := by
  rw [incrementTotalProSubscriptions_eq_ok counted]
  show (((r.getSubscriptionWithExpiration now p).2.setSubscription _).addToProMembersList p).expiry
    o = _
  rw [expiry_add, expiry_setSubscription, expiry_lookUp hk]

theorem expiry_renewed {p : Address} {months : Nat} {s : Subscription} {amount : Int} (hk : r.Keyed)
    (stored : r.subscription p = some s) :
    ((r.setSubscription
      { s with
        expiresAt := max s.expiresAt now + secondsPerMonth * months
        isActive := true
        amountPaid := amount }).addToProMembersList p).expiry o =
      if o = p then max (r.expiry p) now + secondsPerMonth * months else r.expiry o := by
  have hend : r.expiry p = s.expiresAt := by
    rw [expiry, stored]
    rfl
  rw [expiry_add, expiry_setSubscription, hk p s stored, hend]

/-- A call moves the end by what it buys, from the old end or from now. -/
theorem expiry_le (hk : r.Keyed) (h : Moves now r op r') :
    r'.expiry o ≤ max (r.expiry o) now + secondsPerMonth * op.months o := by
  cases h with
  | @subscribed p _ months _ _ _ counted =>
    rw [expiry_subscribed hk counted, Op.months]
    by_cases ho : o = p
    · simp only [ho, if_true]; omega
    · simp only [ho, Ne.symm ho, if_false]; omega
  | @renewed p months _ _ stored =>
    rw [expiry_renewed hk stored, Op.months]
    by_cases ho : o = p
    · simp only [ho, if_true]; omega
    · simp only [ho, Ne.symm ho, if_false]; omega
  | @cancelled _ p s _ found =>
    have hstored := lookUp_subscription hk now p
    rw [found] at hstored
    rw [expiry_deactivate hk.lookUp hstored, expiry_lookUp hk]
    omega
  | already =>
    rw [expiry_lookUp hk]
    omega
  | lookedUp =>
    rw [expiry_lookUp hk]
    omega
  | basic =>
    rw [expiry_setSubscription]
    dsimp only
    split <;> omega
  | kept => omega

end Roll

/-! ## Runs -/

section Runs

variable {self : Address} {w : World} {steps : List Step} {o : Address}

/-- Up to any time not before the steps, the seconds used and the seconds left are in a set that
is paid for. -/
def Covered (self : Address) (w : World) (o : Address) (steps : List Step) : Prop :=
  ∀ T, (∀ t ∈ steps.filterMap Step.time, t ≤ T) → ∃ F : Finset Nat,
    (∀ u ≤ T, MemberAt self w steps o u → u ∈ F) ∧
    (∀ u, T ≤ u → u < (run (step self) w steps).roll.expiry o → u ∈ F) ∧
    F.card ≤ secondsPerMonth * monthsPaid o (history (step self) w steps)

/-- A second of a longer run was one before the last step, or comes after it. -/
theorem MemberAt.concat {a : Step} {u : Nat} (h : MemberAt self w (steps ++ [a]) o u) :
    (MemberAt self w steps o u ∧ ∀ t ∈ a.time, u ≤ t) ∨
      (∀ t ∈ steps.filterMap Step.time, t ≤ u) ∧ (∀ t ∈ a.time, t ≤ u) ∧
        (run (step self) w (steps ++ [a])).roll.isProMember u o = true := by
  obtain ⟨pre, post, heq, hpre, hpost, hmember⟩ := h
  rcases List.eq_nil_or_concat post with rfl | ⟨post, b, rfl⟩
  · right
    rw [List.append_nil] at heq
    subst heq
    refine ⟨fun t ht => hpre t ?_, fun t ht => hpre t ?_, hmember⟩
    · rw [List.filterMap_append]
      exact List.mem_append_left _ ht
    · rw [List.filterMap_append]
      exact List.mem_append_right _ (by simpa using ht)
  · left
    rw [List.concat_eq_append, ← List.append_assoc] at heq
    obtain ⟨rfl, hlast⟩ := List.append_inj' heq rfl
    obtain rfl := List.singleton_inj.mp hlast
    rw [List.concat_eq_append, List.filterMap_append] at hpost
    refine ⟨⟨pre, post, rfl, hpre, fun t ht => hpost t (List.mem_append_left _ ht), hmember⟩, ?_⟩
    exact fun t ht => hpost t (List.mem_append_right _ (by simpa using ht))

theorem monthsPaid_concat {a : Step} (hok : ∃ w', step self (run (step self) w steps) a = .ok w') :
    monthsPaid o (history (step self) w (steps ++ [a])) =
      monthsPaid o (history (step self) w steps) + a.months o := by
  obtain ⟨w', hok⟩ := hok
  rw [history_append, history_of_ok hok]
  simp [monthsPaid, history]

theorem run_concat (a : Step) :
    run (step self) w (steps ++ [a]) = commit (step self) (run (step self) w steps) a := by
  rw [run_append, run_cons, run_nil]

/-- What one more step does to the end, at the time of the step. -/
theorem expiry_concat (hw : Fresh w) (self o : Address) (steps : List Step) (env : Env) (op : Op) :
    (run (step self) w (steps ++ [.call env op])).roll.expiry o +
        secondsPerMonth * monthsPaid o (history (step self) w steps) ≤
      max ((run (step self) w steps).roll.expiry o) env.timestamp +
        secondsPerMonth * monthsPaid o (history (step self) w (steps ++ [.call env op])) := by
  rw [run_concat]
  cases hok : step self (run (step self) w steps) (.call env op) with
  | ok w' =>
    have hle := Roll.expiry_le (o := o) (keyed_run hw steps) (call_moves hok)
    rw [commit_of_ok hok, monthsPaid_concat ⟨w', hok⟩, Step.months, mul_add]
    omega
  | error e =>
    rw [commit_of_error hok, history_append, history_of_error hok]
    simp only [history, List.append_nil]
    omega

theorem Covered.call (hw : Fresh w) (h : Covered self w o steps) {env : Env} {op : Op}
    (hlast : ∀ t ∈ steps.filterMap Step.time, t ≤ env.timestamp) :
    Covered self w o (steps ++ [.call env op]) := by
  intro T hT
  obtain ⟨F, hused, hleft, hcard⟩ := h env.timestamp hlast
  have hnow : env.timestamp ≤ T := hT _ (by simp [Step.time])
  have hend := expiry_concat hw self o steps env op
  have hmore : monthsPaid o (history (step self) w steps) ≤
      monthsPaid o (history (step self) w (steps ++ [.call env op])) := by
    rw [history_append]
    simp [monthsPaid]
  -- what this step buys lies behind the old end and behind its own time
  let start := max ((run (step self) w steps).roll.expiry o) env.timestamp
  let bought := secondsPerMonth * monthsPaid o (history (step self) w (steps ++ [.call env op])) -
    secondsPerMonth * monthsPaid o (history (step self) w steps)
  have hmul := Nat.mul_le_mul_left secondsPerMonth hmore
  have hin (u : Nat) (hu : env.timestamp ≤ u)
      (hlt : u < (run (step self) w (steps ++ [.call env op])).roll.expiry o) :
      u ∈ F ∪ Finset.Ico start (start + bought) := by
    rw [Finset.mem_union, Finset.mem_Ico]
    by_cases hold : u < (run (step self) w steps).roll.expiry o
    · exact .inl (hleft u hu hold)
    · right
      omega
  refine ⟨F ∪ Finset.Ico start (start + bought), fun u hu hmember => ?_,
    fun u hu hlt => hin u (hnow.trans hu) hlt, ?_⟩
  · rcases hmember.concat with ⟨hbefore, htime⟩ | ⟨-, htime, hpro⟩
    · exact Finset.mem_union_left _ (hused u (htime _ rfl) hbefore)
    · exact hin u (htime _ rfl) (Roll.lt_expiry_of_isProMember hpro)
  · calc (F ∪ Finset.Ico start (start + bought)).card
        ≤ F.card + (Finset.Ico start (start + bought)).card := Finset.card_union_le _ _
      _ = F.card + bought := by rw [Nat.card_Ico, Nat.add_sub_cancel_left]
      _ ≤ _ := by omega

theorem Covered.outside (h : Covered self w o steps) {tokens : Tokens} :
    Covered self w o (steps ++ [.outside tokens]) := by
  intro T hT
  have htimes :
      (steps ++ [Step.outside tokens]).filterMap Step.time = steps.filterMap Step.time := by
    simp [Step.time]
  rw [htimes] at hT
  obtain ⟨F, hused, hleft, hcard⟩ := h T hT
  have hok : step self (run (step self) w steps) (.outside tokens) =
      .ok { run (step self) w steps with tokens } := rfl
  have hroll : (run (step self) w (steps ++ [.outside tokens])).roll =
      (run (step self) w steps).roll := by
    rw [run_concat, commit_of_ok hok]
  refine ⟨F, fun u hu hmember => hused u hu ?_, fun u hu hlt => hleft u hu (hroll ▸ hlt), ?_⟩
  · rcases hmember.concat with ⟨hbefore, -⟩ | ⟨hpast, -, hpro⟩
    · exact hbefore
    · rw [hroll] at hpro
      exact ⟨steps, [], by simp, hpast, by simp, hpro⟩
  · rw [monthsPaid_concat ⟨_, hok⟩]
    exact hcard

end Runs

end Agora.ProSubscription
