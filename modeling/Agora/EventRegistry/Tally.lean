import Agora.EventRegistry.Frame
import Agora.Lib.Shards
import Mathlib.Data.Finset.Card

/-!
# The tally of a dispute

The ballots of an event are read off the run, and `Tallied d e ballots` says
that the record of the dispute, the stored votes and the list of the voters all
agree with them. Every call keeps it, and a record moves on only by a vote or
by the outcome (`Dispute.Follows`).
-/

namespace Agora.EventRegistry

open Lib Function

variable {host : Host}

/-! ## The ballots -/

/-- The voters of an event, as they are stored. -/
def Disputes.voters (d : Disputes) (e : String) : Shards Address :=
  ⟨fun n => d.voteShard (e, n), d.voteCount e⟩

/-- The ballot that a call casts in the dispute of the event. -/
def ballotOf (e : String) : DisputeOp → Option (Address × DisputeVote)
  | .voteOnDispute e' a v => if e' = e then some (a, v) else none
  | .openDispute .. | .resolveDispute .. => none

/-- The record of a dispute counts the ballots. -/
structure Dispute.Counts (x : Dispute) (ballots : List (Address × DisputeVote)) : Prop where
  total : x.totalVotes = ballots.length
  sides : ∀ v, x.votesFor v = (ballots.map Prod.snd).count v
  quorum : x.quorumThresholdBps = defaultQuorumBps
  unvoted : x.status = .open_ → ballots = []
  undecided : ¬ x.resolved → x.pending = true
  decided : x.resolved → x.status = x.winner ∧ x.buyerVotes * 10000 < 2 ^ 32

/-- The votes on the event are the ballots, in the order in which they were cast. -/
structure Tallied (d : Disputes) (e : String) (ballots : List (Address × DisputeVote)) : Prop where
  once : (ballots.map Prod.fst).Nodup
  stored : ∀ a v, d.vote (e, a) = some v ↔ (a, v) ∈ ballots
  listed : (d.voters e).toList disputeShardSize = ballots.map Prod.fst
  packed : (d.voters e).Packed disputeShardSize
  record : ∀ x, d.dispute e = some x → x.Counts ballots
  undisputed : d.dispute e = none → ballots = []

section Ballots

variable {ctx : Context} {d d' : Disputes} {e : String} {a : Address} {v : DisputeVote}
  {x y : Dispute} {op : DisputeOp} {ballots : List (Address × DisputeVote)}

theorem Dispute.not_resolved_of_pending (h : x.pending = true) : ¬ x.resolved := by
  unfold Dispute.pending at h
  rintro (hst | hst) <;> simp [hst] at h

namespace Dispute.Counts

theorem opened (e : String) (a : Address) (now closesAt : Nat) :
    (newDispute e a now closesAt).Counts [] where
  total := rfl
  sides v := by cases v <;> rfl
  quorum := rfl
  unvoted _ := rfl
  undecided _ := rfl
  decided h := by rcases h with h | h <;> cases h

theorem voted (h : x.Counts ballots) (a : Address) (v : DisputeVote) :
    (x.voted v).Counts (ballots ++ [(a, v)]) := by
  have hstatus : (x.voted v).status = .voting := by cases v <;> rfl
  have hpending : (x.voted v).pending = true := by simp [Dispute.pending, hstatus]
  refine ⟨?_, fun u => ?_, ?_, fun hopen => ?_, fun _ => hpending, fun hres => ?_⟩
  · have htotal : (x.voted v).totalVotes = x.totalVotes + 1 := by cases v <;> rfl
    rw [htotal, h.total, List.length_append, List.length_singleton]
  · have hside : (x.voted v).votesFor u = x.votesFor u + [v].count u := by
      cases v <;> cases u <;> rfl
    rw [hside, h.sides, List.map_append, List.count_append]
    rfl
  · have hquorum : (x.voted v).quorumThresholdBps = x.quorumThresholdBps := by cases v <;> rfl
    rw [hquorum, h.quorum]
  · rw [hstatus] at hopen
    cases hopen
  · exact absurd hres (Dispute.not_resolved_of_pending hpending)

theorem decide (h : x.Counts ballots) (hroom : x.buyerVotes * 10000 < 2 ^ 32) :
    Dispute.Counts { x with status := x.winner } ballots where
  total := h.total
  sides
    | .buyerFavor => h.sides .buyerFavor
    | .organizerFavor => h.sides .organizerFavor
  quorum := h.quorum
  unvoted hopen := by
    rcases x.winner_cases with hw | hw <;> rw [hw] at hopen <;> cases hopen
  undecided hno := absurd x.winner_cases hno
  decided _ := ⟨rfl, hroom⟩

/-- The counters of the two sides add up to the number of the votes. -/
theorem sum (h : x.Counts ballots) : x.buyerVotes + x.organizerVotes = x.totalVotes := by
  have hbuyer : x.buyerVotes = _ := h.sides .buyerFavor
  have horganizer : x.organizerVotes = _ := h.sides .organizerFavor
  rw [hbuyer, horganizer, h.total]
  clear hbuyer horganizer h
  induction ballots with
  | nil => rfl
  | cons b ballots ih =>
    obtain ⟨a, v⟩ := b
    cases v <;> simp <;> omega

/-- The votes decide for the buyers exactly if these have the majority: the quorum is below it. -/
theorem winner_eq_buyer (h : x.Counts ballots) :
    x.winner = .resolvedBuyer ↔ x.organizerVotes < x.buyerVotes := by
  have hsum := h.sum
  unfold Dispute.winner
  rw [h.quorum, defaultQuorumBps]
  constructor
  · intro hw
    by_contra hno
    rw [if_neg fun hcond => hno hcond.2] at hw
    cases hw
  · intro hmajority
    have hvotes : 0 < x.totalVotes := by omega
    have hhalf : 3000 ≤ x.buyerVotes * 10000 / x.totalVotes := by
      rw [Nat.le_div_iff_mul_le hvotes]
      omega
    rw [if_pos ⟨⟨hvotes, hhalf⟩, hmajority⟩]

end Dispute.Counts

namespace Tallied

theorem empty : Tallied .empty e [] where
  once := List.nodup_nil
  stored _ _ := ⟨nofun, nofun⟩
  listed := by simp [Shards.toList, Shards.used, Disputes.voters, Disputes.empty, disputeShardSize]
  packed _ _ := rfl
  record := nofun
  undisputed _ := rfl

/-- A new record of the dispute that counts the same ballots. -/
theorem rewrite (h : Tallied d e ballots) (hvote : ∀ a, d'.vote (e, a) = d.vote (e, a))
    (hvoters : d'.voters e = d.voters e) (hrecord : ∀ x, d'.dispute e = some x → x.Counts ballots)
    (hnone : d'.dispute e = none → ballots = []) : Tallied d' e ballots := by
  refine ⟨h.once, fun a v => ?_, ?_, ?_, hrecord, hnone⟩
  · rw [hvote]
    exact h.stored a v
  · rw [hvoters]
    exact h.listed
  · rw [hvoters]
    exact h.packed

theorem elsewhere (h : Tallied d e ballots) {y : Dispute} (hne : y.eventId ≠ e) :
    Tallied (d.storeDispute y) e ballots := by
  have hsame : (d.storeDispute y).dispute e = d.dispute e := update_of_ne hne.symm _ _
  refine h.rewrite (fun _ => rfl) rfl ?_ ?_
  · rw [hsame]
    exact h.record
  · rw [hsame]
    exact h.undisputed

theorem store (h : Tallied d e ballots) {y : Dispute} (hkey : y.eventId = e)
    (hy : y.Counts ballots) : Tallied (d.storeDispute y) e ballots := by
  have hnew : (d.storeDispute y).dispute e = some y := by
    rw [← hkey]
    exact update_self _ _ _
  refine h.rewrite (fun _ => rfl) rfl ?_ ?_
  · rw [hnew]
    rintro x ⟨⟩
    exact hy
  · rw [hnew]
    exact nofun

theorem voters_cast (d : Disputes) (e e' : String) (x : Dispute) (a : Address) (v : DisputeVote) :
    (d.cast e' x a v).voters e =
      if e = e' then (d.voters e').push disputeShardSize a else d.voters e := by
  have htable : (d.cast e' x a v).voters e =
      update (fun e => d.voters e) e' ((d.voters e').push disputeShardSize a) e :=
    congrFun (Shards.table_push e') e
  split
  · rename_i he
    subst he
    exact htable.trans (update_self ..)
  · rename_i he
    exact htable.trans (update_of_ne he ..)

theorem cast_elsewhere (h : Tallied d e ballots) {e' : String} (hkey : x.eventId = e')
    (hne : e ≠ e') : Tallied (d.cast e' x a v) e ballots := by
  have hsame : (d.cast e' x a v).dispute e = d.dispute e := by
    rw [← hkey] at hne
    exact update_of_ne hne _ _
  refine h.rewrite (fun b => ?_) ?_ ?_ ?_
  · exact update_of_ne (fun heq => hne (Prod.mk.inj heq).1) _ _
  · rw [voters_cast, if_neg hne]
  · rw [hsame]
    exact h.record
  · rw [hsame]
    exact h.undisputed

theorem cast (h : Tallied d e ballots) (hkey : x.eventId = e) (hx : d.dispute e = some x)
    (hfirst : d.vote (e, a) = none) : Tallied (d.cast e x a v) e (ballots ++ [(a, v)]) := by
  have hnew : (d.cast e x a v).dispute e = some (x.voted v) := by
    show update d.dispute x.eventId _ e = _
    rw [hkey, update_self]
  have hnot : a ∉ ballots.map Prod.fst := by
    intro hmem
    obtain ⟨⟨b, u⟩, hb, rfl⟩ := List.mem_map.mp hmem
    rw [(h.stored b u).mpr hb] at hfirst
    cases hfirst
  have hsize : 0 < disputeShardSize := by decide
  refine ⟨?_, fun b u => ?_, ?_, ?_, ?_, ?_⟩
  · rw [List.map_append, List.map_singleton, ← List.concat_eq_append]
    exact h.once.concat hnot
  · show update d.vote (e, a) (some v) (e, b) = some u ↔ _
    by_cases hb : b = a
    · subst hb
      rw [update_self, Option.some.injEq, List.mem_append, List.mem_singleton, Prod.mk.injEq]
      constructor
      · exact fun hu => .inr ⟨rfl, hu.symm⟩
      · rintro (hmem | ⟨-, rfl⟩)
        · exact absurd (List.mem_map_of_mem hmem) hnot
        · rfl
    · have hne : ((e, b) : String × Address) ≠ (e, a) := fun heq => hb (Prod.mk.inj heq).2
      rw [update_of_ne hne, h.stored, List.mem_append, List.mem_singleton, Prod.mk.injEq]
      simp [hb]
  · rw [voters_cast, if_pos rfl, Shards.toList_push hsize h.packed, h.listed, List.map_append]
    rfl
  · rw [voters_cast, if_pos rfl]
    exact h.packed.push hsize
  · rw [hnew]
    rintro y ⟨⟩
    exact (h.record x hx).voted a v
  · rw [hnew]
    exact nofun

/-- **A call keeps the tally.** -/
theorem ruled (hk : d.Keyed) (h : Tallied d e ballots) (hr : Ruled ctx d op d') :
    Tallied d' e (ballots ++ (ballotOf e op).toList) := by
  cases hr with
  | @opened e' a isNew =>
    rw [ballotOf, Option.toList_none, List.append_nil]
    by_cases he : e' = e
    · subst he
      obtain rfl := h.undisputed isNew
      exact h.store rfl (.opened ..)
    · exact h.elsewhere he
  | @voted e' a v x stored pending _ first =>
    have hkey := hk e' x stored
    by_cases he : e' = e
    · subst he
      rw [ballotOf, if_pos rfl]
      exact h.cast hkey stored first
    · rw [ballotOf, if_neg he, Option.toList_none, List.append_nil]
      exact h.cast_elsewhere hkey (Ne.symm he)
  | again =>
    rw [ballotOf, Option.toList_none, List.append_nil]
    exact h
  | @decided e' x stored _ room =>
    have hkey := hk e' x stored
    rw [ballotOf, Option.toList_none, List.append_nil]
    by_cases he : e' = e
    · subst he
      exact h.store hkey ((h.record x stored).decide room)
    · exact h.elsewhere (hkey ▸ he)

theorem getDisputeVotes_eq (h : Tallied d e ballots) :
    d.getDisputeVotes e = ballots.map Prod.snd := by
  have hread : d.getDisputeVotes e =
      ((d.voters e).toList disputeShardSize).filterMap fun a => d.vote (e, a) := by
    unfold Disputes.getDisputeVotes Shards.toList
    dsimp only
    split
    · rename_i hzero
      simp [Shards.used, Disputes.voters, hzero, disputeShardSize]
    · rw [List.filterMap_flatMap]
      rfl
  rw [hread, h.listed, List.filterMap_map, ← List.filterMap_eq_map]
  refine List.filterMap_congr fun b hb => ?_
  exact (h.stored b.1 b.2).mpr hb

theorem hasVoted_iff (h : Tallied d e ballots) (a : Address) :
    d.hasVoted e a = true ↔ a ∈ ballots.map Prod.fst := by
  rw [Disputes.hasVoted, Option.isSome_iff_exists]
  simp only [h.stored, List.mem_map, Prod.exists, exists_and_right, exists_eq_right]

end Tallied

end Ballots

/-! ## The tally along a run -/

/-- The ballot that a step casts in the dispute of the event. -/
def ballotIn (e : String) : World × Step host × World → Option (Address × DisputeVote)
  | (_, .call _ (.dispute op), _) => ballotOf e op
  | _ => none

/-- The moves of the status of a dispute on which `votes` votes were cast. -/
inductive DisputeStatus.Moves (votes : Nat) : DisputeStatus → DisputeStatus → Prop where
  | stays {s : DisputeStatus} : Moves votes s s
  | voted : Moves votes .open_ .voting
  | buyer : Moves votes .voting .resolvedBuyer
  | organizer : Moves votes .voting .resolvedOrganizer
  | unvoted (nobody : votes = 0) : Moves votes .open_ .resolvedOrganizer

/-- The next record `y` of the dispute `x`. -/
structure Dispute.Follows (x y : Dispute) : Prop where
  moves : x.status.Moves x.totalVotes y.status
  closesAt : y.closesAt = x.closesAt
  kept : ∀ v, x.votesFor v ≤ y.votesFor v
  final : x.resolved → y = x

/-- The tally of the event in the state `w` that was reached with the history `hist`. -/
structure ExactTally (e : String) (hist : List (World × Step host × World)) (w : World) : Prop where
  once : ((hist.filterMap (ballotIn e)).map Prod.fst).Nodup
  votes : w.disputes.getDisputeVotes e = (hist.filterMap (ballotIn e)).map Prod.snd
  voted : ∀ a, w.disputes.hasVoted e a = true ↔ a ∈ (hist.filterMap (ballotIn e)).map Prod.fst
  undisputed : w.disputes.dispute e = none → hist.filterMap (ballotIn e) = []
  sides : ∀ x, w.disputes.dispute e = some x →
    x.buyerVotes + x.organizerVotes = x.totalVotes ∧
      x.totalVotes = ((hist.filterMap (ballotIn e)).map Prod.fst).toFinset.card ∧
      x.totalVotes = (w.disputes.getDisputeVotes e).length
  timely : ∀ s env a v s', (s, .call env (.dispute (.voteOnDispute e a v)), s') ∈ hist →
    ∃ x, s.disputes.dispute e = some x ∧ env.timestamp < x.closesAt
  starts : ∀ s a s' y, (s, a, s') ∈ hist → s.disputes.dispute e = none →
    s'.disputes.dispute e = some y → y.status = .open_
  follows : ∀ s a s' x, (s, a, s') ∈ hist → s.disputes.dispute e = some x →
    ∃ y, s'.disputes.dispute e = some y ∧ x.Follows y

section Runs

variable {ctx : Context} {d d' : Disputes} {e : String} {x y : Dispute} {op : DisputeOp}
  {w w' : World} {a : Step host} {steps : List (Step host)}
  {ballots : List (Address × DisputeVote)}

theorem Dispute.Follows.refl (x : Dispute) : x.Follows x :=
  ⟨.stays, rfl, fun _ => le_rfl, fun _ => rfl⟩

theorem Dispute.Follows.voted (h : x.pending = true) (v : DisputeVote) : x.Follows (x.voted v) := by
  refine ⟨?_, by cases v <;> rfl, fun u => ?_,
    fun hres => absurd hres (Dispute.not_resolved_of_pending h)⟩
  · have hstatus : (x.voted v).status = .voting := by cases v <;> rfl
    rw [hstatus]
    unfold Dispute.pending at h
    cases hst : x.status
    case open_ => exact .voted
    case voting => exact .stays
    all_goals simp [hst] at h
  · cases v <;> cases u <;> simp [Dispute.voted, Dispute.votesFor]

theorem Dispute.Follows.decided (h : x.Counts ballots) (hno : ¬ x.resolved) :
    x.Follows { x with status := x.winner } := by
  refine ⟨?_, rfl, fun u => by cases u <;> exact le_rfl, fun hres => absurd hres hno⟩
  have hpend := h.undecided hno
  unfold Dispute.pending at hpend
  cases hst : x.status
  case open_ =>
    -- nobody voted, so the buyers have no majority
    have hzero : x.totalVotes = 0 := by rw [h.total, h.unvoted hst]; rfl
    have hwin : x.winner = .resolvedOrganizer := by simp [Dispute.winner, hzero]
    rw [hwin]
    exact .unvoted hzero
  case voting =>
    rcases x.winner_cases with hw | hw
    · rw [hw]
      exact .buyer
    · rw [hw]
      exact .organizer
  all_goals simp [hst] at hpend

/-- **The record after a call.** -/
theorem Ruled.follows (hk : d.Keyed) (h : Tallied d e ballots) (hr : Ruled ctx d op d')
    (hx : d.dispute e = some x) : ∃ y, d'.dispute e = some y ∧ x.Follows y := by
  have hother {y : Dispute} (hne : y.eventId ≠ e) :
      update d.dispute y.eventId (some y) e = some x := by rw [update_of_ne hne.symm, hx]
  cases hr with
  | @opened e' a isNew =>
    have hne : e' ≠ e := by
      rintro rfl
      rw [isNew] at hx
      cases hx
    exact ⟨x, hother hne, .refl x⟩
  | @voted e' a v x' stored pending =>
    have hkey : (x'.voted v).eventId = x'.eventId := by cases v <;> rfl
    have hkey' := hk e' x' stored
    show ∃ y, update d.dispute x'.eventId _ e = some y ∧ _
    rw [← hkey]
    by_cases he : e' = e
    · subst he
      obtain rfl := Option.some.inj (stored.symm.trans hx)
      exact ⟨_, by rw [hkey, hkey', update_self], .voted pending v⟩
    · exact ⟨x, hother (by rwa [hkey, hkey']), .refl x⟩
  | again => exact ⟨x, hx, .refl x⟩
  | @decided e' x' stored undecided =>
    have hkey := hk e' x' stored
    by_cases he : e' = e
    · subst he
      obtain rfl := Option.some.inj (stored.symm.trans hx)
      refine ⟨_, ?_, .decided (h.record _ stored) undecided⟩
      show update d.dispute x'.eventId _ e' = _
      rw [hkey, update_self]
    · exact ⟨x, hother (y := { x' with status := x'.winner }) (by rwa [hkey]), .refl x⟩

theorem Ruled.starts (hk : d.Keyed) (hr : Ruled ctx d op d') (hno : d.dispute e = none)
    (hy : d'.dispute e = some y) : y.status = .open_ := by
  have hother {e' : String} {x : Dispute} (hx : d.dispute e' = some x) : e ≠ x.eventId := by
    rw [hk e' x hx]
    rintro rfl
    rw [hno] at hx
    cases hx
  cases hr with
  | @opened e' a =>
    change update d.dispute e' _ e = some y at hy
    by_cases he : e' = e
    · subst he
      rw [update_self] at hy
      cases hy
      rfl
    · rw [update_of_ne (Ne.symm he), hno] at hy
      cases hy
  | @voted _ _ _ x stored | @decided _ x stored =>
    change update d.dispute x.eventId _ e = some y at hy
    rw [update_of_ne (hother stored), hno] at hy
    cases hy
  | again =>
    rw [hno] at hy
    cases hy

/-- A step calls an entry point of the disputes or leaves them alone. -/
theorem step_ruled (hok : step w a = .ok w') :
    (∃ env op, a = .call env (.dispute op) ∧
        disputeCall (disputeContext env w) w.disputes op = .ok w'.disputes) ∨
      w'.disputes = w.disputes ∧ ∀ env op, a ≠ .call env (.dispute op) := by
  rcases step_call_or_outside hok with ⟨env, op, rfl, hcall⟩ | ⟨hout, hno⟩
  · by_cases hop : op.disputes = false
    · refine .inr ⟨(call_frame hcall).disputes hop, ?_⟩
      rintro _ op' ⟨⟩
      cases hop
    · cases op
      case dispute op =>
        simp only [call, callDispute, bind_eq_ok, pure_eq_ok] at hcall
        obtain ⟨d, hd, rfl⟩ := hcall
        exact .inl ⟨env, op, rfl, hd⟩
      all_goals exact absurd rfl hop
  · exact .inr ⟨hout.disputes, fun env op => hno env _⟩

theorem tallied_step {hist : List (World × Step host × World)} (hk : w.disputes.Keyed)
    (h : ∀ e, Tallied w.disputes e (hist.filterMap (ballotIn e))) (hok : step w a = .ok w') :
    w'.disputes.Keyed ∧
      ∀ e, Tallied w'.disputes e ((hist ++ [(w, a, w')]).filterMap (ballotIn e)) := by
  have hlast (e : String) : (hist ++ [(w, a, w')]).filterMap (ballotIn e) =
      hist.filterMap (ballotIn e) ++ (ballotIn e (w, a, w')).toList := by
    rw [List.filterMap_append, List.filterMap_cons, List.filterMap_nil]
    cases ballotIn e (w, a, w') <;> rfl
  simp only [hlast]
  rcases step_ruled hok with ⟨env, op, rfl, hd⟩ | ⟨hsame, hno⟩
  · exact ⟨hk.call hd, fun e => (h e).ruled hk (disputeCall_ruled hd)⟩
  · have hnone (e : String) : ballotIn e (w, a, w') = none := by
      unfold ballotIn
      split
      · rename_i env op _ heq
        exact absurd (Prod.mk.inj (Prod.mk.inj heq).2).1 (hno env op)
      · rfl
    rw [hsame]
    refine ⟨hk, fun e => ?_⟩
    rw [hnone, Option.toList_none, List.append_nil]
    exact h e

theorem tallied_run (hw : Fresh host w) (steps : List (Step host)) :
    (run step w steps).disputes.Keyed ∧
      ∀ e, Tallied (run step w steps).disputes e
        ((history step w steps).filterMap (ballotIn e)) := by
  refine Along.history_inv (I := fun w hist => w.disputes.Keyed ∧
    ∀ e, Tallied w.disputes e (hist.filterMap (ballotIn e)))
    (fun w a w' hist hI _ hok => tallied_step hI.1 hI.2 hok) Along.trivial ?_
  obtain ⟨_, -, rfl⟩ := hw
  exact ⟨nofun, fun e => .empty⟩

theorem step_follows (hw : Fresh host w) (hok : step (run step w steps) a = .ok w')
    (hx : (run step w steps).disputes.dispute e = some x) :
    ∃ y, w'.disputes.dispute e = some y ∧ x.Follows y := by
  obtain ⟨hk, h⟩ := tallied_run hw steps
  rcases step_ruled hok with ⟨env, op, rfl, hd⟩ | ⟨hsame, -⟩
  · exact (disputeCall_ruled hd).follows hk (h e) hx
  · exact ⟨x, by rwa [hsame], .refl x⟩

/-- What the record keeps from step to step it keeps for the rest of the run. -/
theorem record_kept {P : Dispute → Prop} (hP : ∀ x y, P x → x.Follows y → P y) (hw : Fresh host w)
    (hx : (run step w steps).disputes.dispute e = some x) (hPx : P x) (more : List (Step host)) :
    ∃ y, (run step w (steps ++ more)).disputes.dispute e = some y ∧ P y := by
  induction more using List.reverseRecOn with
  | nil => exact ⟨x, by rwa [List.append_nil], hPx⟩
  | append_singleton more a ih =>
    obtain ⟨y, hy, hPy⟩ := ih
    rw [← List.append_assoc, run_append, run_cons, run_nil]
    rcases commit_cases step (run step w (steps ++ more)) a with hok | hno
    · obtain ⟨z, hz, hfollows⟩ := step_follows hw hok hy
      exact ⟨z, hz, hP y z hPy hfollows⟩
    · exact ⟨y, by rwa [hno], hPy⟩

/-- A decided dispute does not change any more. -/
theorem resolved_final (hw : Fresh host w) (hx : (run step w steps).disputes.dispute e = some x)
    (hres : x.resolved) (more : List (Step host)) :
    (run step w (steps ++ more)).disputes.dispute e = some x := by
  have hkeep (y z : Dispute) (hy : y = x) (hfollows : y.Follows z) : z = x := by
    subst hy
    exact hfollows.final hres
  obtain ⟨y, hy, rfl⟩ := record_kept hkeep hw hx rfl more
  exact hy

/-- **The tally of a dispute.** -/
theorem dispute_tally (hw : Fresh host w) (e : String) :
    ExactTally e (history step w steps) (run step w steps) ∧
      ∀ more x, (run step w steps).disputes.dispute e = some x → x.resolved →
        (run step w (steps ++ more)).disputes.dispute e = some x := by
  refine ⟨?_, fun more x hx hres => resolved_final hw hx hres more⟩
  have h := (tallied_run hw steps).2 e
  refine ⟨h.once, h.getDisputeVotes_eq, h.hasVoted_iff, h.undisputed, ?_, ?_, ?_, ?_⟩
  · intro x hx
    have hcounts := h.record x hx
    refine ⟨hcounts.sum, ?_, ?_⟩
    · rw [List.toFinset_card_of_nodup h.once, List.length_map, hcounts.total]
    · rw [h.getDisputeVotes_eq, List.length_map, hcounts.total]
  · intro s env a v s' hmem
    obtain ⟨_, _, -, -, hok⟩ := exists_of_mem_history hmem
    rcases step_ruled hok with ⟨env', op, heq, hd⟩ | ⟨-, hno⟩
    · cases heq
      obtain ⟨x, -, hx, -, htime, -⟩ := voteOnDispute_eq_ok.mp hd
      exact ⟨x, hx, htime⟩
    · exact absurd rfl (hno _ _)
  · intro s a s' y hmem hno hy
    obtain ⟨pre, _, -, rfl, hok⟩ := exists_of_mem_history hmem
    rcases step_ruled hok with ⟨env, op, rfl, hd⟩ | ⟨hsame, -⟩
    · exact (disputeCall_ruled hd).starts (tallied_run hw pre).1 hno hy
    · rw [hsame, hno] at hy
      cases hy
  · intro s a s' x hmem hx
    obtain ⟨pre, _, -, rfl, hok⟩ := exists_of_mem_history hmem
    exact step_follows hw hok hx

end Runs

namespace Sample

/-- The call when only `holder` has a ticket. -/
def holding (holder : Address) (env : Env node) : Env node :=
  { env with hasConfirmedTicket := fun _ a => a == holder }

/-- Alice opens the dispute of an event. -/
def disputedRun : List (Step node) :=
  [start, byOrganizer (.registerEvent { args "e1" with endTime := 2000 }),
    byAdmin (.setTicketPaymentContract payments),
    .call (holding alice (signedBy alice alice_ne_self 1000)) (.dispute (.openDispute "e1" alice))]

def vote (voter : Address) (h : voter ≠ node.self) (v : DisputeVote) : Step node :=
  .call (holding alice (signedBy voter h 1000)) (.dispute (.voteOnDispute "e1" voter v))

/-- The vote is over. -/
def late : Env node := signedBy admin admin_ne_self 200000

def resolve : Step node := .call late (.dispute (.resolveDispute "e1"))

end Sample

open Sample in
theorem dispute_tally_voted :
    ExactTally "e1" (history step deployed (disputedRun ++ [vote alice alice_ne_self .buyerFavor]))
        (run step deployed (disputedRun ++ [vote alice alice_ne_self .buyerFavor])) ∧
      ((run step deployed (disputedRun ++ [vote alice alice_ne_self .buyerFavor])).disputes.dispute
        "e1").map (·.totalVotes) = some 1 :=
  ⟨(dispute_tally deployed_fresh "e1").1, by decide⟩

open Sample in
/-- A dispute on which nobody votes is resolved although it is still open. -/
theorem dispute_resolved_unvoted :
    Fresh node deployed ∧
      ((run step deployed disputedRun).disputes.dispute "e1").map (·.status) = some .open_ ∧
      ((run step deployed (disputedRun ++ [resolve])).disputes.dispute "e1").map (·.status) =
        some .resolvedOrganizer :=
  ⟨deployed_fresh, by decide, by decide⟩

end Agora.EventRegistry
