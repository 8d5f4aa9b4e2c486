import Agora.Lib.Machine
import Agora.WaitingRoom.Script

/-!
# The admission rate

The bucket of an event keeps up to a minute's worth of tokens. A call that
finds more than one of them, and the refill of a millisecond, admits what the
refill of the following minute comes on top of. So a minute admits at most the
rate if no call with clients waiting finds as much, and wherever one does, two
more calls go past the rate.
-/

namespace Agora.WaitingRoom

open Lib

/-- What happens to the keys of an event: a join adds a client, or a worker calls the script. -/
inductive Call where
  | join (seq : Nat) (client : String)
  | script (now : Int)

def callStep (rate : Nat) (keys : EventKeys) : Call → Except Unit EventKeys
  | .join seq client => .ok (keys.zadd seq client)
  | .script now => .ok (keys.eval rate now).2

def Call.time : Call → Option Int
  | .join _ _ => none
  | .script now => some now

/-- The times of the script calls do not decrease. -/
def InOrder (calls : List Call) : Prop := (calls.filterMap Call.time).Pairwise (· ≤ ·)

instance (calls : List Call) : Decidable (InOrder calls) :=
  inferInstanceAs (Decidable (List.Pairwise _ _))

/-- How many clients a call admits within 60 seconds from `t` on. -/
def admitsIn (rate : Nat) (t : Int) : EventKeys × Call × EventKeys → Int
  | (keys, .script now, _) =>
    if t ≤ now ∧ now < t + 60000 then (keys.eval rate now).1.length else 0
  | (_, .join _ _, _) => 0

def admittedIn (rate : Nat) (t : Int) (calls : List Call) : Int :=
  tally (admitsIn rate t) (history (callStep rate) .new calls)

/-- A call that finds a client waiting finds less than one token and the refill of a
millisecond. -/
def Restrained (rate : Nat) (keys : EventKeys) : Call → Prop
  | .script now => keys.queue.entries ≠ [] → keys.found rate now < 1 + rate / 60000
  | .join _ _ => True

variable {rate : Nat} {keys : EventKeys} {calls : List Call} {now t : Int}

theorem commit_script : commit (callStep rate) keys (.script now) = (keys.eval rate now).2 := rfl

/-! ## One call -/

/-- No call was later than the time. -/
def UpTo (keys : EventKeys) (now : Int) : Prop := ∀ b ∈ keys.bucket, b.lastRefill ≤ now

theorem length_eval_le (keys : EventKeys) (now : Int) (hrate : 0 < rate)
    (hfound : 0 ≤ keys.found rate now) :
    ((keys.eval rate now).1.length : ℚ) ≤ keys.found rate now := by
  rw [keys.eval_eq rate now hrate]
  calc (((keys.queue.first ⌊keys.found rate now⌋.toNat).length : ℕ) : ℚ)
      ≤ (⌊keys.found rate now⌋.toNat : ℕ) := by exact_mod_cast ZSet.length_first_le
    _ = ((⌊keys.found rate now⌋ : ℤ) : ℚ) := by
      exact_mod_cast Int.toNat_of_nonneg (Int.floor_nonneg.mpr hfound)
    _ ≤ keys.found rate now := Int.floor_le _

theorem entries_ne_nil_of_eval (h : (keys.eval rate now).1.length ≠ 0) :
    keys.queue.entries ≠ [] := by
  rintro hnil
  rcases Nat.eq_zero_or_pos rate with rfl | hrate
  · exact h (by rw [EventKeys.eval_zero]; rfl)
  · rw [keys.eval_eq rate now hrate] at h
    exact h (by simp [ZSet.length_first, hnil])

theorem found_nonneg (htokens : ∀ b ∈ keys.bucket, 0 ≤ b.tokens) (hnow : UpTo keys now) :
    0 ≤ keys.found rate now := by
  have hrate : (0 : ℚ) ≤ rate := Nat.cast_nonneg rate
  refine le_min hrate ?_
  cases hb : keys.bucket with
  | none => simp [EventKeys.held, hb, Bucket.toTokenBucket]
  | some b =>
    have hlast : (b.lastRefill : ℚ) ≤ now := by exact_mod_cast hnow b hb
    have helapsed : 0 ≤ ((now : ℚ) / 1000 - b.lastRefill / 1000) * (rate / 60) :=
      mul_nonneg (by linarith) (by linarith)
    have := htokens b hb
    simp only [EventKeys.held, hb, Bucket.toTokenBucket, Option.getD_some]
    linarith

theorem bucket_eval (keys : EventKeys) (now : Int) (hrate : 0 < rate) :
    ∃ b, (keys.eval rate now).2.bucket = some b ∧ b.lastRefill = now ∧
      b.tokens = keys.found rate now - (keys.eval rate now).1.length ∧
      b.toTokenBucket = (keys.held now).toTokenBucket.spend (rate / 60) rate (now / 1000)
        (keys.eval rate now).1.length := by
  rw [keys.eval_eq rate now hrate]
  exact ⟨_, rfl, rfl, rfl, rfl⟩

/-! ## A minute -/

/-- The clients admitted so far are within the rate, and metered until the minute is over. -/
structure Within (rate : Nat) (t : Int) (keys : EventKeys) (admitted : Int) : Prop where
  tokens_nonneg : ∀ b ∈ keys.bucket, 0 ≤ b.tokens
  admitted_le : admitted ≤ rate
  metered : admitted = 0 ∨ ∃ b ∈ keys.bucket, t + 60000 ≤ b.lastRefill ∨
    b.toTokenBucket.Metered (rate / 60) (t / 1000) (1 + rate / 60000) admitted

variable {admitted : Int}

/-- Before the minute is over, the bucket that a call starts from is metered. -/
theorem Within.held (h : Within rate t keys admitted) (hnow : UpTo keys now)
    (hover : now < t + 60000) :
    (keys.held now).toTokenBucket.Metered (rate / 60) (t / 1000) (1 + rate / 60000) admitted := by
  rcases h.metered with rfl | ⟨b, hb, hlate | hmetered⟩
  · exact .inl Int.cast_zero
  · have := hnow b hb
    omega
  · rw [EventKeys.held, hb]
    exact hmetered

theorem Within.eq_zero (h : Within rate t keys admitted) (hnow : UpTo keys now) (hlt : now < t) :
    admitted = 0 := by
  rcases h.metered with hzero | ⟨b, hb, hlate | hmetered⟩
  · exact hzero
  · have := hnow b hb
    omega
  · rcases hmetered with hzero | ⟨hstart, -⟩
    · exact_mod_cast hzero
    · have hb := hnow b hb
      have hstart : (t : ℚ) ≤ b.lastRefill := by
        simp only [Bucket.toTokenBucket] at hstart
        linarith
      have : t ≤ b.lastRefill := by exact_mod_cast hstart
      omega

theorem Within.eval (h : Within rate t keys admitted) (hnow : UpTo keys now)
    (hC : Restrained rate keys (.script now)) :
    Within rate t (keys.eval rate now).2
      (admitted + admitsIn rate t (keys, .script now, (keys.eval rate now).2)) := by
  rcases Nat.eq_zero_or_pos rate with rfl | hrate
  · simpa [EventKeys.eval_zero, admitsIn] using h
  obtain ⟨b, hb, hlast, htokens, hspend⟩ := bucket_eval keys now hrate
  have hnonneg : ∀ b' ∈ (keys.eval rate now).2.bucket, 0 ≤ b'.tokens := by
    intro b' hb'
    obtain rfl := Option.some.inj (hb.symm.trans hb')
    rw [htokens]
    exact sub_nonneg.mpr (length_eval_le keys now hrate (found_nonneg h.tokens_nonneg hnow))
  by_cases hwindow : t ≤ now ∧ now < t + 60000
  · obtain ⟨hstart, hover⟩ := hwindow
    have hstartq : (t : ℚ) ≤ now := by exact_mod_cast hstart
    have hoverq : (now : ℚ) ≤ t + 59999 := by exact_mod_cast (by omega : now ≤ t + 59999)
    have hrateq : (0 : ℚ) < rate := by exact_mod_cast hrate
    have hmetered : b.toTokenBucket.Metered (rate / 60) (t / 1000) (1 + rate / 60000)
        ((admitted + ((keys.eval rate now).1.length : ℤ) : ℤ) : ℚ) := by
      rw [hspend]
      push_cast
      refine (h.held hnow hover).spend (by positivity) (by linarith) fun hn => ?_
      exact hC (entries_ne_nil_of_eval (by exact_mod_cast hn))
    rw [admitsIn, if_pos ⟨hstart, hover⟩]
    refine ⟨hnonneg, ?_, .inr ⟨b, hb, .inr hmetered⟩⟩
    rcases hmetered.spent_lt (hnonneg b hb) with hzero | ⟨-, hlt⟩
    · have hzero : admitted + ((keys.eval rate now).1.length : ℤ) = 0 := by exact_mod_cast hzero
      omega
    · have hrefill : (b.toTokenBucket.last - t / 1000) * (rate / 60 : ℚ) ≤
          59999 / 1000 * (rate / 60) := by
        refine mul_le_mul_of_nonneg_right ?_ (by positivity)
        simp only [Bucket.toTokenBucket, hlast]
        linarith
      have hlt : ((admitted + ((keys.eval rate now).1.length : ℤ) : ℤ) : ℚ) < rate + 1 := by
        linarith
      exact Int.lt_add_one_iff.mp (by exact_mod_cast hlt)
  · rw [admitsIn, if_neg hwindow, add_zero]
    refine ⟨hnonneg, h.admitted_le, ?_⟩
    by_cases hlt : now < t
    · exact .inl (h.eq_zero hnow hlt)
    · exact .inr ⟨b, hb, .inl (by omega)⟩

/-! ## Runs -/

theorem lastRefill_mem (rate : Nat) (calls : List Call) :
    ∀ b ∈ (run (callStep rate) .new calls).bucket, b.lastRefill ∈ calls.filterMap Call.time := by
  induction calls using List.reverseRecOn with
  | nil =>
    intro b hb
    cases hb
  | append_singleton calls c ih =>
    intro b hb
    rw [run_append, run_cons, run_nil] at hb
    rw [List.filterMap_append, List.mem_append]
    cases c with
    | join seq client => exact .inl (ih b hb)
    | script now =>
      rw [commit_script] at hb
      rcases Nat.eq_zero_or_pos rate with rfl | hrate
      · rw [EventKeys.eval_zero] at hb
        exact .inl (ih b hb)
      · obtain ⟨b', hb', hlast, -⟩ := bucket_eval _ now hrate
        obtain rfl := Option.some.inj (hb'.symm.trans hb)
        exact .inr (by simp [hlast, Call.time])

theorem upTo_run {pre post : List Call} (h : InOrder (pre ++ .script now :: post)) :
    UpTo (run (callStep rate) .new pre) now := by
  intro b hb
  unfold InOrder at h
  rw [List.filterMap_append, List.pairwise_append] at h
  exact h.2.2 _ (lastRefill_mem rate pre b hb) now (by simp [Call.time])

theorem InOrder.left {pre post : List Call} (h : InOrder (pre ++ post)) : InOrder pre := by
  unfold InOrder at h ⊢
  rw [List.filterMap_append, List.pairwise_append] at h
  exact h.1

theorem run_within (t : Int) (horder : InOrder calls)
    (hC : Along (callStep rate) (Restrained rate) .new calls) :
    Within rate t (run (callStep rate) .new calls) (admittedIn rate t calls) := by
  induction calls using List.reverseRecOn with
  | nil =>
    refine ⟨fun b hb => ?_, Int.natCast_nonneg rate, .inl rfl⟩
    cases hb
  | append_singleton calls c ih =>
    obtain ⟨hrest, hlast, -⟩ := Along.append.mp hC
    have h := ih horder.left hrest
    rw [admittedIn, history_append, tally_append, run_append, run_cons, run_nil]
    cases c with
    | join seq client =>
      have hzero : tally (admitsIn rate t)
          (history (callStep rate) (run (callStep rate) .new calls) [.join seq client]) = 0 := rfl
      rw [hzero, add_zero]
      exact ⟨h.tokens_nonneg, h.admitted_le, h.metered⟩
    | script now =>
      have hone : history (callStep rate) (run (callStep rate) .new calls) [.script now] =
          [(_, .script now, ((run (callStep rate) .new calls).eval rate now).2)] := rfl
      rw [hone, tally_singleton]
      exact h.eval (upTo_run horder) (hlast _ rfl)

/-! ## Past the rate -/

theorem admitsIn_nonneg (x : EventKeys × Call × EventKeys) : 0 ≤ admitsIn rate t x := by
  obtain ⟨keys, c, keys'⟩ := x
  cases c with
  | join seq client => exact le_rfl
  | script now =>
    simp only [admitsIn]
    split_ifs
    · exact Int.natCast_nonneg _
    · exact le_rfl

theorem length_eval (keys : EventKeys) (now : Int) (hrate : 0 < rate)
    (hqueue : ⌊keys.found rate now⌋.toNat ≤ keys.queue.entries.length) :
    (keys.eval rate now).1.length = ⌊keys.found rate now⌋.toNat := by
  rw [keys.eval_eq rate now hrate]
  exact ZSet.length_first.trans (min_eq_left hqueue)

theorem length_entries_eval (keys : EventKeys) (now : Int) (hrate : 0 < rate) :
    (keys.eval rate now).2.queue.entries.length + (keys.eval rate now).1.length =
      keys.queue.entries.length := by
  rw [keys.eval_eq rate now hrate]
  simp only [ZSet.entries_remove_first, List.length_drop, ZSet.length_first]
  omega

theorem found_of_bucket {b : Bucket} (hb : keys.bucket = some b) :
    keys.found rate now =
      min (rate : ℚ) (b.tokens + ((now : ℚ) / 1000 - b.lastRefill / 1000) * (rate / 60)) := by
  simp only [EventKeys.found, EventKeys.held, hb]
  rfl

/-- Clients that join one after the other. -/
def joinAll (clients : List String) : List Call := clients.map (Call.join 0)

theorem run_joinAll (rate : Nat) (keys : EventKeys) (clients : List String) :
    (run (callStep rate) keys (joinAll clients)).bucket = keys.bucket ∧
      ∀ c, c ∈ clients ∨ c ∈ keys.queue.members →
        c ∈ (run (callStep rate) keys (joinAll clients)).queue.members := by
  induction clients generalizing keys with
  | nil => simp [joinAll]
  | cons client clients ih =>
    obtain ⟨hbucket, hmem⟩ := ih (keys.zadd 0 client)
    refine ⟨hbucket, fun c hc => hmem c ?_⟩
    have hadded (c : String) (hc : c = client ∨ c ∈ keys.queue.members) :
        c ∈ (keys.zadd 0 client).queue.members := by
      rw [ZSet.mem_members]
      by_cases hold : c ∈ keys.queue.members
      · obtain ⟨score, hscore⟩ := ZSet.mem_members.mp hold
        exact ⟨score, ZSet.mem_addNX.mpr (.inl hscore)⟩
      · obtain rfl := hc.resolve_right hold
        exact ⟨0, ZSet.mem_addNX.mpr (.inr ⟨rfl, hold⟩)⟩
    rcases hc with hc | hc
    · rcases List.mem_cons.mp hc with rfl | hc
      · exact .inr (hadded c (.inl rfl))
      · exact .inl hc
    · exact .inr (hadded c (.inr hc))

theorem length_le_run_joinAll (rate : Nat) (keys : EventKeys) {clients : List String}
    (hnodup : clients.Nodup) :
    clients.length ≤ (run (callStep rate) keys (joinAll clients)).queue.entries.length := by
  have hsub : clients ⊆ (run (callStep rate) keys (joinAll clients)).queue.members :=
    fun c hc => (run_joinAll rate keys clients).2 c (.inl hc)
  simpa [ZSet.members] using (List.subperm_of_subset hnodup hsub).length_le

/-- Clients with different names. -/
def crowd (n : Nat) : List String :=
  (List.range n).map fun i => String.ofList (List.replicate i 'x')

theorem length_crowd (n : Nat) : (crowd n).length = n := by simp [crowd]

theorem crowd_nodup (n : Nat) : (crowd n).Nodup := by
  refine List.Nodup.map (fun i j h => ?_) List.nodup_range
  simpa using congrArg List.length (String.ofList_injective h)

/-- After a call that finds too much, more clients join, and two more calls within the minute admit
them. -/
def pastRate (rate : Nat) (now : Int) : List Call :=
  joinAll (crowd (2 * rate)) ++ [.script now, .script (now + 59999)]

/-- A call spends the whole tokens that are left, and one at the end of the minute the whole tokens
of the refill. -/
theorem drain {b : Bucket} (hrate : 0 < rate) (hb : keys.bucket = some b)
    (hlast : b.lastRefill = now) (hnonneg : 0 ≤ b.tokens) (hle : b.tokens ≤ rate)
    (hsize : 2 * rate ≤ keys.queue.entries.length) (spent : Nat)
    (hspent : 1 + (rate : ℚ) / 60000 ≤ spent + b.tokens) :
    rate < spent + (keys.eval rate now).1.length +
      ((keys.eval rate now).2.eval rate (now + 59999)).1.length := by
  have hfound : keys.found rate now = b.tokens := by
    rw [found_of_bucket hb, hlast, sub_self, zero_mul, add_zero, min_eq_right hle]
  have hcount : (keys.eval rate now).1.length = ⌊b.tokens⌋.toNat := by
    rw [length_eval keys now hrate ((EventKeys.floor_found_le _ _ _).trans (by omega)), hfound]
  have hfloor : ((⌊b.tokens⌋.toNat : ℕ) : ℤ) = ⌊b.tokens⌋ :=
    Int.toNat_of_nonneg (Int.floor_nonneg.mpr hnonneg)
  obtain ⟨b', hb', hlast', htokens', -⟩ := bucket_eval keys now hrate
  have hsize' := length_entries_eval keys now hrate
  have hwhole := keys.floor_found_le rate now
  rw [hfound] at hwhole htokens'
  rw [hcount, length_eval (keys.eval rate now).2 (now + 59999) hrate
    ((EventKeys.floor_found_le _ _ _).trans (by omega))]
  -- with the refill there is a whole token for each of the others
  have hlater : ((rate + 1 - spent - ⌊b.tokens⌋ : ℤ) : ℚ) ≤
      (keys.eval rate now).2.found rate (now + 59999) := by
    have htokens' : b'.tokens = b.tokens - ⌊b.tokens⌋ := by
      rw [htokens', hcount]
      exact_mod_cast congrArg (fun n : ℤ => b.tokens - (n : ℚ)) hfloor
    rw [found_of_bucket hb', htokens', hlast']
    push_cast
    refine le_min ?_ ?_
    · have hone : 1 - (spent : ℤ) ≤ ⌊b.tokens⌋ := by
        refine Int.le_floor.mpr ?_
        have hpos : (0 : ℚ) ≤ rate / 60000 := by positivity
        push_cast
        linarith
      have hone : (1 : ℚ) - spent ≤ ⌊b.tokens⌋ := by exact_mod_cast hone
      linarith
    · linarith
  have := Int.le_floor.mpr hlater
  omega

/-- **Past the rate.** -/
theorem rate_lt_of_not_restrained (h : ¬ Restrained rate keys (.script now)) :
    rate < tally (admitsIn rate now)
      (history (callStep rate) keys (.script now :: pastRate rate now)) := by
  obtain ⟨-, hfound⟩ : _ ∧ 1 + (rate : ℚ) / 60000 ≤ keys.found rate now := by
    simpa [Restrained] using h
  have hrate : 0 < rate := by
    rcases Nat.eq_zero_or_pos rate with rfl | hrate
    · have := keys.found_le 0 now
      norm_num at this hfound
      linarith
    · exact hrate
  obtain ⟨b, hb, hlast, htokens, -⟩ := bucket_eval keys now hrate
  have hpos : (0 : ℚ) ≤ rate / 60000 := by positivity
  have hcount := length_eval_le keys now hrate (by linarith)
  have hjoin := run_joinAll rate (keys.eval rate now).2 (crowd (2 * rate))
  have hsize := length_le_run_joinAll rate (keys.eval rate now).2
    (crowd_nodup (2 * rate))
  rw [length_crowd] at hsize
  have hdrain := drain hrate (hjoin.1.trans hb) hlast (by linarith)
    (by linarith [keys.found_le rate now]) hsize (keys.eval rate now).1.length (by linarith)
  have hjoins := tally_nonneg (f := admitsIn rate now) (fun x => admitsIn_nonneg x)
    (j := history (callStep rate) (keys.eval rate now).2 (joinAll (crowd (2 * rate))))
  rw [history_of_ok rfl, pastRate, commit_script, history_append, history_of_ok rfl,
    history_of_ok rfl]
  have hwindow (keys keys' : EventKeys) (time : Int) (h : now ≤ time ∧ time < now + 60000) :
      admitsIn rate now (keys, .script time, keys') = (keys.eval rate time).1.length := if_pos h
  simp only [history, tally, commit_script, List.map_cons, List.map_append, List.map_nil,
    List.sum_cons, List.sum_append, List.sum_nil] at hjoins ⊢
  rw [hwindow _ _ _ (by omega), hwindow _ _ _ (by omega), hwindow _ _ _ (by omega)]
  omega

theorem InOrder.pastRate {pre post : List Call} (h : InOrder (pre ++ .script now :: post)) :
    InOrder (pre ++ .script now :: pastRate rate now) := by
  have hjoins (clients : List String) : (joinAll clients).filterMap Call.time = [] := by
    simp [joinAll, Call.time]
  have hscript (time : Int) : (Call.script time).time = some time := rfl
  unfold InOrder at h ⊢
  rw [List.filterMap_append, List.pairwise_append, List.filterMap_cons_some (hscript now)] at h
  obtain ⟨hpre, -, hbefore⟩ := h
  have hbefore (x : Int) (hx : x ∈ pre.filterMap Call.time) : x ≤ now := hbefore x hx now (by simp)
  rw [List.filterMap_append, List.pairwise_append, WaitingRoom.pastRate, List.filterMap_cons_some
    (hscript now), List.filterMap_append, hjoins]
  refine ⟨hpre, by simp [hscript], fun x hx y hy => (hbefore x hx).trans ?_⟩
  simp only [List.nil_append, List.filterMap_cons, hscript, List.filterMap_nil, List.mem_cons,
    List.not_mem_nil, or_false] at hy
  omega

theorem admission_rate_restrained (rate : Nat) (calls : List Call) (horder : InOrder calls) :
    (Along (callStep rate) (Restrained rate) .new calls → ∀ t, admittedIn rate t calls ≤ rate) ∧
      ∀ pre now post, calls = pre ++ .script now :: post →
        ¬ Restrained rate (run (callStep rate) .new pre) (.script now) →
        ∃ more, InOrder (pre ++ .script now :: more) ∧
          ∃ t, rate < admittedIn rate t (pre ++ .script now :: more) := by
  refine ⟨fun hC t => (run_within t horder hC).admitted_le, ?_⟩
  rintro pre now post rfl hmany
  refine ⟨pastRate rate now, horder.pastRate, now, ?_⟩
  have hpre := tally_nonneg (f := admitsIn rate now) (fun x => admitsIn_nonneg x)
    (j := history (callStep rate) .new pre)
  have hpast := rate_lt_of_not_restrained hmany
  rw [admittedIn, history_append, tally_append]
  omega

/-! ## A few clients -/

namespace Sample

/-- One client a second, at a rate of 60. -/
def steady : List Call :=
  [.join 1 "ann", .join 2 "bob", .join 3 "cid", .script 0, .script 1000, .script 2000, .script 3000]

/-- The bucket fills up while nobody is waiting, at a rate of 2. -/
def stored : List Call :=
  [.join 1 "ann", .script 0, .script 30000, .join 2 "bob", .join 3 "cid", .join 4 "dan",
    .script 90000, .script 120000]

end Sample

open Sample in
theorem admission_rate_steady :
    InOrder steady ∧ Along (callStep 60) (Restrained 60) .new steady ∧
      ∀ t, admittedIn 60 t steady ≤ 60 := by
  have horder : InOrder steady := by decide
  have hC : Along (callStep 60) (Restrained 60) .new steady := by
    refine ⟨fun _ _ => trivial, fun _ _ => trivial, fun _ _ => trivial, fun _ _ _ => ?_,
      fun _ _ _ => ?_, fun _ _ _ => ?_, fun _ _ _ => ?_, trivial⟩ <;> decide +kernel
  exact ⟨horder, hC, (admission_rate_restrained 60 steady horder).1 hC⟩

open Sample in
/-- Two stored tokens and one that is refilled admit three clients in half a minute. -/
theorem admission_rate_exceeded : InOrder stored ∧ 2 < admittedIn 2 90000 stored := by
  decide +kernel

end Agora.WaitingRoom
