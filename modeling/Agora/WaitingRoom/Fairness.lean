import Agora.WaitingRoom.Engine

/-!
# The order of admission

A join obtains its number with one command and enters the queue with the next.
The numbers in the queue of an event are distinct, and the script pops the
lowest ones. So clients are admitted in the order of their numbers exactly if,
whenever the script admits a client, the others with a lower number are in the
queue by then, under a number that is lower too.
-/

namespace Agora.WaitingRoom

open Lib Function

/-! ## Numbers and admissions -/

/-- The client that obtains a number of the event by the step, with the number. -/
def Room.obtains (s : Room) (eventId : String) : Step → Option (String × Nat)
  | .joinNext i =>
    match s.joins i with
    | some ⟨e, clientId, _, .incr⟩ =>
      if e = eventId then some (clientId, (s.events eventId).seq + 1) else none
    | _ => none
  | _ => none

/-- The entries of the queue of the event that the script pops in the step, in their order. -/
def Room.admits (s : Room) (eventId : String) : Step → List (Nat × String)
  | .workerNext i _ now _ =>
    match s.workers i with
    | some (.eval e rate _) =>
      if e = eventId then
        (s.events eventId).queue.entries.take ((s.events eventId).eval rate now).1.length
      else []
    | _ => []
  | _ => []

/-- The numbers that the client obtained since it was last admitted. -/
def outstanding (eventId clientId : String) (hist : List (Room × Step × Room)) : List Nat :=
  hist.foldl (fun numbers x =>
    if clientId ∈ (x.1.admits eventId x.2.1).map Prod.snd then []
    else
      match x.1.obtains eventId x.2.1 with
      | some (c, n) => if c = clientId then numbers ++ [n] else numbers
      | none => numbers) []

/-- The step admits no client before another one that is not admitted yet and has a lower
number. -/
def AdmitsInOrder (eventId : String) (hist : List (Room × Step × Room)) (s : Room) (a : Step) :
    Prop :=
  ∀ before n x after, s.admits eventId a = before ++ (n, x) :: after →
    ∀ y, y ≠ x → ∀ m ∈ outstanding eventId y hist, m < n → y ∈ before.map Prod.snd

/-- The entries in front of the queue, as many as there are whole tokens for a script call. -/
def Room.inReach (s : Room) (eventId : String) : Step → List (Nat × String)
  | .workerNext i _ now _ =>
    match s.workers i with
    | some (.eval e rate _) =>
      if e = eventId then
        (s.events eventId).queue.entries.take ⌊(s.events eventId).found rate now⌋.toNat
      else []
    | _ => []
  | _ => []

/-- When a script call is due, whoever has a number lower than that of a client in reach of it is in
the queue, under a lower number. -/
def QueuedInTime (eventId : String) (hist : List (Room × Step × Room)) (s : Room) (a : Step) :
    Prop :=
  ∀ n x, (n, x) ∈ s.inReach eventId a →
    ∀ y, y ≠ x → ∀ m ∈ outstanding eventId y hist, m < n →
      ∃ m' < n, (m', y) ∈ (s.events eventId).queue.entries

/-! ## What a step does to the numbers -/

variable {s s' : Room} {a : Step}

/-- The numbers and the queues are the same. -/
def SameLine (s s' : Room) : Prop :=
  ∀ e, (s'.events e).seq = (s.events e).seq ∧ (s'.events e).queue = (s.events e).queue

theorem SameLine.refl (s : Room) : SameLine s s := fun _ => ⟨rfl, rfl⟩

theorem sameLine_setKeys {e : String} {keys : EventKeys} (hseq : keys.seq = (s.events e).seq)
    (hqueue : keys.queue = (s.events e).queue) : SameLine s (s.setKeys e keys) :=
  (forall_update_iff s.events fun e keys =>
    keys.seq = (s.events e).seq ∧ keys.queue = (s.events e).queue).mpr
      ⟨⟨hseq, hqueue⟩, fun _ _ => ⟨rfl, rfl⟩⟩

theorem joinNext_cases {j : Join} {phase : JoinPhase} (h : s.joinNext j = .ok (s', phase)) :
    (j.phase = .incr ∧ phase = .zadd ((s.events j.eventId).seq + 1) ∧
      s' = s.setKeys j.eventId
        { s.events j.eventId with seq := (s.events j.eventId).seq + 1 }) ∨
    (∃ n, j.phase = .zadd n ∧ phase = .sadd ∧
      s' = s.setKeys j.eventId ((s.events j.eventId).zadd n j.clientId)) ∨
    (∀ n, phase ≠ .zadd n) ∧ SameLine s s' := by
  simp only [Room.joinNext] at h
  cases hphase : j.phase with
  | get =>
    rw [hphase] at h
    dsimp only at h
    split at h <;> cases h <;> exact .inr (.inr ⟨by simp, .refl s⟩)
  | incr =>
    rw [hphase] at h
    cases h
    exact .inl ⟨rfl, rfl, rfl⟩
  | zadd n =>
    rw [hphase] at h
    cases h
    exact .inr (.inl ⟨n, rfl, rfl, rfl⟩)
  | hsetnx =>
    rw [hphase] at h
    cases h
    exact .inr (.inr ⟨by simp, sameLine_setKeys rfl rfl⟩)
  | zrank =>
    rw [hphase] at h
    dsimp only at h
    split at h <;> cases h <;> exact .inr (.inr ⟨by simp, .refl s⟩)
  | _ =>
    rw [hphase] at h
    cases h <;> exact .inr (.inr ⟨by simp, .refl _⟩)

theorem workerNext_cases {eventIds : List String} {now : Int} {token : String}
    {phase phase' : WorkerPhase} (h : s.workerNext eventIds now token phase = .ok (s', phase')) :
    s'.joins = s.joins ∧ ((∃ e rate rest, phase = .eval e rate rest ∧
      s' = s.setKeys e ((s.events e).eval rate now).2) ∨ SameLine s s') := by
  unfold Room.workerNext at h
  split at h
  · split_ifs at h
    cases h
    exact ⟨rfl, .inr (.refl s)⟩
  · cases h
  · dsimp only at h
    split_ifs at h <;> cases h <;> exact ⟨rfl, .inr (.refl s)⟩
  · cases h
    exact ⟨rfl, .inl ⟨_, _, _, rfl, rfl⟩⟩
  · cases h
    exact ⟨rfl, .inr (sameLine_setKeys rfl rfl)⟩
  · split_ifs at h <;> cases h <;> exact ⟨rfl, .inr (.refl s)⟩
  · cases h
    exact ⟨rfl, .inr (.refl _)⟩
  · cases h

/-- A join that will enter the queue under the number. -/
def Pending (s : Room) (i : Nat) (j : Join) (n : Nat) : Prop :=
  s.joins i = some j ∧ j.phase = .zadd n

theorem pending_of_update {i : Nat} {j : Join} (hjoins : s'.joins = update s.joins i (some j))
    (hphase : ∀ n, j.phase ≠ .zadd n) (k : Nat) (j' : Join) (n : Nat) (h : Pending s' k j' n) :
    Pending s k j' n := by
  obtain ⟨hk, hn⟩ := h
  rw [hjoins] at hk
  by_cases hki : k = i
  · subst hki
    rw [update_self] at hk
    cases hk
    exact absurd hn (hphase n)
  · rw [update_of_ne hki] at hk
    exact ⟨hk, hn⟩

/-- **What a step does to the numbers**: a join obtains one, or enters the queue under the one it
has, or the script pops a queue, or they stay as they are. -/
theorem step_cases (h : step s a = .ok s') :
    (∃ i j, s.joins i = some j ∧ j.phase = .incr ∧
      s'.joins = update s.joins i
        (some { j with phase := .zadd ((s.events j.eventId).seq + 1) }) ∧
      s'.events = update s.events j.eventId
        { s.events j.eventId with seq := (s.events j.eventId).seq + 1 }) ∨
    (∃ i j n, Pending s i j n ∧ s'.joins = update s.joins i (some { j with phase := .sadd }) ∧
      s'.events = update s.events j.eventId ((s.events j.eventId).zadd n j.clientId)) ∨
    (∃ e rate now, s'.joins = s.joins ∧
      s'.events = update s.events e ((s.events e).eval rate now).2) ∨
    (∀ i j n, Pending s' i j n → Pending s i j n) ∧ SameLine s s' := by
  cases a with
  | join i eventId clientId rate =>
    simp only [step] at h
    split_ifs at h
    split at h
    · cases h
      exact .inr (.inr (.inr ⟨pending_of_update rfl (by simp), .refl _⟩))
    · cases h
  | joinNext i =>
    simp only [step] at h
    split at h
    · rename_i j hj
      obtain ⟨⟨t, phase⟩, hnext, hok⟩ := bind_eq_ok.mp h
      cases hok
      rcases joinNext_cases hnext with ⟨hincr, rfl, rfl⟩ | ⟨n, hzadd, rfl, rfl⟩ | ⟨hphase, hsame⟩
      · exact .inl ⟨i, j, hj, hincr, rfl, rfl⟩
      · exact .inr (.inl ⟨i, j, n, ⟨hj, hzadd⟩, rfl, rfl⟩)
      · exact .inr (.inr (.inr ⟨pending_of_update rfl hphase, hsame⟩))
    · cases h
  | joinFails i =>
    simp only [step] at h
    split at h
    · split at h
      · cases h
      · cases h
      · cases h
        exact .inr (.inr (.inr ⟨pending_of_update rfl (by simp), .refl _⟩))
    · cases h
  | sweep i =>
    simp only [step] at h
    split at h
    · cases h
      exact .inr (.inr (.inr ⟨fun _ _ _ hp => hp, .refl _⟩))
    · cases h
  | workerNext i eventIds now token =>
    simp only [step] at h
    split at h
    · obtain ⟨⟨t, phase⟩, hnext, hok⟩ := bind_eq_ok.mp h
      cases hok
      obtain ⟨hjoins, ⟨e, rate, rest, -, rfl⟩ | hsame⟩ := workerNext_cases hnext
      · exact .inr (.inr (.inl ⟨e, rate, now, rfl, rfl⟩))
      · refine .inr (.inr (.inr ⟨fun k j n hp => ?_, hsame⟩))
        obtain ⟨hk, hn⟩ := hp
        exact ⟨hjoins ▸ hk, hn⟩
    · cases h
  | workerFails i =>
    simp only [step] at h
    split at h
    · cases h
      exact .inr (.inr (.inr ⟨fun _ _ _ hp => hp, .refl _⟩))
    · cases h
  | expire eventId clientId =>
    cases h
    exact .inr (.inr (.inr ⟨fun _ _ _ hp => hp, sameLine_setKeys rfl rfl⟩))

/-! ## The numbers are distinct -/

/-- The numbers in a queue, and those of the joins that will enter it, are distinct and were all
given out. -/
structure Numbered (s : Room) : Prop where
  queued_le : ∀ e x, x ∈ (s.events e).queue.entries → x.1 ≤ (s.events e).seq
  queued_unique : ∀ e x y, x ∈ (s.events e).queue.entries → y ∈ (s.events e).queue.entries →
    x.1 = y.1 → x = y
  pending_le : ∀ i j n, Pending s i j n → n ≤ (s.events j.eventId).seq
  pending_unique : ∀ i i' j j' n, Pending s i j n → Pending s i' j' n →
    j.eventId = j'.eventId → i = i'
  pending_not_queued : ∀ i j n x, Pending s i j n → x ∈ (s.events j.eventId).queue.entries →
    x.1 ≠ n

theorem numbered_new : Numbered .new := by
  refine ⟨by simp [Room.new, EventKeys.new, ZSet.empty],
    by simp [Room.new, EventKeys.new, ZSet.empty], ?_, ?_, ?_⟩
  · rintro i j n ⟨⟨⟩, -⟩
  · rintro i i' j j' n ⟨⟨⟩, -⟩
  · rintro i j n x ⟨⟨⟩, -⟩

/-- Fewer entries and fewer joins on the way are still numbered. -/
theorem Numbered.mono (h : Numbered s) (hpending : ∀ i j n, Pending s' i j n → Pending s i j n)
    (hseq : ∀ e, (s'.events e).seq = (s.events e).seq)
    (hqueue : ∀ e x, x ∈ (s'.events e).queue.entries → x ∈ (s.events e).queue.entries) :
    Numbered s' where
  queued_le e x hx := (hseq e).symm ▸ h.queued_le e x (hqueue e x hx)
  queued_unique e x y hx hy := h.queued_unique e x y (hqueue e x hx) (hqueue e y hy)
  pending_le i j n hp := (hseq j.eventId).symm ▸ h.pending_le i j n (hpending i j n hp)
  pending_unique i i' j j' n hp hp' :=
    h.pending_unique i i' j j' n (hpending i j n hp) (hpending i' j' n hp')
  pending_not_queued i j n x hp hx :=
    h.pending_not_queued i j n x (hpending i j n hp) (hqueue _ x hx)

theorem mem_eval {keys : EventKeys} {rate : Nat} {now : Int} {x : Nat × String}
    (h : x ∈ (keys.eval rate now).2.queue.entries) : x ∈ keys.queue.entries := by
  rcases Nat.eq_zero_or_pos rate with rfl | hrate
  · rwa [EventKeys.eval_zero] at h
  · rw [keys.eval_eq rate now hrate, ZSet.entries_remove_first] at h
    exact List.mem_of_mem_drop h

theorem seq_eval (keys : EventKeys) (rate : Nat) (now : Int) :
    (keys.eval rate now).2.seq = keys.seq := by
  unfold EventKeys.eval
  split_ifs <;> rfl

theorem Numbered.obtain (h : Numbered s) {i : Nat} {j : Join}
    (hjoins : s'.joins = update s.joins i
      (some { j with phase := .zadd ((s.events j.eventId).seq + 1) }))
    (hevents : s'.events = update s.events j.eventId
      { s.events j.eventId with seq := (s.events j.eventId).seq + 1 }) : Numbered s' := by
  have hqueue : ∀ e, (s'.events e).queue = (s.events e).queue := by
    rw [hevents]
    refine (forall_update_iff s.events fun e keys => keys.queue = (s.events e).queue).mpr ?_
    exact ⟨rfl, fun _ _ => rfl⟩
  have hseq : ∀ e, (s.events e).seq ≤ (s'.events e).seq ∧
      (e = j.eventId → (s'.events e).seq = (s.events e).seq + 1) := by
    rw [hevents]
    refine (forall_update_iff s.events fun e keys => (s.events e).seq ≤ keys.seq ∧
      (e = j.eventId → keys.seq = (s.events e).seq + 1)).mpr ?_
    exact ⟨⟨Nat.le_succ _, fun _ => rfl⟩, fun e he => ⟨le_rfl, fun h => absurd h he⟩⟩
  have hpending (k : Nat) (j' : Join) (n : Nat) (hp : Pending s' k j' n) :
      (k = i ∧ j'.eventId = j.eventId ∧ n = (s.events j.eventId).seq + 1) ∨ Pending s k j' n := by
    obtain ⟨hk, hn⟩ := hp
    rw [hjoins] at hk
    by_cases hki : k = i
    · subst hki
      rw [update_self] at hk
      cases hk
      cases hn
      exact .inl ⟨rfl, rfl, rfl⟩
    · rw [update_of_ne hki] at hk
      exact .inr ⟨hk, hn⟩
  constructor
  · intro e x hx
    rw [hqueue] at hx
    exact (h.queued_le e x hx).trans (hseq e).1
  · intro e x y hx hy
    rw [hqueue] at hx hy
    exact h.queued_unique e x y hx hy
  · intro k j' n hp
    rcases hpending k j' n hp with ⟨-, he, rfl⟩ | hp
    · rw [he, (hseq j.eventId).2 rfl]
    · exact (h.pending_le k j' n hp).trans (hseq _).1
  · intro k k' j₁ j₂ n hp hp' he
    rcases hpending k j₁ n hp with ⟨rfl, he₁, rfl⟩ | hold <;>
      rcases hpending k' j₂ _ hp' with ⟨rfl, he₂, hn⟩ | hold'
    · rfl
    · have := h.pending_le k' j₂ _ hold'
      rw [← he, he₁] at this
      omega
    · have := h.pending_le k j₁ n hold
      rw [he, he₂] at this
      omega
    · exact h.pending_unique k k' j₁ j₂ n hold hold' he
  · intro k j' n x hp hx
    rw [hqueue] at hx
    rcases hpending k j' n hp with ⟨-, he, rfl⟩ | hp
    · have := h.queued_le _ x hx
      rw [he] at this
      omega
    · exact h.pending_not_queued k j' n x hp hx

theorem Numbered.enter (h : Numbered s) {i n : Nat} {j : Join} (hp : Pending s i j n)
    (hjoins : s'.joins = update s.joins i (some { j with phase := .sadd }))
    (hevents : s'.events = update s.events j.eventId ((s.events j.eventId).zadd n j.clientId)) :
    Numbered s' := by
  have hseq : ∀ e, (s'.events e).seq = (s.events e).seq := by
    rw [hevents]
    refine (forall_update_iff s.events fun e keys => keys.seq = (s.events e).seq).mpr ?_
    exact ⟨rfl, fun _ _ => rfl⟩
  have hqueue : ∀ e x, x ∈ (s'.events e).queue.entries →
      x ∈ (s.events e).queue.entries ∨ e = j.eventId ∧ x = (n, j.clientId) := by
    rw [hevents]
    refine (forall_update_iff s.events fun e keys => ∀ x, x ∈ keys.queue.entries →
      x ∈ (s.events e).queue.entries ∨ e = j.eventId ∧ x = (n, j.clientId)).mpr ?_
    refine ⟨fun x hx => ?_, fun _ _ x hx => .inl hx⟩
    exact (ZSet.mem_addNX.mp hx).imp_right fun hx => ⟨rfl, hx.1⟩
  have hpending (k : Nat) (j' : Join) (m : Nat) (hk : Pending s' k j' m) :
      k ≠ i ∧ Pending s k j' m := by
    refine ⟨?_, pending_of_update hjoins (by simp) k j' m hk⟩
    rintro rfl
    obtain ⟨hk, hm⟩ := hk
    rw [hjoins, update_self] at hk
    cases hk
    cases hm
  constructor
  · intro e x hx
    rw [hseq]
    rcases hqueue e x hx with hx | ⟨rfl, rfl⟩
    · exact h.queued_le e x hx
    · exact h.pending_le i j n hp
  · intro e x y hx hy hxy
    rcases hqueue e x hx with hx | ⟨rfl, rfl⟩ <;> rcases hqueue _ y hy with hy | ⟨he, rfl⟩
    · exact h.queued_unique e x y hx hy hxy
    · subst he
      exact absurd hxy (h.pending_not_queued i j n x hp hx)
    · exact absurd hxy.symm (h.pending_not_queued i j n y hp hy)
    · rfl
  · intro k j' m hk
    rw [hseq]
    exact h.pending_le k j' m (hpending k j' m hk).2
  · intro k k' j₁ j₂ m hk hk'
    exact h.pending_unique k k' j₁ j₂ m (hpending k j₁ m hk).2 (hpending k' j₂ m hk').2
  · intro k j' m x hk hx
    obtain ⟨hki, hk⟩ := hpending k j' m hk
    rcases hqueue _ x hx with hx | ⟨he, rfl⟩
    · exact h.pending_not_queued k j' m x hk hx
    · rintro rfl
      exact hki (h.pending_unique k i j' j n hk hp he)

theorem step_numbered (h : Numbered s) (hok : step s a = .ok s') : Numbered s' := by
  rcases step_cases hok with ⟨i, j, hj, hincr, hjoins, hevents⟩ |
    ⟨i, j, n, hp, hjoins, hevents⟩ | ⟨e, rate, now, hjoins, hevents⟩ | ⟨hpending, hsame⟩
  · exact h.obtain hjoins hevents
  · exact h.enter hp hjoins hevents
  · refine h.mono (fun i j n hp => ⟨hjoins ▸ hp.1, hp.2⟩) ?_ ?_ <;> rw [hevents]
    · refine (forall_update_iff s.events fun e keys => keys.seq = (s.events e).seq).mpr ?_
      exact ⟨seq_eval _ rate now, fun _ _ => rfl⟩
    · refine (forall_update_iff s.events fun e keys => ∀ x, x ∈ keys.queue.entries →
        x ∈ (s.events e).queue.entries).mpr ?_
      exact ⟨fun _ => mem_eval, fun _ _ _ hx => hx⟩
  · exact h.mono hpending (fun e => (hsame e).1) fun e x hx => (hsame e).2 ▸ hx

theorem run_numbered (steps : List Step) : Numbered (run step .new steps) :=
  Along.inv (fun _ _ _ h _ hok => step_numbered h hok) .trivial numbered_new

/-! ## The order -/

/-- The entries a step admits are in front of the queue. -/
theorem admits_prefix (s : Room) (e : String) (a : Step) :
    ∃ rest, (s.events e).queue.entries = s.admits e a ++ rest := by
  unfold Room.admits
  split
  · split
    · split_ifs with he
      · exact ⟨_, (List.take_append_drop _ _).symm⟩
      · exact ⟨_, rfl⟩
    · exact ⟨_, rfl⟩
  · exact ⟨_, rfl⟩

theorem admits_eq (s : Room) (e : String) (a : Step) : s.admits e a = s.inReach e a := by
  unfold Room.admits Room.inReach
  split
  · rename_i i eventIds now token
    cases hworker : s.workers i with
    | none => rfl
    | some phase =>
      cases phase with
      | eval e' rate rest =>
        dsimp only
        split_ifs
        · rw [EventKeys.eval_fst, ZSet.length_first, ← List.take_eq_take_min]
        · rfl
      | _ => rfl
  · rfl

/-- **The order of a step.** -/
theorem admitsInOrder_iff (h : Numbered s) (e : String) (hist : List (Room × Step × Room))
    (a : Step) : AdmitsInOrder e hist s a ↔ QueuedInTime e hist s a := by
  obtain ⟨rest, hrest⟩ := admits_prefix s e a
  unfold QueuedInTime
  rw [← admits_eq]
  constructor
  · intro horder n x hx y hyx m hm hlt
    obtain ⟨before, after, hsplit⟩ := List.append_of_mem hx
    have hy := horder before n x after hsplit y hyx m hm hlt
    obtain ⟨⟨m', y'⟩, hbefore, rfl⟩ := List.mem_map.mp hy
    rw [hsplit, List.append_assoc, List.cons_append] at hrest
    have hqueued : (m', y') ∈ (s.events e).queue.entries := by
      rw [hrest]
      exact List.mem_append_left _ hbefore
    have hadmitted : (n, x) ∈ (s.events e).queue.entries := by
      rw [hrest]
      simp
    refine ⟨m', lt_of_le_of_ne (ZSet.score_le_of_mem hrest hbefore) fun heq => ?_, hqueued⟩
    exact hyx (congrArg Prod.snd (h.queued_unique e _ _ hqueued hadmitted heq))
  · intro hqueued before n x after hsplit y hyx m hm hlt
    obtain ⟨m', hlt', hmem⟩ := hqueued n x (by rw [hsplit]; simp) y hyx m hm hlt
    rw [hsplit, List.append_assoc, List.cons_append] at hrest
    exact List.mem_map.mpr ⟨(m', y), ZSet.mem_of_score_lt hrest hmem hlt', rfl⟩

theorem admission_order_iff (steps : List Step) :
    (∀ pre a post s', steps = pre ++ a :: post → step (run step .new pre) a = .ok s' →
      ∀ e, AdmitsInOrder e (history step .new pre) (run step .new pre) a) ↔
    ∀ pre a post s', steps = pre ++ a :: post → step (run step .new pre) a = .ok s' →
      ∀ e, QueuedInTime e (history step .new pre) (run step .new pre) a := by
  have hstep (pre : List Step) (a : Step) (e : String) :
      AdmitsInOrder e (history step .new pre) (run step .new pre) a ↔
        QueuedInTime e (history step .new pre) (run step .new pre) a :=
    admitsInOrder_iff (run_numbered pre) e _ a
  simp only [hstep]

/-! ## Two clients -/

namespace Sample

/-- Two joins and a worker that finds an empty bucket. The first client has its number and is not
in the queue yet when the second one is. -/
def overtaking : List Step :=
  [.join 1 "concert" "ann" 60, .join 2 "concert" "bob" 60, .joinNext 1, .joinNext 1,
    .joinNext 2, .joinNext 2, .joinNext 2, .joinNext 2, .joinNext 2,
    .sweep 1, .workerNext 1 ["concert"] 0 "", .workerNext 1 [] 0 "", .workerNext 1 [] 0 "",
    .sweep 2, .workerNext 2 ["concert"] 1000 "", .workerNext 2 [] 1000 ""]

/-- The script call of a second worker, a second later. -/
def call : Step := .workerNext 2 [] 1000 ""

end Sample

open Sample in
/-- The second client is admitted under the number 2 while the first one has the number 1. -/
theorem admission_out_of_order :
    (∃ s', step (run step .new overtaking) call = .ok s') ∧
      ¬ AdmitsInOrder "concert" (history step .new overtaking) (run step .new overtaking) call := by
  refine ⟨exists_of_isOk (by decide), fun h => ?_⟩
  have hbefore := h [] 2 "bob" [] (by decide +kernel) "ann" (by decide) 1 (by decide +kernel)
    (by decide)
  cases hbefore

end Agora.WaitingRoom
