import Agora.WaitingRoom.Engine

/-!
# Waiting clients

A worker pops clients with one command and stores their grants with the next
ones, and it leaves an event that it found empty with one more command. A client
whose join was answered with `Waiting` is kept as long as no worker stops in
between, and no event is left while such a client is in its queue again.
-/

namespace Agora.WaitingRoom

open Lib Function

/-- The join has sent its `SADD`, and is answered with `Waiting` if at all. -/
def JoinPhase.listed : JoinPhase → Bool
  | .hsetnx | .zrank | .zcard _ => true
  | .returned status => status.status == .waiting
  | _ => false

/-- The join has sent its `ZADD`. -/
def JoinPhase.entered : JoinPhase → Bool
  | .sadd => true
  | phase => phase.listed

def Queued (s : Room) (e c : String) : Prop := c ∈ (s.events e).queue.members

def Granted (s : Room) (e c : String) : Prop := ((s.events e).grants c).isSome

/-- The worker has popped the client and will store its grant. -/
def HeldBy (s : Room) (i : Nat) (e c : String) : Prop :=
  ∃ clients rest, s.workers i = some (.set e clients rest) ∧ c ∈ clients

def Held (s : Room) (e c : String) : Prop := ∃ i, HeldBy s i e c

/-- Some join of the client has sent its `ZADD`. -/
def Entered (s : Room) (e c : String) : Prop :=
  ∃ i j, s.joins i = some j ∧ j.eventId = e ∧ j.clientId = c ∧ j.phase.entered

/-- Some join of the client has sent its `SADD`. -/
def Listed (s : Room) (e c : String) : Prop :=
  ∃ i j, s.joins i = some j ∧ j.eventId = e ∧ j.clientId = c ∧ j.phase.listed

/-- A grant of the client expired while the join was under way or after it. -/
def ExpiredSince (hist : List (Room × Step × Room)) (i : Nat) (e c : String) : Prop :=
  ∃ t t' j, (t, .expire e c, t') ∈ hist ∧ Granted t e c ∧ t.joins i = some j ∧ j.phase ≠ .get

/-- No join and no worker has a command to send. -/
def Quiet (s : Room) : Prop :=
  (∀ i j, s.joins i = some j → (∃ status, j.phase = .returned status) ∨ j.phase = .failed) ∧
    ∀ i phase, s.workers i = some phase → phase = .hgetall [] ∨ phase = .failed

/-- The client of the join is in the queue of an event that is swept, or has a grant, or had one
that expired. -/
def Retained (s : Room) (hist : List (Room × Step × Room)) (i : Nat) (j : Join) : Prop :=
  Queued s j.eventId j.clientId ∧ j.eventId ∈ s.active ∨ Granted s j.eventId j.clientId ∨
    ExpiredSince hist i j.eventId j.clientId

/-- No worker stops while it holds a client without a grant whose join is in the queue or answered,
and no event is left while a client without a grant whose join has sent its `SADD` is queued. -/
def Retains (s : Room) : Step → Prop
  | .workerFails i => ∀ e c, HeldBy s i e c → Entered s e c → Granted s e c
  | .workerNext i .. => ∀ e rest, s.workers i = some (.srem e rest) →
      ∀ c, Queued s e c → Listed s e c → Granted s e c
  | _ => True

/-! ## What a step does to a client -/

section Steps

variable {s s' : Room} {a : Step} {e c : String} {i : Nat} {j : Join}

theorem entered_of_listed {phase : JoinPhase} (h : phase.listed) : phase.entered := by
  cases phase <;> first | exact h | cases h

theorem ne_get_of_entered {phase : JoinPhase} (h : phase.entered) : phase ≠ .get := by
  rintro rfl
  cases h

/-- The queues, the grants and the list of events only grow, and the workers are the same. -/
structure Grows (s s' : Room) : Prop where
  queued : ∀ e c, Queued s e c → Queued s' e c
  granted : ∀ e c, Granted s e c → Granted s' e c
  active : ∀ e, e ∈ s.active → e ∈ s'.active

theorem Grows.refl (s : Room) : Grows s s := ⟨fun _ _ h => h, fun _ _ h => h, fun _ h => h⟩

theorem grows_setKeys {keys : EventKeys}
    (hqueue : ∀ c, c ∈ (s.events e).queue.members → c ∈ keys.queue.members)
    (hgrants : ∀ c, ((s.events e).grants c).isSome → (keys.grants c).isSome) :
    Grows s (s.setKeys e keys) where
  queued := (forall_update_iff s.events fun e keys =>
    ∀ c, Queued s e c → c ∈ keys.queue.members).mpr ⟨hqueue, fun _ _ _ h => h⟩
  granted := (forall_update_iff s.events fun e keys =>
    ∀ c, Granted s e c → (keys.grants c).isSome).mpr ⟨hgrants, fun _ _ _ h => h⟩
  active _ h := h

theorem mem_members_addNX {q : Queue} {n : Nat} {c d : String} :
    c ∈ (q.addNX n d).members ↔ c ∈ q.members ∨ c = d := by
  simp only [ZSet.mem_members, ZSet.mem_addNX]
  constructor
  · rintro ⟨n', h | ⟨h, -⟩⟩
    · exact .inl ⟨n', h⟩
    · exact .inr (Prod.mk.inj h).2
  · rintro (⟨n', h⟩ | rfl)
    · exact ⟨n', .inl h⟩
    · by_cases hmem : ∃ n', (n', c) ∈ q.entries
      · exact hmem.imp fun _ => .inl
      · exact ⟨n, .inr ⟨rfl, hmem⟩⟩

/-- **A command of a join.** Its client is in the queue after the `ZADD`, and the event in the list
after the `SADD`. -/
theorem joinNext_grows {phase : JoinPhase} (h : s.joinNext j = .ok (s', phase)) :
    Grows s s' ∧ s'.joins = s.joins ∧ s'.workers = s.workers ∧ (phase.entered →
      Queued s' j.eventId j.clientId ∧ phase.listed = false ∨
      j.phase.entered ∧ (phase.listed → j.phase.listed ∨ j.eventId ∈ s'.active)) := by
  simp only [Room.joinNext] at h
  cases hphase : j.phase with
  | zadd n =>
    rw [hphase] at h
    cases h
    refine ⟨grows_setKeys (fun c hc => mem_members_addNX.mpr (.inl hc)) fun c hc => hc, rfl, rfl,
      fun _ => .inl ⟨?_, rfl⟩⟩
    simp only [Queued, Room.setKeys, update_self, EventKeys.zadd]
    exact mem_members_addNX.mpr (.inr rfl)
  | sadd =>
    rw [hphase] at h
    cases h
    refine ⟨⟨fun _ _ h => h, fun _ _ h => h, fun e he => ?_⟩, rfl, rfl,
      fun _ => .inr ⟨rfl, fun _ => .inr ?_⟩⟩
    · dsimp only
      split_ifs
      · exact he
      · exact List.mem_append_left _ he
    · dsimp only
      split_ifs with hmem
      · exact hmem
      · exact List.mem_append_right _ (List.mem_singleton_self _)
  | get =>
    rw [hphase] at h
    dsimp only at h
    split at h <;> cases h <;> exact ⟨.refl s, rfl, rfl, fun hp => (by cases hp)⟩
  | granted token =>
    rw [hphase] at h
    cases h
    exact ⟨.refl s, rfl, rfl, fun hp => (by cases hp)⟩
  | incr =>
    rw [hphase] at h
    cases h
    exact ⟨grows_setKeys (fun _ hc => hc) fun _ hc => hc, rfl, rfl, fun hp => (by cases hp)⟩
  | hsetnx =>
    rw [hphase] at h
    cases h
    exact ⟨grows_setKeys (fun _ hc => hc) fun _ hc => hc, rfl, rfl,
      fun _ => .inr ⟨rfl, fun _ => .inl rfl⟩⟩
  | zrank =>
    rw [hphase] at h
    dsimp only at h
    split at h <;> cases h <;> exact ⟨.refl s, rfl, rfl, fun _ => .inr ⟨rfl, fun _ => .inl rfl⟩⟩
  | zcard position =>
    rw [hphase] at h
    cases h
    exact ⟨.refl s, rfl, rfl, fun _ => .inr ⟨rfl, fun _ => .inl rfl⟩⟩
  | returned status =>
    rw [hphase] at h
    cases h
  | failed =>
    rw [hphase] at h
    cases h

theorem mem_members_remove {q : Queue} {clients : List String} {c : String}
    (h : c ∈ q.members) : c ∈ clients ∨ c ∈ (q.remove clients).members := by
  by_cases hc : c ∈ clients
  · exact .inl hc
  · obtain ⟨n, hn⟩ := ZSet.mem_members.mp h
    exact .inr (ZSet.mem_members.mpr ⟨n, List.mem_filter.mpr ⟨hn, decide_eq_true hc⟩⟩)

/-- The script pops a client or leaves it in the queue. -/
theorem mem_members_eval {keys : EventKeys} {rate : Nat} {now : Int} {c : String}
    (h : c ∈ keys.queue.members) :
    c ∈ (keys.eval rate now).1 ∨ c ∈ (keys.eval rate now).2.queue.members := by
  rcases Nat.eq_zero_or_pos rate with rfl | hrate
  · rw [EventKeys.eval_zero]
    exact .inr h
  · rw [keys.eval_eq rate now hrate]
    exact mem_members_remove h

theorem grants_eval (keys : EventKeys) (rate : Nat) (now : Int) :
    (keys.eval rate now).2.grants = keys.grants := by
  rcases Nat.eq_zero_or_pos rate with rfl | hrate
  · rw [EventKeys.eval_zero]
  · rw [keys.eval_eq rate now hrate]

/-- What a command of a worker does: a popped client is held, a held client stays so or gets its
grant, and an event leaves the list by the `SREM`. -/
structure WorkerMoves (s s' : Room) (phase phase' : WorkerPhase) : Prop where
  joins : s'.joins = s.joins
  workers : s'.workers = s.workers
  granted : ∀ e c, Granted s e c → Granted s' e c
  queued : ∀ e c, Queued s e c → Queued s' e c ∨
    ∃ clients rest, phase' = .set e clients rest ∧ c ∈ clients
  held : ∀ e c clients rest, phase = .set e clients rest → c ∈ clients →
    Granted s' e c ∨ ∃ clients, phase' = .set e clients rest ∧ c ∈ clients
  active : ∀ e, e ∈ s.active → e ∈ s'.active ∨ ∃ rest, phase = .srem e rest

theorem workerMoves_refl {phase phase' : WorkerPhase}
    (h : ∀ e c clients rest, phase = .set e clients rest → c ∉ clients) :
    WorkerMoves s s phase phase' where
  joins := rfl
  workers := rfl
  granted _ _ h := h
  queued _ _ h := .inl h
  held e c clients rest hphase hc := absurd hc (h e c clients rest hphase)
  active _ h := .inl h

theorem workerNext_moves {eventIds : List String} {now : Int} {token : String}
    {phase phase' : WorkerPhase} (h : s.workerNext eventIds now token phase = .ok (s', phase')) :
    WorkerMoves s s' phase phase' := by
  unfold Room.workerNext at h
  split at h
  · split_ifs at h
    cases h
    exact workerMoves_refl (by simp)
  · cases h
  · dsimp only at h
    split_ifs at h <;> cases h <;> exact workerMoves_refl (by simp)
  · rename_i e rate rest
    cases h
    refine ⟨rfl, rfl, ?_, ?_, by simp, fun _ h => .inl h⟩
    · refine (forall_update_iff s.events fun e keys =>
        ∀ c, Granted s e c → (keys.grants c).isSome).mpr ⟨fun c hc => ?_, fun _ _ _ h => h⟩
      show (((s.events e).eval rate now).2.grants c).isSome
      rw [grants_eval]
      exact hc
    · refine (forall_update_iff s.events fun e' keys => ∀ c, Queued s e' c →
        c ∈ keys.queue.members ∨ ∃ clients rest', WorkerPhase.set e
          ((s.events e).eval rate now).1 rest = .set e' clients rest' ∧ c ∈ clients).mpr
            ⟨fun c hc => ?_, fun _ _ _ h => .inl h⟩
      exact (mem_members_eval hc).symm.imp_right fun hpop => ⟨_, _, rfl, hpop⟩
  · rename_i e client more rest
    cases h
    refine ⟨rfl, rfl, ?_, ?_, ?_, fun _ h => .inl h⟩
    · refine (forall_update_iff s.events fun e keys =>
        ∀ c, Granted s e c → (keys.grants c).isSome).mpr ⟨fun c hc => ?_, fun _ _ _ h => h⟩
      by_cases heq : c = client
      · subst heq
        simp
      · simp only [update_of_ne heq]
        exact hc
    · refine (forall_update_iff s.events fun e' keys => ∀ c, Queued s e' c →
        c ∈ keys.queue.members ∨ ∃ clients rest', WorkerPhase.set e more rest =
          .set e' clients rest' ∧ c ∈ clients).mpr ⟨fun _ h => .inl h, fun _ _ _ h => .inl h⟩
    · intro e' c clients rest' hphase hc
      cases hphase
      rcases List.mem_cons.mp hc with rfl | hc
      · left
        simp only [Granted, Room.setKeys, update_self]
        rfl
      · exact .inr ⟨more, rfl, hc⟩
  · split_ifs at h <;> cases h <;> exact workerMoves_refl (by simp)
  · rename_i e rest
    cases h
    refine ⟨rfl, rfl, fun _ _ h => h, fun _ _ h => .inl h, by simp, fun e' he' => ?_⟩
    by_cases heq : e' = e
    · exact .inr ⟨rest, by rw [heq]⟩
    · exact .inl ((List.mem_erase_of_ne heq).mpr he')
  · cases h

/-! ## Kept through a run -/

/-- Where the client of a join is: in the queue, with its event in the list after the `SADD`, or
popped by a worker, or it has a grant, or had one that expired. -/
def Kept (s : Room) (hist : List (Room × Step × Room)) (i : Nat) (j : Join) : Prop :=
  (Queued s j.eventId j.clientId ∧ (j.phase.listed → j.eventId ∈ s.active)) ∨
    Held s j.eventId j.clientId ∨ Granted s j.eventId j.clientId ∨
      ExpiredSince hist i j.eventId j.clientId

/-- The client of every join that has sent its `ZADD` is kept. -/
def Keeping (s : Room) (hist : List (Room × Step × Room)) : Prop :=
  ∀ i j, s.joins i = some j → j.phase.entered → Kept s hist i j

variable {hist : List (Room × Step × Room)}

theorem ExpiredSince.append {new : List (Room × Step × Room)} (h : ExpiredSince hist i e c) :
    ExpiredSince (hist ++ new) i e c := by
  obtain ⟨t, t', j, hmem, hrest⟩ := h
  exact ⟨t, t', j, List.mem_append_left _ hmem, hrest⟩

/-- A client stays kept when the worker that pops it holds it and the one that held it stores its
grant. -/
theorem Kept.mono {new : List (Room × Step × Room)} (h : Kept s hist i j)
    (hqueued : Queued s j.eventId j.clientId →
      Queued s' j.eventId j.clientId ∨ Held s' j.eventId j.clientId)
    (hlisted : Queued s j.eventId j.clientId → j.phase.listed → j.eventId ∈ s.active →
      j.eventId ∈ s'.active ∨ Granted s' j.eventId j.clientId)
    (hheld : Held s j.eventId j.clientId →
      Held s' j.eventId j.clientId ∨ Granted s' j.eventId j.clientId)
    (hgranted : Granted s j.eventId j.clientId → Granted s' j.eventId j.clientId ∨
      ExpiredSince (hist ++ new) i j.eventId j.clientId) :
    Kept s' (hist ++ new) i j := by
  rcases h with ⟨hq, hl⟩ | hh | hg | hx
  · rcases hqueued hq with hq' | hh
    · by_cases hphase : j.phase.listed
      · rcases hlisted hq hphase (hl hphase) with hactive | hg
        · exact .inl ⟨hq', fun _ => hactive⟩
        · exact .inr (.inr (.inl hg))
      · exact .inl ⟨hq', fun hp => absurd hp hphase⟩
    · exact .inr (.inl hh)
  · exact .inr ((hheld hh).imp_right .inl)
  · exact .inr (.inr (hgranted hg))
  · exact .inr (.inr (.inr hx.append))

theorem Kept.grows {new : List (Room × Step × Room)} (h : Kept s hist i j) (hgrows : Grows s s')
    (hworkers : ∀ e c, Held s e c → Held s' e c) : Kept s' (hist ++ new) i j :=
  h.mono (fun hq => .inl (hgrows.queued _ _ hq)) (fun _ _ ha => .inl (hgrows.active _ ha))
    (fun hh => .inl (hworkers _ _ hh)) fun hg => .inl (hgrows.granted _ _ hg)

theorem held_congr (h : s'.workers = s.workers) (hheld : Held s e c) : Held s' e c := by
  obtain ⟨i, clients, rest, hi, hc⟩ := hheld
  exact ⟨i, clients, rest, h ▸ hi, hc⟩

theorem joins_update_cases {k : Nat} {j' : Join}
    (h : update s.joins i (some j) k = some j') : k = i ∧ j' = j ∨ s.joins k = some j' := by
  by_cases hk : k = i
  · subst hk
    rw [update_self] at h
    cases h
    exact .inl ⟨rfl, rfl⟩
  · rw [update_of_ne hk] at h
    exact .inr h

/-- A command of a join keeps its own client and the others. -/
theorem keeping_joinNext {phase : JoinPhase} {t : Room} {a : Step} (h : Keeping s hist)
    (hj : s.joins i = some j) (hnext : s.joinNext j = .ok (t, phase)) :
    Keeping { t with joins := update s.joins i (some { j with phase }) } (hist ++ [(s, a, s')]) := by
  obtain ⟨hgrows, -, hworkers, hown⟩ := joinNext_grows hnext
  have hsame : ∀ k j', s.joins k = some j' → j'.phase.entered →
      Kept { t with joins := update s.joins i (some { j with phase }) }
        (hist ++ [(s, a, s')]) k j' := fun k j' hk hp =>
    (h k j' hk hp).grows ⟨hgrows.queued, hgrows.granted, hgrows.active⟩
      fun e c => held_congr hworkers
  intro k j' hk hp
  rcases joins_update_cases hk with ⟨rfl, rfl⟩ | hk
  · rcases hown hp with ⟨hq, hnot⟩ | ⟨hold, hlisted⟩
    · exact .inl ⟨hq, fun hl => absurd hl (by rw [hnot]; decide)⟩
    · rcases hsame k j hj hold with ⟨hq, hl⟩ | hrest
      · refine .inl ⟨hq, fun hphase => ?_⟩
        rcases hlisted hphase with hold | hactive
        · exact hl hold
        · exact hactive
      · exact .inr hrest
  · exact hsame k j' hk hp

/-- A command of a worker keeps the clients, when it is no `SREM` of an event with waiting
clients. -/
theorem keeping_workerNext {phase phase' : WorkerPhase} {t : Room} {a : Step} (h : Keeping s hist)
    (hi : s.workers i = some phase) (hmoves : WorkerMoves s t phase phase')
    (hsrem : ∀ e rest, s.workers i = some (.srem e rest) →
      ∀ c, Queued s e c → Listed s e c → Granted s e c) :
    Keeping { t with workers := update s.workers i (some phase') } (hist ++ [(s, a, s')]) := by
  intro k j hk hp
  simp only [hmoves.joins] at hk
  refine (h k j hk hp).mono (fun hq => ?_) (fun hq hphase hactive => ?_) (fun hh => ?_)
    fun hg => .inl (hmoves.granted _ _ hg)
  · refine (hmoves.queued _ _ hq).imp_right ?_
    rintro ⟨clients, rest, rfl, hc⟩
    exact ⟨i, clients, rest, update_self .., hc⟩
  · rcases hmoves.active _ hactive with hactive | ⟨rest, rfl⟩
    · exact .inl hactive
    · exact .inr (hmoves.granted _ _ (hsrem _ rest hi _ hq ⟨k, j, hk, rfl, rfl, hphase⟩))
  · obtain ⟨k', clients, rest, hk', hc⟩ := hh
    by_cases heq : k' = i
    · subst heq
      rw [hi] at hk'
      cases hk'
      rcases hmoves.held _ _ clients rest rfl hc with hg | ⟨clients', rfl, hc'⟩
      · exact .inr hg
      · exact .inl ⟨k', clients', rest, update_self .., hc'⟩
    · refine .inl ⟨k', clients, rest, ?_, hc⟩
      dsimp only
      rw [update_of_ne heq]
      exact hk'

theorem keeping_join {eventId clientId : String} {rate : Nat} (h : Keeping s hist)
    (hok : step s (.join i eventId clientId rate) = .ok s') :
    Keeping s' (hist ++ [(s, .join i eventId clientId rate, s')]) := by
  simp only [step] at hok
  split_ifs at hok
  split at hok
  · cases hok
    intro k j hk hp
    rcases joins_update_cases hk with ⟨-, rfl⟩ | hk
    · cases hp
    · exact (h k j hk hp).grows ⟨fun _ _ h => h, fun _ _ h => h, fun _ h => h⟩ fun _ _ => id
  · cases hok

theorem keeping_joinFails (h : Keeping s hist) (hok : step s (.joinFails i) = .ok s') :
    Keeping s' (hist ++ [(s, .joinFails i, s')]) := by
  simp only [step] at hok
  split at hok
  · split at hok
    · cases hok
    · cases hok
    · cases hok
      intro k j hk hp
      rcases joins_update_cases hk with ⟨-, rfl⟩ | hk
      · cases hp
      · exact (h k j hk hp).grows ⟨fun _ _ h => h, fun _ _ h => h, fun _ h => h⟩ fun _ _ => id
  · cases hok

theorem keeping_sweep (h : Keeping s hist) (hok : step s (.sweep i) = .ok s') :
    Keeping s' (hist ++ [(s, .sweep i, s')]) := by
  simp only [step] at hok
  split at hok
  · rename_i hi
    cases hok
    intro k j hk hp
    refine (h k j hk hp).grows ⟨fun _ _ h => h, fun _ _ h => h, fun _ h => h⟩ ?_
    rintro e c ⟨k', clients, rest, hk', hc⟩
    refine ⟨k', clients, rest, ?_, hc⟩
    dsimp only
    rw [update_of_ne (fun heq => by rw [heq, hi] at hk'; cases hk')]
    exact hk'
  · cases hok

theorem keeping_workerFails (h : Keeping s hist) (hC : Retains s (.workerFails i))
    (hok : step s (.workerFails i) = .ok s') :
    Keeping s' (hist ++ [(s, .workerFails i, s')]) := by
  simp only [step] at hok
  split at hok
  · cases hok
    intro k j hk hp
    refine (h k j hk hp).mono .inl (fun _ _ => .inl) (fun hh => ?_) .inl
    obtain ⟨k', clients, rest, hk', hc⟩ := hh
    by_cases heq : k' = i
    · -- the worker that stops held the client
      subst heq
      exact .inr (hC _ _ ⟨clients, rest, hk', hc⟩ ⟨k, j, hk, rfl, rfl, hp⟩)
    · refine .inl ⟨k', clients, rest, ?_, hc⟩
      dsimp only
      rw [update_of_ne heq]
      exact hk'
  · cases hok

theorem keeping_expire {eventId clientId : String} (h : Keeping s hist)
    (hok : step s (.expire eventId clientId) = .ok s') :
    Keeping s' (hist ++ [(s, .expire eventId clientId, s')]) := by
  cases hok
  intro k j hk hp
  refine (h k j hk hp).mono (fun hq => .inl ?_) (fun _ _ => .inl)
    (fun hh => .inl (held_congr rfl hh)) fun hg => ?_
  · by_cases he : j.eventId = eventId
    · subst he
      simpa [Queued, Room.setKeys] using hq
    · simpa [Queued, Room.setKeys, update_of_ne he] using hq
  · by_cases hsame : j.eventId = eventId ∧ j.clientId = clientId
    · obtain ⟨rfl, rfl⟩ := hsame
      exact .inr ⟨s, _, j, List.mem_append_right _ (List.mem_singleton_self _), hg, hk,
        ne_get_of_entered hp⟩
    · left
      by_cases he : j.eventId = eventId
      · have hc : j.clientId ≠ clientId := fun hc => hsame ⟨he, hc⟩
        subst he
        simpa [Granted, Room.setKeys, update_of_ne hc] using hg
      · simpa [Granted, Room.setKeys, update_of_ne he] using hg

theorem step_keeping (h : Keeping s hist) (hC : Retains s a) (hok : step s a = .ok s') :
    Keeping s' (hist ++ [(s, a, s')]) := by
  cases a with
  | join => exact keeping_join h hok
  | joinNext i =>
    simp only [step] at hok
    split at hok
    · rename_i j hj
      obtain ⟨⟨t, phase⟩, hnext, hok⟩ := bind_eq_ok.mp hok
      cases hok
      exact keeping_joinNext h hj hnext
    · cases hok
  | joinFails => exact keeping_joinFails h hok
  | sweep => exact keeping_sweep h hok
  | workerNext i eventIds now token =>
    simp only [step] at hok
    split at hok
    · rename_i phase hi
      obtain ⟨⟨t, phase'⟩, hnext, hok⟩ := bind_eq_ok.mp hok
      cases hok
      exact keeping_workerNext h hi (workerNext_moves hnext) hC
    · cases hok
  | workerFails => exact keeping_workerFails h hC hok
  | expire => exact keeping_expire h hok

end Steps

/-! ## What a step leaves alone -/

/-- The join whose step it is. -/
def Step.joinIndex : Step → Option Nat
  | .join i .. | .joinNext i | .joinFails i => some i
  | _ => none

/-- The worker whose step it is. -/
def Step.workerIndex : Step → Option Nat
  | .sweep i | .workerNext i .. | .workerFails i => some i
  | _ => none

section Frame

variable {s s' : Room} {a : Step} {i : Nat}

theorem step_joins_of_ne (hok : step s a = .ok s') (hi : a.joinIndex ≠ some i) :
    s'.joins i = s.joins i := by
  cases a with
  | join k eventId clientId rate =>
    simp only [step] at hok
    split_ifs at hok
    split at hok <;> cases hok
    exact update_of_ne (fun h => hi (congrArg some h.symm)) ..
  | joinNext k =>
    simp only [step] at hok
    split at hok
    · obtain ⟨⟨t, phase⟩, -, hok⟩ := bind_eq_ok.mp hok
      cases hok
      exact update_of_ne (fun h => hi (congrArg some h.symm)) ..
    · cases hok
  | joinFails k =>
    simp only [step] at hok
    split at hok
    · split at hok <;> cases hok
      exact update_of_ne (fun h => hi (congrArg some h.symm)) ..
    · cases hok
  | workerNext k eventIds now token =>
    simp only [step] at hok
    split at hok
    · obtain ⟨⟨t, phase⟩, hnext, hok⟩ := bind_eq_ok.mp hok
      cases hok
      exact congrFun (workerNext_moves hnext).joins i
    · cases hok
  | sweep k | workerFails k =>
    simp only [step] at hok
    split at hok <;> cases hok
    rfl
  | expire eventId clientId =>
    cases hok
    rfl

theorem step_workers_of_ne (hok : step s a = .ok s') (hi : a.workerIndex ≠ some i) :
    s'.workers i = s.workers i := by
  cases a with
  | join k eventId clientId rate =>
    simp only [step] at hok
    split_ifs at hok
    split at hok <;> cases hok
    rfl
  | joinNext k =>
    simp only [step] at hok
    split at hok
    · obtain ⟨⟨t, phase⟩, hnext, hok⟩ := bind_eq_ok.mp hok
      cases hok
      exact congrFun (joinNext_grows hnext).2.2.1 i
    · cases hok
  | joinFails k =>
    simp only [step] at hok
    split at hok
    · split at hok <;> cases hok
      rfl
    · cases hok
  | workerNext k eventIds now token =>
    simp only [step] at hok
    split at hok
    · obtain ⟨⟨t, phase⟩, -, hok⟩ := bind_eq_ok.mp hok
      cases hok
      exact update_of_ne (fun h => hi (congrArg some h.symm)) ..
    · cases hok
  | sweep k | workerFails k =>
    simp only [step] at hok
    split at hok <;> cases hok
    exact update_of_ne (fun h => hi (congrArg some h.symm)) ..
  | expire eventId clientId =>
    cases hok
    rfl

end Frame

/-- Joins and workers that take no step of a run have not begun. -/
theorem run_untouched {steps : List Step} {i : Nat} :
    ((∀ a ∈ steps, a.joinIndex ≠ some i) → (run step .new steps).joins i = none) ∧
      ((∀ a ∈ steps, a.workerIndex ≠ some i) → (run step .new steps).workers i = none) := by
  constructor <;> intro h
  · exact Along.inv (C := fun _ a => a.joinIndex ≠ some i) (I := fun s => s.joins i = none)
      (fun _ _ _ hI hC hok => (step_joins_of_ne hok hC).trans hI)
      (.of_forall fun a ha _ => h a ha) (rfl : Room.new.joins i = none)
  · exact Along.inv (C := fun _ a => a.workerIndex ≠ some i) (I := fun s => s.workers i = none)
      (fun _ _ _ hI hC hok => (step_workers_of_ne hok hC).trans hI)
      (.of_forall fun a ha _ => h a ha) (rfl : Room.new.workers i = none)

/-! ## The waiting clients -/

theorem Quiet.not_held {s : Room} (h : Quiet s) {e c : String} : ¬ Held s e c := by
  rintro ⟨i, clients, rest, hi, -⟩
  rcases h.2 i _ hi with h | h <;> cases h

theorem waiting_retained (steps : List Step) (h : Along step Retains .new steps) (i : Nat)
    (j : Join) (status : QueueStatus) (hj : (run step .new steps).joins i = some j)
    (hphase : j.phase = .returned status) (hwaiting : status.status = .waiting) :
    (Retained (run step .new steps) (history step .new steps) i j ∨
      Held (run step .new steps) j.eventId j.clientId) ∧
    (Quiet (run step .new steps) →
      Retained (run step .new steps) (history step .new steps) i j) := by
  have hlisted : j.phase.listed := by
    rw [hphase]
    exact decide_eq_true hwaiting
  have hkept : Keeping (run step .new steps) (history step .new steps) :=
    h.history_inv (fun _ _ _ _ hI hC hok => step_keeping hI hC hok) (by rintro _ _ ⟨⟩)
  have hclient : Retained (run step .new steps) (history step .new steps) i j ∨
      Held (run step .new steps) j.eventId j.clientId := by
    rcases hkept i j hj (entered_of_listed hlisted) with ⟨hq, hl⟩ | hh | hrest
    · exact .inl (.inl ⟨hq, hl hlisted⟩)
    · exact .inr hh
    · exact .inl (.inr hrest)
  exact ⟨hclient, fun hquiet => hclient.resolve_right hquiet.not_held⟩

/-! ## A few clients -/

namespace Sample

/-- A join, from its first command to its answer. -/
def joining (i : Nat) (client : String) : List Step :=
  .join i "concert" client 60 :: List.replicate 7 (.joinNext i)

/-- A worker reads the list of events, and goes on for a few commands. -/
def sweeping (i commands : Nat) (now : Int) : List Step :=
  [.sweep i, .workerNext i ["concert"] now ""] ++
    List.replicate commands (.workerNext i [] now "")

/-- A worker finds no token. -/
def waiting : List Step := joining 1 "ann" ++ sweeping 1 3 0

/-- A second later another worker pops the client, and cannot sign the token. -/
def unsigned : List Step := waiting ++ sweeping 2 2 1000 ++ [.workerFails 2]

/-- It stores the grant and finds the queue empty, and leaves the event after the next join. -/
def raced : List Step :=
  waiting ++ sweeping 2 4 1000 ++ joining 2 "bob" ++ [.workerNext 2 [] 1000 ""]

theorem not_expired {steps : List Step} (h : steps.all fun | .expire .. => false | _ => true)
    {i : Nat} {e c : String} : ¬ ExpiredSince (history step .new steps) i e c := by
  rintro ⟨t, t', j, hmem, -⟩
  obtain ⟨pre, post, rfl, -⟩ := exists_of_mem_history hmem
  simp at h

/-- The join and the worker of an index have no command to send. -/
def finished (s : Room) (i : Nat) : Bool :=
  (match s.joins i with
    | none => true
    | some j => match j.phase with
      | .returned _ | .failed => true
      | _ => false) &&
    match s.workers i with
    | none | some (.hgetall []) | some .failed => true
    | _ => false

/-- Quiet is read off the joins and workers that took a step. -/
theorem quiet_of_finished {steps : List Step} (bound : Nat)
    (hsteps : ∀ a ∈ steps, (∀ i ∈ a.joinIndex, i < bound) ∧ ∀ i ∈ a.workerIndex, i < bound)
    (hfinished : ∀ i < bound, finished (run step .new steps) i) : Quiet (run step .new steps) := by
  constructor
  · intro i j hj
    have hi : i < bound := by
      by_contra hle
      rw [run_untouched.1 fun a ha h => hle ((hsteps a ha).1 i h)] at hj
      cases hj
    have := hfinished i hi
    simp only [finished, hj, Bool.and_eq_true] at this
    revert this
    cases j.phase <;> simp
  · intro i phase hphase
    have hi : i < bound := by
      by_contra hle
      rw [run_untouched.2 fun a ha h => hle ((hsteps a ha).2 i h)] at hphase
      cases hphase
    have := hfinished i hi
    simp only [finished, hphase, Bool.and_eq_true] at this
    revert this
    cases phase with
    | hgetall eventIds => cases eventIds <;> simp
    | _ => simp

/-- The next command of the worker is an `SREM`. -/
def leaving (s : Room) (i : Nat) : Bool :=
  match s.workers i with
  | some (.srem ..) => true
  | _ => false

theorem retains_of_not_leaving {s : Room} {i : Nat} (h : leaving s i = false)
    (eventIds : List String) (now : Int) (token : String) :
    Retains s (.workerNext i eventIds now token) := by
  intro e rest hi
  simp [leaving, hi] at h

theorem along_waiting : Along step Retains .new waiting := by
  refine Along.append.mpr ⟨.of_forall fun a ha s => ?_, fun _ _ => trivial, ?_, ?_, ?_, ?_, trivial⟩
  · simp only [joining, List.mem_cons, List.mem_replicate] at ha
    rcases ha with rfl | ⟨-, rfl⟩ <;> exact trivial
  all_goals exact fun _ _ => retains_of_not_leaving (by decide) _ _ _

end Sample

open Sample in
theorem waiting_retained_ann :
    ∃ j status, (run step .new waiting).joins 1 = some j ∧ j.phase = .returned status ∧
      status.status = .waiting ∧ Quiet (run step .new waiting) ∧
      Retained (run step .new waiting) (history step .new waiting) 1 j := by
  have hquiet : Quiet (run step .new waiting) := quiet_of_finished 3 (by decide) (by decide +kernel)
  have hj : (run step .new waiting).joins 1 = some
      ⟨"concert", "ann", 60, .returned ⟨.waiting, some 1, 1, some 1, none⟩⟩ := by decide +kernel
  exact ⟨_, _, hj, rfl, rfl, hquiet,
    (waiting_retained waiting along_waiting 1 _ _ hj rfl rfl).2 hquiet⟩

open Sample in
/-- A client that was told to wait is nowhere, and another one waits for an event that no worker
visits. -/
theorem waiting_forgotten :
    (∃ j status, (run step .new unsigned).joins 1 = some j ∧ j.phase = .returned status ∧
      status.status = .waiting ∧ Quiet (run step .new unsigned) ∧
      ¬ Retained (run step .new unsigned) (history step .new unsigned) 1 j) ∧
    ∃ j status, (run step .new raced).joins 2 = some j ∧ j.phase = .returned status ∧
      status.status = .waiting ∧ Quiet (run step .new raced) ∧
      ¬ Retained (run step .new raced) (history step .new raced) 2 j := by
  have hquiet : Quiet (run step .new unsigned) := quiet_of_finished 3 (by decide) (by decide +kernel)
  have hquiet' : Quiet (run step .new raced) := quiet_of_finished 3 (by decide) (by decide +kernel)
  refine ⟨⟨⟨"concert", "ann", 60, .returned ⟨.waiting, some 1, 1, some 1, none⟩⟩, _,
    by decide +kernel, rfl, rfl, hquiet, ?_⟩,
    ⟨"concert", "bob", 60, .returned ⟨.waiting, some 1, 1, some 1, none⟩⟩, _,
    by decide +kernel, rfl, rfl, hquiet', ?_⟩
  · rintro (⟨hqueued, -⟩ | hgranted | hexpired)
    · exact absurd hqueued (by unfold Queued; decide +kernel)
    · exact absurd hgranted (by unfold Granted; decide +kernel)
    · exact not_expired (by decide) hexpired
  · rintro (⟨-, hactive⟩ | hgranted | hexpired)
    · exact absurd hactive (by decide +kernel)
    · exact absurd hgranted (by unfold Granted; decide +kernel)
    · exact not_expired (by decide) hexpired

end Agora.WaitingRoom
