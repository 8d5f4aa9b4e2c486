import Agora.Indexer.Trace

/-!
# Rollbacks without a fork

The producer rolls back when a fetched event is at or below the checkpoint that
it read before the page, and not in the buffer. On a chain that never forks, an
RPC that answers with events after the position it was asked for never shows the
producer an event twice. So the producer does not roll back as long as the
checkpoint that it reads is below every event that it has still to fetch, and
when the checkpoint has passed the next such event, the next page rolls back.
-/

namespace Agora.Indexer

open Lib

variable {σ : Setting} {s s' : State}

/-- The event is after the position, which is a cursor or a first ledger. -/
def Position.Before (pos : Position) (e : SorobanEvent) : Prop :=
  (∀ cursor ∈ pos.cursor, cursor < e.id) ∧ ∀ startLedger ∈ pos.startLedger, startLedger ≤ e.ledger

instance (pos : Position) (e : SorobanEvent) : Decidable (pos.Before e) := by
  unfold Position.Before; infer_instance

/-- A step of the producer, the workers or the finalizer, or the chain grows. The RPC answers with
events after the position. -/
def Calm (s : State) : Step → Prop
  | .fetch ids _ =>
    match s.producer with
    | .fetch pos _ => ∀ e ∈ s.deliver ids, pos.Before e
    | _ => True
  | .startReplay .. | .fetchReplay .. | .replay .. | .fork _ | .crash => False
  | _ => True

/-- The producer reads a checkpoint below every event that it has still to fetch. -/
def ReadsBelow (s : State) : Step → Prop
  | .produce true =>
    match s.producer with
    | .load pos => ∀ e ∈ s.chain, pos.Before e → s.store.ledgerSequence < e.ledger
    | _ => True
  | _ => True

instance : DecidableRel Calm := fun s a => by
  cases a <;> unfold Calm
  case fetch => cases s.producer <;> dsimp only <;> infer_instance
  all_goals infer_instance

instance : DecidableRel ReadsBelow := fun s a => by
  cases a <;> unfold ReadsBelow
  case produce up => cases up <;> cases s.producer <;> dsimp only <;> infer_instance
  all_goals infer_instance

/-- The page that the producer works on. -/
def Producer.page? : Producer → Option Page
  | .check page _ | .rollback page _ _ | .send page _ _ | .save page _ => some page
  | _ => none

def Finalizer.bound : Finalizer → Nat
  | .idle => 0
  | .select b | .rows b _ | .mark b _ _ | .prune b => b

/-- The checkpoint is nowhere above the head of the chain, and the events that the producer holds
or asked for are above the checkpoint that it read. -/
structure Below (s : State) : Prop where
  ledgers : ∀ e ∈ s.chain, 0 < e.ledger
  latest : s.latestLedger ≤ s.head
  bound : s.finalizer.bound ≤ s.head
  checkpoint : s.store.ledgerSequence ≤ s.head
  asked : ∀ pos c, s.producer = .fetch pos c →
    c ≤ s.head ∧ ∀ e ∈ s.chain, pos.Before e → c < e.ledger
  page : ∀ page ∈ s.producer.page?, page.checkpointLedger ≤ s.head ∧
    ∀ e ∈ s.producer.held, page.checkpointLedger < e.ledger
  scan : ∀ page raw todo, s.producer ≠ .rollback page raw todo

theorem below_new (n : Nat) (tables : Tables) : Below (.new n tables) := by
  constructor <;> simp [State.new, Finalizer.bound, Store.ledgerSequence, Producer.page?]

namespace Below

variable (h : Below s)
include h

theorem produce {up : Bool} (hread : ReadsBelow s (.produce up))
    (hok : Indexer.produce σ s up = .ok s') : Below s' := by
  -- the producer is done with its page
  have hload : ∀ pos, Below { s with producer := .load pos } := fun pos =>
    { h with
      asked := by simp
      page := by simp [Producer.page?]
      scan := by simp }
  unfold Indexer.produce at hok
  split at hok
  · cases hok
    exact hload _
  · next pos hp =>
    cases hok
    refine { h with asked := ?_, page := by simp [Producer.page?], scan := by simp }
    intro pos' c heq
    cases heq
    cases up with
    | true =>
      simp only [ReadsBelow, hp] at hread
      exact ⟨h.checkpoint, hread⟩
    | false => exact ⟨Int.natCast_nonneg _, fun e he _ => Int.natCast_pos.mpr (h.ledgers e he)⟩
  · cases hok
  · next page raw todo hp =>
    have hpage := h.page page (by simp [hp, Producer.page?])
    rw [hp] at hpage
    split at hok
    · next hlow =>
      have habove := hpage.2 raw List.mem_cons_self
      omega
    · cases hok
      exact { h with
        asked := by simp
        page := by simpa [Producer.page?, Producer.held] using hpage
        scan := by simp }
  · next page hp =>
    have hpage := h.page page (by simp [hp, Producer.page?])
    split at hok <;> cases hok
    · refine { h with asked := by simp, page := ?_, scan := by simp }
      simpa [Producer.page?, Producer.held] using hpage.1
    · exact hload _
  · next page raw todo hp => exact absurd hp (h.scan page raw todo)
  · next page raw todo hp =>
    have hpage := h.page page (by simp [hp, Producer.page?])
    rw [hp] at hpage
    split at hok <;> cases hok
    refine { h with asked := by simp, page := ?_, scan := by simp }
    have htodo : ∀ e ∈ todo, page.checkpointLedger < e.ledger := fun e he =>
      hpage.2 e (List.mem_cons_of_mem _ he)
    simpa [Producer.page?, Producer.held] using ⟨hpage.1, htodo⟩
  · next page last hp =>
    have hpage := h.page page (by simp [hp, Producer.page?])
    cases hok
    refine { hload ⟨some last, none⟩ with checkpoint := ?_ }
    cases up with
    | true => exact hpage.1
    | false => exact h.checkpoint

theorem fetch {ids : List String} {latest : Nat} (hcalm : Calm s (.fetch ids latest))
    (hok : Indexer.fetch s ids latest = .ok s') : Below s' := by
  unfold Indexer.fetch at hok
  split at hok
  · next pos c hp =>
    simp only [Calm, hp] at hcalm
    split at hok <;> cases hok
    next hpage =>
      obtain ⟨hc, hunread⟩ := h.asked pos c hp
      refine { h with latest := hpage.2, asked := by simp, page := ?_, scan := by simp }
      have hheld : ∀ e ∈ s.deliver ids, c < e.ledger := fun e he =>
        hunread e (mem_deliver he) (hcalm e he)
      simpa [Producer.page?, Producer.held] using ⟨hc, hheld⟩
  · cases hok

theorem work {i : Nat} {up : Bool} (hok : Indexer.work σ s i up = .ok s') : Below s' := by
  unfold Indexer.work at hok
  split at hok
  · split at hok <;> cases hok
    exact { h with }
  · next e hw =>
    split at hok <;> cases hok
    · exact { h with checkpoint := by simpa [State.insert, Store.ledgerSequence] using h.checkpoint }
    · exact { h with }
  · split at hok <;> cases hok <;> exact { h with }
  · cases hok
    refine { h with checkpoint := ?_ }
    cases up <;> exact h.checkpoint
  · cases hok

theorem finalize {up : Bool} (hok : Indexer.finalize σ s up = .ok s') : Below s' := by
  have hbound := h.bound
  unfold Indexer.finalize at hok
  split at hok
  · cases hok
  · next b hf =>
    rw [hf] at hbound
    split at hok <;> cases hok
    · exact { h with bound := hbound }
    · exact { h with bound := Nat.zero_le _ }
  · next b row todo hf =>
    rw [hf] at hbound
    dsimp only at hok
    split at hok
    · split at hok <;> cases hok
      · exact { h with bound := hbound }
      · exact { h with bound := Nat.zero_le _ }
    · split at hok <;> cases hok
      · exact { h with bound := hbound }
      · exact { h with bound := Nat.zero_le _ }
  · next b e todo hf =>
    rw [hf] at hbound
    split at hok <;> cases hok
    · exact { h with bound := hbound }
    · exact { h with bound := Nat.zero_le _ }
  · next b hf =>
    rw [hf] at hbound
    cases hok
    refine { h with bound := hbound, checkpoint := ?_ }
    cases up with
    | true => exact Int.ofNat_le.mpr hbound
    | false => exact h.checkpoint
  · cases hok
    refine { h with bound := Nat.zero_le _, checkpoint := ?_ }
    cases up <;> exact h.checkpoint

theorem grow {events : List SorobanEvent} {head : Nat}
    (hok : Indexer.grow σ s events head = .ok s') : Below s' := by
  unfold Indexer.grow at hok
  split at hok <;> cases hok
  next hgrow =>
    have hhead : s.head ≤ max s.head head := le_max_left _ _
    refine
      { ledgers := fun e he => ?_
        latest := h.latest.trans hhead
        bound := h.bound.trans hhead
        checkpoint := h.checkpoint.trans (Int.ofNat_le.mpr hhead)
        asked := fun pos c hp => ?_
        page := fun page hp => ?_
        scan := h.scan }
    · rcases List.mem_append.mp he with he | he
      · exact h.ledgers e he
      · exact Nat.zero_lt_of_lt (hgrow.2 e he).1
    · obtain ⟨hc, hunread⟩ := h.asked pos c hp
      refine ⟨hc.trans (Int.ofNat_le.mpr hhead), fun e he hbefore => ?_⟩
      rcases List.mem_append.mp he with he | he
      · exact hunread e he hbefore
      · exact hc.trans_lt (Int.ofNat_lt.mpr (hgrow.2 e he).1)
    · obtain ⟨hc, hheld⟩ := h.page page hp
      exact ⟨hc.trans (Int.ofNat_le.mpr hhead), hheld⟩

/-- **The step lemma.** -/
theorem step {a : Step} (hcalm : Calm s a) (hread : ReadsBelow s a)
    (hok : Indexer.step σ s a = .ok s') : Below s' := by
  cases a with
  | produce up => exact h.produce hread hok
  | fetch ids latest => exact h.fetch hcalm hok
  | work i up => exact h.work hok
  | tick =>
    simp only [Indexer.step, tick] at hok
    split at hok
    · split at hok <;> cases hok
      exact { h with bound := (Nat.sub_le _ _).trans h.latest }
    · cases hok
  | finalize up => exact h.finalize hok
  | grow events head => exact h.grow hok
  | startReplay | fetchReplay | replay | fork | crash => exact hcalm.elim

end Below

/-- **No false re-org** in a run whose producer reads the checkpoint below what it has still to
fetch. -/
theorem no_false_reorg (workers : Nat) (tables : Tables) (steps : List Step)
    (h : Along (step σ) (fun s a => Calm s a ∧ ReadsBelow s a) (.new workers tables) steps) :
    ∀ bs, bs <+: steps → ∀ page raw todo,
      (run (step σ) (.new workers tables) bs).producer ≠ .rollback page raw todo := by
  rintro bs ⟨cs, rfl⟩
  have hrun := (Along.append.mp h).1
  exact (hrun.inv (fun s a s' hs ha hok => hs.step ha.1 ha.2 hok) (below_new workers tables)).scan

namespace Sample

def resale : SorobanEvent := ⟨"bb", 2, "payment", ["TicketTransferred"], .obj []⟩

/-- The first page has all events, and the finalizer moves the checkpoint above them. -/
def caughtUp : List Step :=
  [.grow [sale, resale] 20, .produce true, .produce true, .fetch ["a", "bb"] 20, .produce true,
    .produce true, .produce true, .produce true, .produce true, .produce true, .tick,
    .finalize true, .finalize true, .produce true, .fetch [] 20, .produce true]

/-- The same, but the first page has the first event only. -/
def backlog : List Step :=
  [.grow [sale, resale] 20, .produce true, .produce true, .fetch ["a"] 20, .produce true,
    .produce true, .produce true, .produce true, .tick, .finalize true, .finalize true,
    .produce true, .fetch ["bb"] 20, .produce true]

end Sample

open Sample in
theorem no_false_reorg_caughtUp :
    (let s := run (step setting) (.new 1 ⟨fun _ => none, []⟩) caughtUp
     checkpointLedger s = some 16 ∧ s.fetched = [sale, resale]) ∧
    ∀ bs, bs <+: caughtUp → ∀ page raw todo,
      (run (step setting) (.new 1 ⟨fun _ => none, []⟩) bs).producer ≠ .rollback page raw todo := by
  exact ⟨⟨rfl, rfl⟩, no_false_reorg 1 _ caughtUp (by decide)⟩

open Sample in
/-- The chain never forks, but the checkpoint passes the second event before it is fetched. -/
theorem false_reorg_backlog :
    Along (step setting) Calm (.new 1 ⟨fun _ => none, []⟩) backlog ∧ ∃ page,
    (run (step setting) (.new 1 ⟨fun _ => none, []⟩) backlog).producer = .rollback page resale [] :=
  ⟨by decide, _, rfl⟩

/-- The condition is needed: once the checkpoint has passed an event that was not fetched yet, a
page that starts with the event is rolled back. -/
theorem rollback_of_passed {pos : Position} {e : SorobanEvent} {latest : Nat}
    (hp : s.producer = .load pos) (he : s.deliver [e.id] = [e])
    (hpassed : (e.ledger : Int) ≤ s.store.ledgerSequence)
    (hfresh : s.store.bufferContains e.id e.ledger = false) (hlatest : latest ≤ s.head) :
    ∃ page, (run (step σ) s
      [.produce true, .fetch [e.id] latest, .produce true]).producer = .rollback page e [] := by
  let c := s.store.ledgerSequence
  let page : Page := ⟨pos, c, latest, some e.id⟩
  have hload : step σ s (.produce true) = .ok { s with producer := .fetch pos c } := by
    simp [step, produce, hp, c]
  have hfetch : step σ { s with producer := .fetch pos c } (.fetch [e.id] latest) = .ok { s with
      latestLedger := latest, producer := .check page [e], fetched := s.fetched ++ [e] } := by
    have hdeliver : State.deliver { s with producer := .fetch pos c } [e.id] = [e] := he
    simp [step, fetch, hdeliver, maxEventsPerPoll, hlatest, page]
  have hcheck : step σ { s with
        latestLedger := latest, producer := .check page [e], fetched := s.fetched ++ [e] }
      (.produce true) = .ok { s with
        latestLedger := latest, producer := .rollback page e [], fetched := s.fetched ++ [e] } := by
    simp [step, produce, page, c, hpassed, hfresh]
  refine ⟨page, ?_⟩
  rw [run_cons, commit_of_ok hload, run_cons, commit_of_ok hfetch, run_cons, commit_of_ok hcheck,
    run_nil]

end Agora.Indexer
