import Agora.Indexer.Trace

/-!
# Replaying a range of ledgers

`run_replay` of `services/indexer.rs`, from its first line to its last: it
fetches page after page from the start ledger on, parks each event and applies
those it parked, and leaves the loop by any of four conditions. It takes a page
that is not full for the last one, and the height of the chain for that of the
page. So an event is reached only if every page before it is full and was sent
while the chain was below the end of the range (`Reaches`).
-/

namespace Agora.Indexer

open Lib

inductive IndexerError where
  | http
  | rpc
  | rateLimited
  | noHealthyNode
  | database (e : DbError)
  | invalidRange (message : String)

/-- After these a replay tries again. -/
def IndexerError.retried : IndexerError → Bool
  | .noHealthyNode | .rateLimited | .rpc => true
  | _ => false

structure FetchedPage where
  events : List SorobanEvent
  latestLedger : Nat

/-! ## The event source -/

/-- All events in order, each under an id of its own. -/
structure EventSource where
  events : List SorobanEvent
  ordered : events.Pairwise fun a b => a.ledger ≤ b.ledger ∧ a.id ≠ b.id

/-- How far a page goes, and the height of the chain when it is sent. -/
structure PageReply where
  size : Nat
  latestLedger : Nat
  size_le : size ≤ maxEventsPerPoll

namespace EventSource

variable (source : EventSource)

def since (startLedger : Nat) : List SorobanEvent :=
  source.events.filter (startLedger ≤ ·.ledger)

/-- The events behind the one with the id of the cursor. -/
def after (cursor : Option String) (events : List SorobanEvent) : List SorobanEvent :=
  match cursor with
  | none => events
  | some id => (events.dropWhile (·.id ≠ id)).tail

def fetchPage (reply : Except IndexerError PageReply) (cursor : Option String)
    (startLedger : Nat) : Except IndexerError FetchedPage :=
  reply.map fun r => ⟨(after cursor (source.since startLedger)).take r.size, r.latestLedger⟩

end EventSource

/-! ## The replay -/

/-- The database and the local variables. `up` says of the commands to come whether the database
answers; `applied` is kept for the statements: the events applied so far. -/
structure ReplayState where
  store : Store
  applied : List IndexedEvent
  up : List Bool
  cursor : Option String
  started : Bool
  processed : Nat
  skipped : Nat

structure ReplaySummary where
  startLedger : Nat
  endLedger : Nat
  eventsProcessed : Nat
  skippedDuplicates : Nat
  deriving DecidableEq, Repr

namespace ReplayState

variable (σ : Setting) (s : ReplayState)

/-- Whether the next command is answered. -/
def answers : Bool := s.up.headD true

def next : ReplayState := { s with up := s.up.tail }

/-- `buffer_insert`: whether a row was inserted. -/
def bufferInsert (event : IndexedEvent) : Except IndexerError Bool × ReplayState :=
  if s.answers then
    (.ok (!s.store.buffer.any (·.id = event.id)),
      { s.next with store := s.store.bufferInsert event })
  else (.error (.database .unavailable), s.next)

def applyAndFinalize (event : IndexedEvent) : Except IndexerError Unit × ReplayState :=
  match if s.answers then applyEventState σ.db σ.config s.store.tables event
      else .error .unavailable with
  | .error e => (.error (.database e), s.next)
  | .ok tables =>
    let s := { s.next with store.tables := tables, applied := s.applied ++ [event] }
    if s.answers then (.ok (), { s.next with store := s.store.markFinalized event.id })
    else (.error (.database .unavailable), s.next)

/-- The cursor moves to the last event of the page. -/
def advance (events : List SorobanEvent) : ReplayState :=
  match events.getLast? with
  | some last => { s with cursor := some last.id }
  | none => s

@[simp] theorem advance_store (events : List SorobanEvent) :
    (s.advance events).store = s.store := by
  unfold advance
  split <;> rfl

@[simp] theorem advance_applied (events : List SorobanEvent) :
    (s.advance events).applied = s.applied := by
  unfold advance
  split <;> rfl

@[simp] theorem advance_started (events : List SorobanEvent) :
    (s.advance events).started = s.started := by
  unfold advance
  split <;> rfl

end ReplayState

section Replay

variable (σ : Setting) (source : EventSource) (startLedger endLedger : Nat)

/-- The events of a page; the result is `done`. -/
def replayEvents (latestLedger : Nat) :
    List SorobanEvent → ReplayState → Except IndexerError Bool × ReplayState
  | [], s => (.ok false, s)
  | raw :: todo, s =>
    if endLedger < raw.ledger then (.ok true, s)
    else
      let event := raw.decode σ.fromXdr latestLedger
      match ReplayState.bufferInsert { s with started := true } event with
      | (.error e, s) => (.error e, s)
      | (.ok true, s) =>
        match s.applyAndFinalize σ event with
        | (.error e, s) => (.error e, s)
        | (.ok (), s) => replayEvents latestLedger todo { s with processed := s.processed + 1 }
      | (.ok false, s) => replayEvents latestLedger todo { s with skipped := s.skipped + 1 }

/-- The loop, for what its calls of `fetch_page` get; without a further reply it still waits. -/
def replayLoop : List (Except IndexerError PageReply) → ReplayState →
    Option (Except IndexerError Unit × ReplayState)
  | [], _ => none
  | reply :: replies, s =>
    match source.fetchPage reply s.cursor startLedger with
    | .error e => if e.retried then replayLoop replies s else some (.error e, s)
    | .ok page =>
      match replayEvents σ endLedger page.latestLedger page.events s with
      | (.error e, s) => some (.error e, s)
      | (.ok done, s) =>
        let s := s.advance page.events
        if done ∨ page.events.length < maxEventsPerPoll ∨ endLedger ≤ page.latestLedger ∨
            s.started = false then
          some (.ok (), s)
        else replayLoop replies s

def runReplay (replies : List (Except IndexerError PageReply)) (s : ReplayState) :
    Option (Except IndexerError ReplaySummary × ReplayState) :=
  if startLedger = 0 then some (.error (.invalidRange "start_ledger must be >= 1"), s)
  else if endLedger < startLedger then
    some (.error (.invalidRange ("end_ledger (" ++ toString endLedger ++
      ") must be >= start_ledger (" ++ toString startLedger ++ ")")), s)
  else if maxReplayLedgers < endLedger - startLedger then
    some (.error (.invalidRange ("replay range exceeds the " ++ toString maxReplayLedgers ++
      " ledger limit")), s)
  else
    match replayLoop σ source startLedger endLedger replies
      { s with cursor := none, started := false, processed := 0, skipped := 0 } with
    | none => none
    | some (.error e, s) => some (.error e, s)
    | some (.ok (), s) =>
      if s.answers then
        some (.ok ⟨startLedger, endLedger, s.processed, s.skipped⟩,
          { s.next with store := s.store.save endLedger none })
      else some (.error (.database .unavailable), s.next)

end Replay

/-! ## What is reached -/

/-- Every page that ends before the `i`-th event is full, and comes with a chain that is below the
end of the range. -/
def Reaches (endLedger : Nat) : List PageReply → Nat → Prop
  | [], _ => True
  | page :: pages, i =>
    page.size ≤ i → page.size = maxEventsPerPoll ∧ page.latestLedger < endLedger ∧
      Reaches endLedger pages (i - page.size)

/-- The pages among the replies. -/
def pagesOf (replies : List (Except IndexerError PageReply)) : List PageReply :=
  replies.filterMap Except.toOption

/-- The ids in the buffer. -/
def Store.ids (d : Store) : List String := d.buffer.map (·.id)

/-- The ids of what was applied. -/
def ReplayState.appliedIds (s : ReplayState) : List String := s.applied.map (·.id)

/-- Between the two states the events were replayed. -/
structure Backfilled (taken : List SorobanEvent) (s s' : ReplayState) : Prop where
  ids : ∀ id, id ∈ s'.store.ids ↔ id ∈ s.store.ids ∨ id ∈ taken.map (·.id)
  applied : ∀ id, id ∈ s'.appliedIds ↔
    id ∈ s.appliedIds ∨ id ∈ taken.map (·.id) ∧ id ∉ s.store.ids

namespace Backfilled

variable {taken taken' : List SorobanEvent} {s s' s'' : ReplayState}

theorem same (hstore : s'.store = s.store) (happlied : s'.applied = s.applied) :
    Backfilled [] s s' := by
  constructor
  · simp [hstore]
  · simp [ReplayState.appliedIds, happlied]

/-- What was parked by the first half is a duplicate in the second. -/
theorem trans (h : Backfilled taken s s') (h' : Backfilled taken' s' s'') :
    Backfilled (taken ++ taken') s s'' := by
  constructor
  · intro id
    rw [h'.ids, h.ids, List.map_append, List.mem_append, or_assoc]
  · intro id
    rw [h'.applied, h.applied, h.ids, List.map_append, List.mem_append]
    tauto

end Backfilled

section Events

variable {σ : Setting} {endLedger latestLedger : Nat} {s s' : ReplayState} {event : IndexedEvent}

theorem ids_bufferInsert (d : Store) (id : String) :
    id ∈ (d.bufferInsert event).ids ↔ id ∈ d.ids ∨ id = event.id := by
  unfold Store.bufferInsert
  split
  · next hany =>
    obtain ⟨row, hrow, heq⟩ := List.any_eq_true.mp hany
    have hmem : event.id ∈ d.ids := List.mem_map.mpr ⟨row, hrow, of_decide_eq_true heq⟩
    constructor
    · exact .inl
    · rintro (h | rfl)
      · exact h
      · exact hmem
  · simp [Store.ids, IndexedEvent.row]

@[simp] theorem ids_markFinalized (d : Store) (id : String) : (d.markFinalized id).ids = d.ids := by
  unfold Store.ids Store.markFinalized
  rw [List.map_map]
  refine List.map_congr_left fun row _ => ?_
  simp only [Function.comp_apply]
  split <;> rfl

/-- A row was inserted, and the event was not there before, or it was. -/
theorem bufferInsert_ok {inserted : Bool} (h : s.bufferInsert event = (.ok inserted, s')) :
    (inserted = false ↔ event.id ∈ s.store.ids) ∧ s'.store = s.store.bufferInsert event ∧
      s'.applied = s.applied ∧ s'.cursor = s.cursor ∧ s'.started = s.started := by
  unfold ReplayState.bufferInsert at h
  split at h
  · obtain ⟨hins, rfl⟩ := Prod.mk.inj h
    obtain rfl := Except.ok.inj hins
    refine ⟨?_, rfl, rfl, rfl, rfl⟩
    rw [Bool.not_eq_false', List.any_eq_true, Store.ids, List.mem_map]
    simp only [decide_eq_true_eq]
  · cases (Prod.mk.inj h).1

theorem applyAndFinalize_ok (h : s.applyAndFinalize σ event = (.ok (), s')) :
    s'.store.ids = s.store.ids ∧ s'.applied = s.applied ++ [event] ∧ s'.cursor = s.cursor ∧
      s'.started = s.started := by
  unfold ReplayState.applyAndFinalize at h
  split at h
  · cases (Prod.mk.inj h).1
  · dsimp only at h
    split at h
    · obtain rfl := (Prod.mk.inj h).2
      exact ⟨ids_markFinalized _ _, rfl, rfl, rfl⟩
    · cases (Prod.mk.inj h).1

/-- **One event.** It is parked, and applied if it was not there. -/
theorem replayEvents_cons {raw : SorobanEvent} {todo : List SorobanEvent} {done : Bool}
    (hle : raw.ledger ≤ endLedger)
    (h : replayEvents σ endLedger latestLedger (raw :: todo) s = (.ok done, s')) :
    ∃ t : ReplayState, Backfilled [raw] s t ∧ t.cursor = s.cursor ∧ t.started = true ∧
      replayEvents σ endLedger latestLedger todo t = (.ok done, s') := by
  rw [replayEvents, if_neg (not_lt.mpr hle)] at h
  dsimp only at h
  have hid : (raw.decode σ.fromXdr latestLedger).id = raw.id := rfl
  split at h
  · cases (Prod.mk.inj h).1
  · next s₁ hins =>
    obtain ⟨hnew, hstore, happlied, hcursor, hstarted⟩ := bufferInsert_ok hins
    rw [hid] at hnew
    have hnew : raw.id ∉ s.store.ids := fun hmem => nomatch hnew.mpr hmem
    split at h
    · cases (Prod.mk.inj h).1
    · next s₂ happly =>
      obtain ⟨hids₂, happlied₂, hcursor₂, hstarted₂⟩ := applyAndFinalize_ok happly
      refine ⟨{ s₂ with processed := s₂.processed + 1 }, ⟨fun id => ?_, fun id => ?_⟩,
        hcursor₂.trans hcursor, hstarted₂.trans hstarted, h⟩
      · rw [hids₂, hstore, ids_bufferInsert, hid]
        simp
      · simp only [ReplayState.appliedIds, happlied₂, happlied, List.map_append, List.map_cons,
          List.map_nil, List.mem_append, List.mem_singleton, hid]
        refine or_congr_right ⟨?_, And.left⟩
        rintro rfl
        exact ⟨rfl, hnew⟩
  · next s₁ hins =>
    obtain ⟨hold, hstore, happlied, hcursor, hstarted⟩ := bufferInsert_ok hins
    have hold : raw.id ∈ s.store.ids := hold.mp rfl
    refine ⟨{ s₁ with skipped := s₁.skipped + 1 }, ⟨fun id => ?_, fun id => ?_⟩, hcursor, hstarted,
      h⟩
    · rw [hstore, ids_bufferInsert, hid]
      simp
    · simp only [ReplayState.appliedIds, happlied, List.map_cons, List.map_nil,
        List.mem_singleton]
      refine ⟨.inl, ?_⟩
      rintro (h | ⟨rfl, hno⟩)
      · exact h
      · exact absurd hold hno

/-- **One page.** The events up to the end of the range are replayed. -/
theorem replayEvents_ok {events : List SorobanEvent} {done : Bool}
    (hordered : events.Pairwise fun a b => a.ledger ≤ b.ledger)
    (h : replayEvents σ endLedger latestLedger events s = (.ok done, s')) :
    Backfilled (events.filter (·.ledger ≤ endLedger)) s s' ∧ s'.cursor = s.cursor ∧
      (done = true ↔ ∃ raw ∈ events, endLedger < raw.ledger) ∧
      ((s.started = true ∨ ∃ raw ∈ events, raw.ledger ≤ endLedger) → s'.started = true) := by
  induction events generalizing s with
  | nil =>
    obtain ⟨hdone, rfl⟩ := Prod.mk.inj h
    obtain rfl := Except.ok.inj hdone
    exact ⟨.same rfl rfl, rfl, by simp, by simp⟩
  | cons raw todo ih =>
    obtain ⟨hfirst, htodo⟩ := List.pairwise_cons.mp hordered
    by_cases hlt : endLedger < raw.ledger
    · rw [replayEvents, if_pos hlt] at h
      obtain ⟨hdone, rfl⟩ := Prod.mk.inj h
      obtain rfl := Except.ok.inj hdone
      have hall : ∀ e ∈ raw :: todo, endLedger < e.ledger := by
        intro e he
        rcases List.mem_cons.mp he with rfl | he
        · exact hlt
        · exact hlt.trans_le (hfirst e he)
      have hnone : (raw :: todo).filter (·.ledger ≤ endLedger) = [] := by
        rw [List.filter_eq_nil_iff]
        intro e he
        simpa using hall e he
      rw [hnone]
      refine ⟨.same rfl rfl, rfl, by simp [hlt], fun hstart => hstart.resolve_right ?_⟩
      rintro ⟨e, he, hle⟩
      exact absurd (hall e he) (not_lt.mpr hle)
    · have hle := not_lt.mp hlt
      obtain ⟨t, hraw, hcursor, hstarted, hrest⟩ := replayEvents_cons hle h
      obtain ⟨hback, hcursor', hdone, hstart⟩ := ih htodo hrest
      rw [List.filter_cons_of_pos (by simpa using hle)]
      refine ⟨hraw.trans hback, hcursor'.trans hcursor, ?_, fun _ => hstart (.inl hstarted)⟩
      rw [hdone]
      simp [hlt]

end Events

section Loop

variable {σ : Setting} {source : EventSource} {startLedger endLedger : Nat}

/-- The cursor of a page leads to what is behind the page. -/
theorem after_getLast {events pre page rest : List SorobanEvent} {last : SorobanEvent}
    (hids : events.Pairwise fun a b => a.id ≠ b.id) (heq : events = pre ++ (page ++ rest))
    (hlast : page.getLast? = some last) : EventSource.after (some last.id) events = rest := by
  obtain ⟨init, rfl⟩ := List.getLast?_eq_some_iff.mp hlast
  have hsplit : events = (pre ++ init) ++ last :: rest := by simp [heq]
  rw [hsplit] at hids ⊢
  have hno : ∀ e ∈ pre ++ init, e.id ≠ last.id := fun e he =>
    (List.pairwise_append.mp hids).2.2 e he last List.mem_cons_self
  rw [EventSource.after, List.dropWhile_append_of_pos (by simpa using hno),
    List.dropWhile_cons_of_neg (by simp)]
  rfl

/-- **The loop.** Of what is behind the cursor it replays the events of the range that it
reaches. -/
theorem replayLoop_ok {replies : List (Except IndexerError PageReply)} {s s' : ReplayState}
    {pre rest : List SorobanEvent} (hsource : source.since startLedger = pre ++ rest)
    (hcursor : EventSource.after s.cursor (source.since startLedger) = rest)
    (h : replayLoop σ source startLedger endLedger replies s = some (.ok (), s')) :
    ∃ n, Backfilled ((rest.take n).filter (·.ledger ≤ endLedger)) s s' ∧
      ∀ i e, rest[i]? = some e → e.ledger ≤ endLedger →
        (i < n ↔ Reaches endLedger (pagesOf replies) i) := by
  induction replies generalizing s pre rest with
  | nil => cases h
  | cons reply replies ih =>
    have hordered : (source.since startLedger).Pairwise fun a b => a.ledger ≤ b.ledger ∧ a.id ≠ b.id :=
      source.ordered.filter _
    rw [replayLoop, EventSource.fetchPage, hcursor] at h
    cases reply with
    | error e =>
      simp only [Except.map] at h
      split at h
      · exact ih hsource hcursor h
      · cases h
    | ok page =>
      have hpages : pagesOf (.ok page :: replies) = page :: pagesOf replies := rfl
      rw [hpages]
      simp only [Except.map] at h
      have hrest : rest.Pairwise fun a b => a.ledger ≤ b.ledger ∧ a.id ≠ b.id := by
        rw [hsource] at hordered
        exact (List.pairwise_append.mp hordered).2.1
      -- what is behind a page is not before what is on it
      have hbehind {i : Nat} {raw e : SorobanEvent} (hraw : raw ∈ rest.take page.size)
          (hi : rest[i]? = some e) (hsize : page.size ≤ i) : raw.ledger ≤ e.ledger := by
        rw [← List.take_append_drop page.size rest] at hrest
        refine ((List.pairwise_append.mp hrest).2.2 raw hraw e ?_).1
        rw [List.mem_iff_getElem?]
        exact ⟨i - page.size, by rw [List.getElem?_drop, Nat.add_sub_cancel' hsize, hi]⟩
      split at h
      · cases h
      · next done s₁ hevents =>
        obtain ⟨hback, hsame, hdone, hstart⟩ :=
          replayEvents_ok ((hrest.sublist (List.take_sublist _ _)).imp And.left) hevents
        have hback' := hback.trans (.same (s₁.advance_store (rest.take page.size))
          (s₁.advance_applied (rest.take page.size)))
        rw [List.append_nil] at hback'
        rw [ReplayState.advance_started] at h
        split at h
        · next hstop =>
          -- the loop is left
          obtain rfl := (Prod.mk.inj (Option.some.inj h)).2
          refine ⟨page.size, hback', fun i e hi hle => ⟨fun hlt hsize => absurd hlt (by omega), ?_⟩⟩
          intro hreaches
          by_contra hsize
          have hsize := not_lt.mp hsize
          obtain ⟨hfull, hlatest, -⟩ := hreaches hsize
          have hi' : i < rest.length := (List.getElem?_eq_some_iff.mp hi).1
          have hlen : (rest.take page.size).length = maxEventsPerPoll := by
            rw [List.length_take]
            omega
          obtain ⟨raw, hraw⟩ : ∃ raw, raw ∈ rest.take page.size :=
            List.exists_mem_of_length_pos (by rw [hlen]; decide)
          have hraw' := (hbehind hraw hi hsize).trans hle
          rcases hstop with hstop | hstop | hstop | hstop
          · obtain ⟨raw', hmem, hlt⟩ := hdone.mp hstop
            exact absurd ((hbehind hmem hi hsize).trans hle) (not_le.mpr hlt)
          · omega
          · omega
          · rw [hstart (.inr ⟨raw, hraw, hraw'⟩)] at hstop
            cases hstop
        · next hgo =>
          -- the page is full, and all of it is replayed
          simp only [not_or, not_lt, not_le] at hgo
          obtain ⟨hnot, hfull, hlatest, -⟩ := hgo
          have hsize : page.size = maxEventsPerPoll ∧
              (rest.take page.size).length = page.size := by
            have := page.size_le
            rw [List.length_take] at hfull ⊢
            omega
          have hne : rest.take page.size ≠ [] := by
            intro hnil
            rw [hnil] at hfull
            exact absurd hfull (by decide)
          have hsplit : source.since startLedger =
              pre ++ (rest.take page.size ++ rest.drop page.size) := by
            rw [List.take_append_drop, hsource]
          have hcursor' : EventSource.after (s₁.advance (rest.take page.size)).cursor
              (source.since startLedger) = rest.drop page.size := by
            have hlast := List.getLast?_eq_some_getLast hne
            rw [ReplayState.advance, hlast]
            exact after_getLast (hordered.imp And.right) hsplit hlast
          obtain ⟨n, hrestback, hn⟩ := ih (by rw [hsplit, List.append_assoc]) hcursor' h
          refine ⟨page.size + n, ?_, fun i e hi hle => ?_⟩
          · rw [List.take_add, List.filter_append]
            exact hback'.trans hrestback
          · rw [Reaches]
            by_cases hlt : i < page.size
            · exact ⟨fun _ hle => absurd hlt (not_lt.mpr hle), fun _ => by omega⟩
            · have hle' := not_lt.mp hlt
              have hi' : (rest.drop page.size)[i - page.size]? = some e := by
                rw [List.getElem?_drop, Nat.add_sub_cancel' hle', hi]
              have hiff := hn _ e hi' hle
              constructor
              · exact fun hi _ => ⟨hsize.1, hlatest, hiff.mp (by omega)⟩
              · intro hreaches
                have := hiff.mpr (hreaches hle').2.2
                omega

end Loop

/-- Every event of the range is in the buffer and has been applied. -/
def Complete (source : EventSource) (startLedger endLedger : Nat) (s : ReplayState) : Prop :=
  ∀ e ∈ source.events, startLedger ≤ e.ledger → e.ledger ≤ endLedger →
    e.id ∈ s.store.ids ∧ e.id ∈ s.appliedIds

theorem mem_taken (source : EventSource) (startLedger n : Nat) {endLedger i : Nat}
    {e : SorobanEvent} (hi : (source.since startLedger)[i]? = some e) (hle : e.ledger ≤ endLedger) :
    e.id ∈ (((source.since startLedger).take n).filter (·.ledger ≤ endLedger)).map (·.id) ↔
      i < n := by
  constructor
  · intro h
    obtain ⟨e', he', hid⟩ := List.mem_map.mp h
    obtain ⟨j, hj⟩ := List.mem_iff_getElem?.mp (List.mem_filter.mp he').1
    have hids : ((source.since startLedger).map (·.id)).Nodup := by
      rw [List.Nodup, List.pairwise_map]
      exact (source.ordered.imp And.right).filter _
    have hjn : j < n := by
      by_contra hno
      rw [List.getElem?_take, if_neg hno] at hj
      cases hj
    rw [List.getElem?_take_of_lt hjn] at hj
    -- ids are distinct, so the positions agree
    have hi' : ((source.since startLedger).map (·.id))[i]? = some e.id := by simp [hi]
    have hj' : ((source.since startLedger).map (·.id))[j]? = some e.id := by simp [hj, hid]
    have hlen := (List.getElem?_eq_some_iff.mp hi').1
    rwa [(List.getElem?_inj hlen hids).mp (hi'.trans hj'.symm)]
  · intro h
    refine List.mem_map_of_mem (List.mem_filter.mpr ⟨?_, decide_eq_true hle⟩)
    exact List.mem_iff_getElem?.mpr ⟨i, by rw [List.getElem?_take_of_lt h, hi]⟩

theorem runReplay_ok {σ : Setting} {source : EventSource} {startLedger endLedger : Nat}
    {replies : List (Except IndexerError PageReply)} {s s' : ReplayState} {summary : ReplaySummary}
    (h : runReplay σ source startLedger endLedger replies s = some (.ok summary, s')) :
    ∃ t : ReplayState, replayLoop σ source startLedger endLedger replies
        { s with cursor := none, started := false, processed := 0, skipped := 0 } =
          some (.ok (), t) ∧
      s'.store = t.store.save endLedger none ∧ s'.applied = t.applied := by
  rw [runReplay] at h
  split at h
  · cases h
  split at h
  · cases h
  split at h
  · cases h
  split at h
  · cases h
  · cases h
  · next t hloop =>
    split at h
    · obtain rfl := (Prod.mk.inj (Option.some.inj h)).2
      exact ⟨t, hloop, rfl, rfl⟩
    · cases (Prod.mk.inj (Option.some.inj h)).1

/-- **When a replay is complete.** Before the checkpoint is saved every event of the range is in
the buffer and applied, exactly if each of them was there and applied before the replay, or was not
there and is reached. -/
theorem replay_complete_iff (σ : Setting) (source : EventSource) (startLedger endLedger : Nat)
    (replies : List (Except IndexerError PageReply)) (s s' : ReplayState) (summary : ReplaySummary)
    (h : runReplay σ source startLedger endLedger replies s = some (.ok summary, s')) :
    ∃ t : ReplayState, s'.store = t.store.save endLedger none ∧ s'.applied = t.applied ∧
      (Complete source startLedger endLedger t ↔
        ∀ i e, (source.since startLedger)[i]? = some e → e.ledger ≤ endLedger →
          e.id ∈ s.store.ids ∧ e.id ∈ s.appliedIds ∨
            e.id ∉ s.store.ids ∧ Reaches endLedger (pagesOf replies) i) := by
  obtain ⟨t, hloop, hstore, happlied⟩ := runReplay_ok h
  refine ⟨t, hstore, happlied, ?_⟩
  obtain ⟨n, hback, hn⟩ := replayLoop_ok (List.nil_append (source.since startLedger)).symm rfl hloop
  -- event by event
  have hevent {i : Nat} {e : SorobanEvent} (hi : (source.since startLedger)[i]? = some e)
      (hle : e.ledger ≤ endLedger) :
      (e.id ∈ t.store.ids ∧ e.id ∈ t.appliedIds) ↔
        (e.id ∈ s.store.ids ∧ e.id ∈ s.appliedIds ∨
          e.id ∉ s.store.ids ∧ Reaches endLedger (pagesOf replies) i) := by
    have htaken := (mem_taken source startLedger n hi hle).trans (hn i e hi hle)
    rw [hback.ids, hback.applied, htaken]
    change (e.id ∈ s.store.ids ∨ _) ∧ (e.id ∈ s.appliedIds ∨ _ ∧ e.id ∉ s.store.ids) ↔ _
    tauto
  constructor
  · intro h i e hi hle
    have hmem : e ∈ source.since startLedger := List.mem_of_getElem? hi
    obtain ⟨hsource, hstart⟩ := List.mem_filter.mp hmem
    exact (hevent hi hle).mp (h e hsource (of_decide_eq_true hstart) hle)
  · intro h e hsource hstart hle
    have hmem : e ∈ source.since startLedger :=
      List.mem_filter.mpr ⟨hsource, decide_eq_true hstart⟩
    obtain ⟨i, hi⟩ := List.mem_iff_getElem?.mp hmem
    exact (hevent hi hle).mpr (h i e hi hle)

namespace Sample

/-- The `n`-th event, at ledger 5. -/
def nth (n : Nat) : SorobanEvent := ⟨toString n, 5, "registry", ["TicketCheckedIn"], .obj []⟩

theorem toString_inj {m n : Nat} (h : toString m = toString n) : m = n := by
  rw [Nat.toString_eq_ofList_toDigits, Nat.toString_eq_ofList_toDigits, String.ofList_inj] at h
  simpa using congrArg (Nat.ofDigitChars 10 · 0) h

theorem nth_ordered :
    ((List.range 101).map nth).Pairwise fun a b => a.ledger ≤ b.ledger ∧ a.id ≠ b.id := by
  refine List.pairwise_map.mpr (List.nodup_range.imp fun hne => ⟨le_rfl, fun heq => hne ?_⟩)
  exact toString_inj heq

/-- One event more than fits on a page. -/
def hundredOne : EventSource := ⟨(List.range 101).map nth, nth_ordered⟩

theorem two_ordered : [nth 1, nth 2].Pairwise fun a b => a.ledger ≤ b.ledger ∧ a.id ≠ b.id := by
  decide

def two : EventSource := ⟨[nth 1, nth 2], two_ordered⟩

/-- A page of any size, when the chain is at ledger 1000. -/
def reply (size : Nat) (h : size ≤ maxEventsPerPoll) : Except IndexerError PageReply :=
  .ok ⟨size, 1000, h⟩

def fresh : ReplayState := ⟨⟨none, [], ⟨fun _ => none, []⟩⟩, [], [], none, false, 0, 0⟩

/-- The second event is parked and not applied. -/
def parkedTwo : ReplayState :=
  { fresh with store := fresh.store.bufferInsert ((nth 2).decode setting.fromXdr 5) }

/-- The summary, and whether an event is stored and applied after a replay of ledgers 1 to 10. -/
def outcome (source : EventSource) (replies : List (Except IndexerError PageReply))
    (s : ReplayState) (n : Nat) : Option (Option ReplaySummary × Bool × Bool) :=
  (runReplay setting source 1 10 replies s).map fun x =>
    (x.1.toOption, decide (toString n ∈ x.2.store.ids), decide (toString n ∈ x.2.appliedIds))

theorem runReplay_of_outcome {source : EventSource} {s : ReplayState} {n : Nat}
    {replies : List (Except IndexerError PageReply)} {summary : ReplaySummary}
    {stored applied : Bool} (h : outcome source replies s n = some (some summary, stored, applied)) :
    ∃ s', runReplay setting source 1 10 replies s = some (.ok summary, s') ∧
      (toString n ∈ s'.store.ids ↔ stored = true) ∧
      (toString n ∈ s'.appliedIds ↔ applied = true) := by
  obtain ⟨⟨result, s'⟩, hrun, heq⟩ := Option.map_eq_some_iff.mp h
  simp only [Prod.mk.injEq] at heq
  obtain ⟨hresult, rfl, rfl⟩ := heq
  cases result with
  | error e => cases hresult
  | ok summary' =>
    obtain rfl := Option.some.inj hresult
    exact ⟨s', hrun, by simp, by simp⟩

end Sample

open Sample in
/-- Both events are on the one page. -/
theorem replay_complete_two :
    ∃ summary s', runReplay setting two 1 10 [reply 2 (by decide)] fresh =
        some (.ok summary, s') ∧
      ∃ t : ReplayState, s'.store = t.store.save 10 none ∧ Complete two 1 10 t := by
  have hout : outcome two [reply 2 (by decide)] fresh 2 =
      some (some ⟨1, 10, 2, 0⟩, true, true) := by decide
  obtain ⟨s', hrun, -⟩ := runReplay_of_outcome hout
  obtain ⟨t, hstore, -, hiff⟩ := replay_complete_iff setting two 1 10 _ fresh s' _ hrun
  refine ⟨_, s', hrun, t, hstore, hiff.mpr fun i e hi _ => .inr ⟨List.not_mem_nil, fun hsize => ?_⟩⟩
  have hlen : i < 2 := (List.getElem?_eq_some_iff.mp hi).1
  exact absurd hsize (not_le.mpr hlen)

open Sample in
/-- Of 101 events the last one is left out, and an event that waits in the buffer is not applied. -/
theorem replay_incomplete :
    (∃ summary s', runReplay setting hundredOne 1 10
        [reply 100 (by decide), reply 1 (by decide)] fresh = some (.ok summary, s') ∧
      nth 100 ∈ hundredOne.events ∧ (nth 100).id ∉ s'.store.ids) ∧
    ∃ summary s', runReplay setting two 1 10 [reply 2 (by decide)] parkedTwo =
        some (.ok summary, s') ∧ nth 2 ∈ two.events ∧ (nth 2).id ∉ s'.appliedIds := by
  have hlast : outcome hundredOne [reply 100 (by decide), reply 1 (by decide)] fresh 100 =
      some (some ⟨1, 10, 100, 0⟩, false, false) := by decide +kernel
  have hparked : outcome two [reply 2 (by decide)] parkedTwo 2 =
      some (some ⟨1, 10, 1, 1⟩, true, false) := by decide
  obtain ⟨s', hrun, hstored, -⟩ := runReplay_of_outcome hlast
  obtain ⟨t', hrun', -, happlied⟩ := runReplay_of_outcome hparked
  refine ⟨⟨_, s', hrun, List.mem_map_of_mem (by decide), fun h => ?_⟩,
    _, t', hrun', by simp [two], fun h => ?_⟩
  · exact nomatch hstored.mp h
  · exact nomatch happlied.mp h

end Agora.Indexer
