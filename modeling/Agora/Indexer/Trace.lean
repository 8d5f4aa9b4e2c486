import Agora.Indexer.Pipeline

/-!
# Where an event is

An event that was fetched is on its way to the buffer, stored there, applied, or
was dropped (`Traced`). A row that is marked as finalized was applied. So a
fetched event at or below the checkpoint is applied or stored exactly when no
checkpoint is written while such an event is on its way or dropped.
-/

namespace Agora.Indexer

open Lib

variable {σ : Setting} {s s' : State} {Q : Row → Prop}

/-! ## What the tasks hold -/

def SorobanEvent.row (σ : Setting) (e : SorobanEvent) : Row := (e.decode σ.fromXdr 0).row

/-- The row as it was inserted. -/
def Row.base (row : Row) : Row := { row with finalized := false }

def Worker.events : Worker → List IndexedEvent
  | .recv => []
  | .insert e | .apply e | .mark e => [e]

def Finalizer.todo : Finalizer → List Row
  | .rows _ todo | .mark _ _ todo => todo
  | _ => []

def Finalizer.events : Finalizer → List IndexedEvent
  | .mark _ e _ => [e]
  | _ => []

def Replay.todo : Replay → List SorobanEvent
  | .insert _ _ _ _ _ todo | .apply _ _ _ _ _ todo | .mark _ _ _ _ _ todo => todo
  | _ => []

def Replay.events : Replay → List IndexedEvent
  | .apply _ _ _ _ e _ | .mark _ _ _ _ e _ => [e]
  | _ => []

/-- All events, wherever they are, would be stored as rows that meet `Q`. -/
structure Everywhere (σ : Setting) (Q : Row → Prop) (s : State) : Prop where
  chain : ∀ e ∈ s.chain, Q (e.row σ)
  fetched : ∀ e ∈ s.fetched, Q (e.row σ)
  producer : ∀ e ∈ s.producer.held, Q (e.row σ)
  queue : ∀ e ∈ s.queue, Q e.row
  workers : ∀ w ∈ s.workers, ∀ e ∈ w.events, Q e.row
  sweep : ∀ row ∈ s.finalizer.todo, Q row.base
  finalizer : ∀ e ∈ s.finalizer.events, Q e.row
  pages : ∀ r ∈ s.replays, ∀ e ∈ r.todo, Q (e.row σ)
  replays : ∀ r ∈ s.replays, ∀ e ∈ r.events, Q e.row
  buffer : ∀ row ∈ s.store.buffer, Q row.base
  applied : ∀ e ∈ s.applied, Q e.row

theorem mem_deliver {ids : List String} {e : SorobanEvent} (h : e ∈ s.deliver ids) :
    e ∈ s.chain := by
  obtain ⟨id, -, hid⟩ := List.mem_filterMap.mp h
  exact List.mem_of_find?_eq_some hid

theorem forall_mem_set {α : Type} {l : List α} {P : α → Prop} (h : ∀ x ∈ l, P x) {i : Nat} {a : α}
    (ha : P a) : ∀ x ∈ l.set i a, P x := by
  intro x hx
  rcases List.mem_or_eq_of_mem_set hx with hx | rfl
  · exact h x hx
  · exact ha

namespace Store

variable {d : Store} {e : IndexedEvent} {row : Row}

theorem mem_bufferInsert (h : row ∈ (d.bufferInsert e).buffer) : row ∈ d.buffer ∨ row = e.row := by
  unfold bufferInsert at h
  split at h
  · exact .inl h
  · simpa using h

theorem mem_markFinalized {id : String} (h : row ∈ (d.markFinalized id).buffer) :
    ∃ old ∈ d.buffer, row.base = old.base ∧ (row = old ∨ old.id = id) := by
  obtain ⟨old, hold, rfl⟩ := List.mem_map.mp h
  refine ⟨old, hold, ?_⟩
  split
  · next hid => exact ⟨rfl, .inr hid⟩
  · exact ⟨rfl, .inl rfl⟩

theorem mem_pending {finalBound : Nat} (h : row ∈ d.pending finalBound) :
    row ∈ d.buffer ∧ row.finalized = false := by
  have hsort := List.mem_of_mem_take h
  rw [List.mem_insertionSort, List.mem_filter] at hsort
  simpa using ⟨hsort.1, (by simpa using hsort.2 : _ ∧ _).1⟩

end Store

/-! ## Events only move -/

/-- A property that a row keeps when it is read back. -/
def ReadsBack (σ : Setting) (Q : Row → Prop) : Prop :=
  ∀ (row : Row) (latest : Nat), Q row.base → Q (row.decode σ latest).row

namespace Everywhere

variable (h : Everywhere σ Q s)
include h

theorem produce {up : Bool} (hok : Indexer.produce σ s up = .ok s') : Everywhere σ Q s' := by
  unfold Indexer.produce at hok
  split at hok
  · cases hok
    exact { h with producer := by simp [Producer.held] }
  · cases hok
    exact { h with producer := by simp [Producer.held] }
  · cases hok
  · next page raw todo hp =>
    have hheld := h.producer
    rw [hp] at hheld
    split at hok <;> cases hok <;> exact { h with producer := hheld }
  · split at hok <;> cases hok <;> exact { h with producer := by simp [Producer.held] }
  · next page raw todo hp =>
    have hheld := h.producer
    rw [hp] at hheld
    split at hok <;> cases hok
    · exact { h with
        producer := by simp [Producer.held]
        buffer := fun row hrow => h.buffer row (List.mem_filter.mp hrow).1 }
    · exact { h with producer := hheld }
  · next page raw todo hp =>
    have hheld := h.producer
    rw [hp] at hheld
    split at hok <;> cases hok
    refine { h with producer := fun e he => hheld e (List.mem_cons_of_mem _ he), queue := ?_ }
    intro e he
    rcases List.mem_append.mp he with he | he
    · exact h.queue e he
    · obtain rfl := List.mem_singleton.mp he
      exact hheld raw List.mem_cons_self
  · cases hok
    refine { h with producer := by simp [Producer.held], buffer := ?_ }
    dsimp only
    split <;> exact h.buffer

theorem mono {Q' : Row → Prop} (hQ : ∀ row, Q row → Q' row) : Everywhere σ Q' s where
  chain e he := hQ _ (h.chain e he)
  fetched e he := hQ _ (h.fetched e he)
  producer e he := hQ _ (h.producer e he)
  queue e he := hQ _ (h.queue e he)
  workers w hw e he := hQ _ (h.workers w hw e he)
  sweep row hrow := hQ _ (h.sweep row hrow)
  finalizer e he := hQ _ (h.finalizer e he)
  pages r hr e he := hQ _ (h.pages r hr e he)
  replays r hr e he := hQ _ (h.replays r hr e he)
  buffer row hrow := hQ _ (h.buffer row hrow)
  applied e he := hQ _ (h.applied e he)

theorem fetch {ids : List String} {latest : Nat} (hok : Indexer.fetch s ids latest = .ok s') :
    Everywhere σ Q s' := by
  unfold Indexer.fetch at hok
  split at hok
  · split at hok <;> cases hok
    have hpage : ∀ e ∈ s.deliver ids, Q (e.row σ) := fun e he => h.chain e (mem_deliver he)
    refine { h with producer := hpage, fetched := ?_ }
    intro e he
    rcases List.mem_append.mp he with he | he
    · exact h.fetched e he
    · exact hpage e he
  · cases hok

theorem insert {e : IndexedEvent} (he : Q e.row) : Everywhere σ Q (s.insert e) :=
  { h with
    buffer := fun row hrow => by
      rcases Store.mem_bufferInsert hrow with hrow | rfl
      · exact h.buffer row hrow
      · exact he }

theorem apply (tables : Tables) {e : IndexedEvent} (he : Q e.row) :
    Everywhere σ Q (s.apply tables e) :=
  { h with
    applied := fun x hx => by
      rcases List.mem_append.mp hx with hx | hx
      · exact h.applied x hx
      · exact List.mem_singleton.mp hx ▸ he }

theorem markFinalized {id : String} :
    Everywhere σ Q { s with store := s.store.markFinalized id } :=
  { h with
    buffer := fun row hrow => by
      obtain ⟨old, hold, hbase, -⟩ := Store.mem_markFinalized hrow
      exact hbase ▸ h.buffer old hold }

theorem work {i : Nat} {up : Bool} (hok : Indexer.work σ s i up = .ok s') :
    Everywhere σ Q s' := by
  unfold Indexer.work at hok
  split at hok
  · split at hok
    · next e queue hq =>
      cases hok
      have hqueue := h.queue
      rw [hq] at hqueue
      exact { h with
        queue := fun x hx => hqueue x (List.mem_cons_of_mem _ hx)
        workers := forall_mem_set h.workers (by simpa [Worker.events] using hqueue e) }
    · cases hok
  · next e hw =>
    have he : Q e.row := h.workers _ (List.mem_of_getElem? hw) e (by simp [Worker.events])
    split at hok <;> cases hok
    · refine { h.insert he with workers := forall_mem_set h.workers ?_ }
      split_ifs <;> simp [Worker.events, he]
    · exact { h with workers := forall_mem_set h.workers (by simp [Worker.events]) }
  · next e hw =>
    have he : Q e.row := h.workers _ (List.mem_of_getElem? hw) e (by simp [Worker.events])
    split at hok <;> cases hok
    · exact { h.apply _ he with workers := forall_mem_set h.workers (by simp [Worker.events, he]) }
    · exact { h with workers := forall_mem_set h.workers (by simp [Worker.events]) }
  · cases hok
    refine { h with workers := forall_mem_set h.workers (by simp [Worker.events]), buffer := ?_ }
    dsimp only
    split
    · exact h.markFinalized.buffer
    · exact h.buffer
  · cases hok

theorem finalize {up : Bool} (hQ : ReadsBack σ Q) (hok : Indexer.finalize σ s up = .ok s') :
    Everywhere σ Q s' := by
  unfold Indexer.finalize at hok
  split at hok
  · cases hok
  · split at hok <;> cases hok
    · exact { h with
        sweep := fun row hrow => h.buffer row (Store.mem_pending hrow).1
        finalizer := by simp [Finalizer.events] }
    · exact { h with sweep := by simp [Finalizer.todo], finalizer := by simp [Finalizer.events] }
  · next b row todo hf =>
    have hsweep := h.sweep
    rw [hf] at hsweep
    have hrow := hQ row (b + σ.config.confirmations) (hsweep row List.mem_cons_self)
    have htodo : ∀ row ∈ todo, Q row.base := fun x hx => hsweep x (List.mem_cons_of_mem _ hx)
    have hidle : Everywhere σ Q { s with finalizer := .idle } :=
      { h with sweep := by simp [Finalizer.todo], finalizer := by simp [Finalizer.events] }
    dsimp only at hok
    split at hok
    · split at hok <;> cases hok
      · exact { h.markFinalized with
          sweep := htodo
          finalizer := by simp [Finalizer.events]
          applied := (h.apply s.store.tables hrow).applied }
      · exact hidle
    · split at hok <;> cases hok
      · exact { h.apply _ hrow with sweep := htodo, finalizer := by simp [Finalizer.events, hrow] }
      · exact hidle
  · next b e todo hf =>
    have hsweep := h.sweep
    rw [hf] at hsweep
    split at hok <;> cases hok
    · exact { h.markFinalized with sweep := hsweep, finalizer := by simp [Finalizer.events] }
    · exact { h with sweep := by simp [Finalizer.todo], finalizer := by simp [Finalizer.events] }
  · cases hok
    refine { h with
      sweep := by simp [Finalizer.todo], finalizer := by simp [Finalizer.events], buffer := ?_ }
    dsimp only
    split <;> exact h.buffer
  · cases hok
    refine { h with
      sweep := by simp [Finalizer.todo], finalizer := by simp [Finalizer.events], buffer := ?_ }
    dsimp only
    split
    · exact fun row hrow => h.buffer row (List.mem_filter.mp hrow).1
    · exact h.buffer

theorem fetchReplay {j latest : Nat} {ids : List String}
    (hok : Indexer.fetchReplay s j ids latest = .ok s') : Everywhere σ Q s' := by
  unfold Indexer.fetchReplay at hok
  split at hok
  · split at hok <;> cases hok
    exact { h with
      pages := forall_mem_set h.pages fun e he => h.chain e (mem_deliver he)
      replays := forall_mem_set h.replays (by simp [Replay.events]) }
  · cases hok

theorem replay {j : Nat} {up : Bool} (hok : Indexer.replay σ s j up = .ok s') :
    Everywhere σ Q s' := by
  have hdone : Everywhere σ Q { s with replays := s.replays.set j .done } :=
    { h with
      pages := forall_mem_set h.pages (by simp [Replay.todo])
      replays := forall_mem_set h.replays (by simp [Replay.events]) }
  unfold Indexer.replay at hok
  split at hok
  · next start stop page full started raw todo hr =>
    have hpage := h.pages _ (List.mem_of_getElem? hr)
    have hraw : Q (raw.row σ) := hpage raw List.mem_cons_self
    have htodo : ∀ e ∈ todo, Q (e.row σ) := fun e he => hpage e (List.mem_cons_of_mem _ he)
    split at hok
    · cases hok
      exact { h with
        pages := forall_mem_set h.pages (by simp [Replay.todo])
        replays := forall_mem_set h.replays (by simp [Replay.events]) }
    · split at hok <;> cases hok
      · refine { h.insert (e := raw.decode σ.fromXdr page.latest) hraw with
          pages := forall_mem_set h.pages ?_, replays := forall_mem_set h.replays ?_ }
        · split_ifs <;> exact htodo
        · split_ifs <;> simp only [Replay.events, List.mem_singleton, forall_eq, List.not_mem_nil,
            false_implies, implies_true]
          exact hraw
      · exact hdone
  · next start stop page full e todo hr =>
    have htodo := h.pages _ (List.mem_of_getElem? hr)
    have he : Q e.row := h.replays _ (List.mem_of_getElem? hr) e (by simp [Replay.events])
    split at hok <;> cases hok
    · exact { h.apply _ he with
        pages := forall_mem_set h.pages htodo
        replays := forall_mem_set h.replays (by simp [Replay.events, he]) }
    · exact hdone
  · next start stop page full e todo hr =>
    have htodo := h.pages _ (List.mem_of_getElem? hr)
    split at hok <;> cases hok
    · exact { h.markFinalized with
        pages := forall_mem_set h.pages htodo
        replays := forall_mem_set h.replays (by simp [Replay.events]) }
    · exact hdone
  · split at hok <;> cases hok <;>
      exact { h with
        pages := forall_mem_set h.pages (by simp [Replay.todo])
        replays := forall_mem_set h.replays (by simp [Replay.events]) }
  · cases hok
    refine { hdone with buffer := ?_ }
    dsimp only
    split <;> exact h.buffer
  · cases hok

theorem crash : Everywhere σ Q
    { s with
      latestLedger := 0, queue := [], producer := .boot
      workers := s.workers.map fun _ => .recv
      finalizer := .idle, replays := [], dropped := s.dropped ++ s.inFlight } :=
  { h with
    producer := by simp [Producer.held]
    queue := by simp
    workers := by simp [Worker.events]
    sweep := by simp [Finalizer.todo]
    finalizer := by simp [Finalizer.events]
    pages := by simp
    replays := by simp }

/-- **The step lemma.** -/
theorem step {a : Step} (hQ : ReadsBack σ Q)
    (hgrow : ∀ events head, a = .grow events head → ∀ e ∈ events, Q (e.row σ))
    (hok : Indexer.step σ s a = .ok s') : Everywhere σ Q s' := by
  cases a with
  | produce up => exact h.produce hok
  | fetch ids latest => exact h.fetch hok
  | work i up => exact h.work hok
  | tick =>
    simp only [Indexer.step, tick] at hok
    split at hok
    · split at hok <;> cases hok
      exact { h with sweep := by simp [Finalizer.todo], finalizer := by simp [Finalizer.events] }
    · cases hok
  | finalize up => exact h.finalize hQ hok
  | startReplay startLedger endLedger =>
    simp only [Indexer.step, startReplay] at hok
    split at hok <;> cases hok
    exact { h with
      pages := fun r hr => (List.mem_append.mp hr).elim (h.pages r) fun hr => by
        simp [List.mem_singleton.mp hr, Replay.todo]
      replays := fun r hr => (List.mem_append.mp hr).elim (h.replays r) fun hr => by
        simp [List.mem_singleton.mp hr, Replay.events] }
  | fetchReplay j ids latest => exact h.fetchReplay hok
  | replay j up => exact h.replay hok
  | grow events head =>
    simp only [Indexer.step, grow] at hok
    split at hok <;> cases hok
    exact { h with
      chain := fun e he => (List.mem_append.mp he).elim (h.chain e) (hgrow events head rfl e) }
  | fork forkLedger =>
    cases hok
    exact { h with
      chain := fun e he => h.chain e (List.mem_filter.mp he).1
      fetched := fun e he => h.fetched e (List.mem_filter.mp he).1 }
  | crash =>
    cases hok
    exact h.crash

end Everywhere

theorem everywhere_new (n : Nat) (tables : Tables) : Everywhere σ Q (.new n tables) := by
  constructor <;>
    simp [State.new, Producer.held, Finalizer.todo, Finalizer.events, Worker.events]

/-! ## Stored and applied -/

def Applied (s : State) (id : String) : Prop := ∃ e ∈ s.applied, e.id = id

/-- A row that the next sweep finds. -/
def Stored (s : State) (id : String) : Prop :=
  ∃ row ∈ s.store.buffer, row.id = id ∧ row.finalized = false

def Secured (s : State) (id : String) : Prop := Applied s id ∨ Stored s id

/-- What is marked as finalized was applied. -/
structure Marked (s : State) : Prop where
  rows : ∀ row ∈ s.store.buffer, row.finalized = true → Applied s row.id
  workers : ∀ e, .mark e ∈ s.workers → Applied s e.id
  finalizer : ∀ e ∈ s.finalizer.events, Applied s e.id
  replays : ∀ a b page full e todo, .mark a b page full e todo ∈ s.replays → Applied s e.id

theorem Applied.apply {id : String} {tables : Tables} {e : IndexedEvent} (h : Applied s id) :
    Applied (s.apply tables e) id := by
  obtain ⟨x, hx, hid⟩ := h
  exact ⟨x, List.mem_append_left _ hx, hid⟩

theorem applied_apply (tables : Tables) (e : IndexedEvent) : Applied (s.apply tables e) e.id :=
  ⟨e, List.mem_append_right _ (List.mem_singleton_self e), rfl⟩

/-- A row that is there already is stored, or it is marked and was applied. -/
theorem secured_insert (h : Marked s) (e : IndexedEvent) : Secured (s.insert e) e.id := by
  by_cases hrow : s.store.buffer.any (·.id = e.id)
  · obtain ⟨row, hmem, hid⟩ := List.any_eq_true.mp hrow
    have hid : row.id = e.id := by simpa using hid
    have hsame : (s.insert e).store = s.store := if_pos hrow
    cases hfin : row.finalized with
    | true => exact .inl (hid ▸ h.rows row hmem hfin)
    | false => exact .inr ⟨row, by rw [hsame]; exact hmem, hid, hfin⟩
  · refine .inr ⟨e.row, ?_, rfl, rfl⟩
    simp only [State.insert, Store.bufferInsert, if_neg hrow]
    exact List.mem_append_right _ (List.mem_singleton_self _)

theorem Secured.insert {id : String} (h : Secured s id) (e : IndexedEvent) :
    Secured (s.insert e) id := by
  refine h.imp_right ?_
  rintro ⟨row, hmem, hrow⟩
  refine ⟨row, ?_, hrow⟩
  simp only [State.insert, Store.bufferInsert]
  split
  · exact hmem
  · exact List.mem_append_left _ hmem

theorem Secured.apply {id : String} (h : Secured s id) (tables : Tables) (e : IndexedEvent) :
    Secured (s.apply tables e) id := h.imp_left Applied.apply

theorem Secured.markFinalized {id id' : String} (h : Secured s id) (happlied : Applied s id') :
    Secured { s with store := s.store.markFinalized id' } id := by
  rcases h with h | ⟨row, hmem, rfl, hfin⟩
  · exact .inl h
  · by_cases hid : row.id = id'
    · exact .inl (hid ▸ happlied)
    · refine .inr ⟨row, List.mem_map.mpr ⟨row, hmem, if_neg hid⟩, rfl, hfin⟩

theorem Stored.prune {id : String} (h : Stored s id) (n : Nat) :
    Stored { s with store := s.store.pruneWindow n } id := by
  obtain ⟨row, hmem, hid, hfin⟩ := h
  exact ⟨row, List.mem_filter.mpr ⟨hmem, by simp [hfin]⟩, hid, hfin⟩

namespace Marked

variable (h : Marked s)
include h

theorem insert (e : IndexedEvent) : Marked (s.insert e) :=
  { h with
    rows := fun row hrow hfin => by
      rcases Store.mem_bufferInsert hrow with hrow | rfl
      · exact h.rows row hrow hfin
      · cases hfin }

theorem apply (tables : Tables) (e : IndexedEvent) : Marked (s.apply tables e) where
  rows row hrow hfin := (h.rows row hrow hfin).apply
  workers x hx := (h.workers x hx).apply
  finalizer x hx := (h.finalizer x hx).apply
  replays a b page full x todo hx := (h.replays a b page full x todo hx).apply

theorem markFinalized {id : String} (happlied : Applied s id) :
    Marked { s with store := s.store.markFinalized id } :=
  { h with
    rows := fun row hrow hfin => by
      obtain ⟨old, hold, rfl⟩ := List.mem_map.mp hrow
      by_cases hid : old.id = id
      · rw [if_pos hid, hid]
        exact happlied
      · rw [if_neg hid] at hfin ⊢
        exact h.rows old hold hfin }

end Marked

/-! ## What a step does to an event -/

/-- On its way, stored, applied or dropped. -/
def Located (s : State) (id : String) : Prop := id ∈ s.inFlight ∨ Secured s id ∨ id ∈ s.dropped

/-- The ledger to which a step rolls back. -/
def rolledBack (s : State) : Step → Option Nat
  | .produce true =>
    match s.producer with
    | .rollback _ raw _ => some raw.ledger
    | _ => none
  | _ => none

/-- The ledger that a step writes to the checkpoint. -/
def written (s : State) : Step → Option Int
  | .produce true =>
    match s.producer with
    | .rollback _ raw _ => some (raw.ledger - 1)
    | .save page _ => some page.checkpointLedger
    | _ => none
  | .finalize true =>
    match s.finalizer with
    | .rows finalBound [] => some finalBound
    | _ => none
  | .replay j true =>
    match s.replays[j]? with
    | some (.save endLedger) => some endLedger
    | _ => none
  | _ => none

/-- The ledger of the stored checkpoint. -/
def checkpointLedger (s : State) : Option Int := s.store.checkpoint.map (·.ledgerSequence)

/-- What a step does to the events: they stay where they are or move on, and only a rollback
deletes a row that is not marked. -/
structure Moves (s : State) (a : Step) (s' : State) : Prop where
  marked : Marked s'
  located : ∀ id, Located s id → Located s' id
  secured : ∀ id, Secured s id → Secured s' id ∨ ∃ forkLedger, rolledBack s a = some forkLedger ∧
    ∃ row ∈ s.store.buffer, row.id = id ∧ forkLedger ≤ row.ledger
  checkpoint : checkpointLedger s' = (written s a).or (checkpointLedger s)

theorem mem_inFlight {id : String} : id ∈ s.inFlight ↔ (∃ e ∈ s.producer.held, e.id = id) ∨
    (∃ e ∈ s.queue, e.id = id) ∨ ∃ w ∈ s.workers, ∃ e ∈ w.held, e.id = id := by
  simp only [State.inFlight, List.mem_append, List.mem_map, List.mem_flatMap, or_assoc]
  constructor
  · rintro (h | h | ⟨e, ⟨w, hw, he⟩, hid⟩)
    · exact .inl h
    · exact .inr (.inl h)
    · exact .inr (.inr ⟨w, hw, e, he, hid⟩)
  · rintro (h | h | ⟨w, hw, e, he, hid⟩)
    · exact .inl h
    · exact .inr (.inl h)
    · exact .inr (.inr ⟨e, ⟨w, hw, he⟩, hid⟩)

/-- A worker keeps its place unless it is the one that moves. -/
theorem mem_set_or {α : Type} {l : List α} {i : Nat} {x a : α} (h : x ∈ l) :
    x ∈ l.set i a ∨ l[i]? = some x := by
  obtain ⟨k, hk, rfl⟩ := List.mem_iff_getElem.mp h
  by_cases hki : k = i
  · subst hki
    exact .inr (List.getElem?_eq_getElem hk)
  · left
    exact List.mem_iff_getElem.mpr ⟨k, by simpa using hk, by simp [Ne.symm hki]⟩

theorem inFlight_set {i : Nat} {w : Worker} (w' : Worker) {id : String} (hw : s.workers[i]? = some w)
    (hid : id ∈ s.inFlight) :
    id ∈ State.inFlight { s with workers := s.workers.set i w' } ∨ ∃ e ∈ w.held, e.id = id := by
  rw [mem_inFlight] at hid ⊢
  rcases hid with hp | hq | ⟨x, hx, hxe⟩
  · exact .inl (.inl hp)
  · exact .inl (.inr (.inl hq))
  · rcases mem_set_or (a := w') hx with hx | hx
    · exact .inl (.inr (.inr ⟨x, hx, hxe⟩))
    · rw [hw] at hx
      cases hx
      exact .inr hxe

section Moves

variable {a : Step} {id : String}

/-- A step that leaves the database and what is known of the events. -/
theorem moves_of_same (h : Marked s') (hstore : s'.store = s.store) (happlied : s'.applied = s.applied)
    (hdropped : ∀ id ∈ s.dropped, id ∈ s'.dropped)
    (hflight : ∀ id ∈ s.inFlight, id ∈ s'.inFlight ∨ id ∈ s'.dropped)
    (hwritten : written s a = none) : Moves s a s' where
  marked := h
  located id hid := by
    rcases hid with hid | hid | hid
    · exact (hflight id hid).imp_right .inr
    · refine .inr (.inl ?_)
      simpa only [Secured, Applied, Stored, hstore, happlied] using hid
    · exact .inr (.inr (hdropped id hid))
  secured id hid := .inl (by simpa only [Secured, Applied, Stored, hstore, happlied] using hid)
  checkpoint := by simp [checkpointLedger, hstore, hwritten]

/-- The database changes in a way that keeps the events secured. -/
theorem moves_of_secured (h : Marked s') (hlocated : ∀ id, id ∈ s.inFlight ∨ id ∈ s.dropped →
      id ∈ s'.inFlight ∨ Secured s' id ∨ id ∈ s'.dropped)
    (hsecured : ∀ id, Secured s id → Secured s' id)
    (hcheckpoint : checkpointLedger s' = (written s a).or (checkpointLedger s)) :
    Moves s a s' where
  marked := h
  located id hid := by
    rcases hid with hid | hid | hid
    · exact hlocated id (.inl hid)
    · exact .inr (.inl (hsecured id hid))
    · exact hlocated id (.inr hid)
  secured id hid := .inl (hsecured id hid)
  checkpoint := hcheckpoint

theorem moves_of_kept (h : Marked s') (hflight : ∀ id ∈ s.inFlight, id ∈ s'.inFlight)
    (hdropped : ∀ id ∈ s.dropped, id ∈ s'.dropped) (hsecured : ∀ id, Secured s id → Secured s' id)
    (hcheckpoint : checkpointLedger s' = (written s a).or (checkpointLedger s)) :
    Moves s a s' := by
  refine moves_of_secured h (fun id hid => ?_) hsecured hcheckpoint
  exact hid.imp (hflight id) fun hid => .inr (hdropped id hid)

theorem inFlight_producer {p : Producer} (h : ∀ e ∈ s.producer.held, e ∈ p.held)
    (hid : id ∈ s.inFlight) : id ∈ State.inFlight { s with producer := p } := by
  rw [mem_inFlight] at hid ⊢
  rcases hid with ⟨e, he, hid⟩ | hid
  · exact .inl ⟨e, h e he, hid⟩
  · exact .inr hid

/-- A rollback drops the rest of the page and the events from its ledger on. -/
theorem rollback_moves {page : Page} {raw : SorobanEvent} {todo : List SorobanEvent}
    (h : Marked s) (hp : s.producer = .rollback page raw todo)
    (hok : produce σ s true = .ok s') : Moves s (.produce true) s' := by
  simp only [produce, hp, if_true] at hok
  cases hok
  refine ⟨{ h with rows := fun row hrow => h.rows row (List.mem_filter.mp hrow).1 }, ?_, ?_, ?_⟩
  · rintro id (hid | (happlied | ⟨row, hrow, hid, hfin⟩) | hid)
    · rw [mem_inFlight] at hid
      rcases hid with ⟨e, he, rfl⟩ | hid
      · rw [hp] at he
        refine .inr (.inr (List.mem_append_left _ (List.mem_append_right _ ?_)))
        exact List.mem_map_of_mem he
      · exact .inl (mem_inFlight.mpr (.inr hid))
    · exact .inr (.inl (.inl happlied))
    · by_cases hlt : row.ledger < raw.ledger
      · refine .inr (.inl (.inr ⟨row, List.mem_filter.mpr ⟨hrow, ?_⟩, hid, hfin⟩))
        exact decide_eq_true hlt
      · refine .inr (.inr (List.mem_append_right _ ?_))
        refine List.mem_map.mpr ⟨row, List.mem_filter.mpr ⟨hrow, ?_⟩, hid⟩
        exact decide_eq_true (Nat.not_lt.mp hlt)
    · exact .inr (.inr (List.mem_append_left _ (List.mem_append_left _ hid)))
  · rintro id (happlied | ⟨row, hrow, hid, hfin⟩)
    · exact .inl (.inl happlied)
    · by_cases hlt : row.ledger < raw.ledger
      · refine .inl (.inr ⟨row, List.mem_filter.mpr ⟨hrow, ?_⟩, hid, hfin⟩)
        exact decide_eq_true hlt
      · exact .inr ⟨raw.ledger, by simp [rolledBack, hp], row, hrow, hid, Nat.not_lt.mp hlt⟩
  · simp [checkpointLedger, Store.rollbackTo, written, hp]

theorem send_moves {up : Bool} {page : Page} {raw : SorobanEvent} {todo : List SorobanEvent}
    (h : Marked s) (hp : s.producer = .send page raw todo) (hok : produce σ s up = .ok s') :
    Moves s (.produce up) s' := by
  have hwritten : written s (.produce up) = none := by cases up <;> simp [written, hp]
  simp only [produce, hp] at hok
  split at hok <;> cases hok
  refine moves_of_same { h with } rfl rfl (fun _ h => h) (fun id hid => .inl ?_) hwritten
  rw [mem_inFlight] at hid ⊢
  rcases hid with ⟨e, he, rfl⟩ | ⟨e, he, rfl⟩ | hid
  · rw [hp] at he
    rcases List.mem_cons.mp he with rfl | he
    · exact .inr (.inl ⟨_, List.mem_append_right _ (List.mem_singleton_self _), rfl⟩)
    · exact .inl ⟨e, he, rfl⟩
  · exact .inr (.inl ⟨e, List.mem_append_left _ he, rfl⟩)
  · exact .inr (.inr hid)

theorem produce_moves {up : Bool} (h : Marked s) (hok : produce σ s up = .ok s') :
    Moves s (.produce up) s' := by
  have hnext := hok
  unfold produce at hok
  split at hok
  · next hp =>
    cases hok
    refine moves_of_same { h with } rfl rfl (fun _ h => h)
      (fun id hid => .inl (inFlight_producer (by simp [hp, Producer.held]) hid)) ?_
    cases up <;> simp [written, hp]
  · next pos hp =>
    cases hok
    refine moves_of_same { h with } rfl rfl (fun _ h => h)
      (fun id hid => .inl (inFlight_producer (by simp [hp, Producer.held]) hid)) ?_
    cases up <;> simp [written, hp]
  · cases hok
  · next page raw todo hp =>
    have hwritten : written s (.produce up) = none := by cases up <;> simp [written, hp]
    split at hok <;> cases hok <;>
      exact moves_of_same { h with } rfl rfl (fun _ h => h)
        (fun id hid => .inl (inFlight_producer (by simp [hp, Producer.held]) hid)) hwritten
  · next page hp =>
    have hwritten : written s (.produce up) = none := by cases up <;> simp [written, hp]
    split at hok <;> cases hok <;>
      exact moves_of_same { h with } rfl rfl (fun _ h => h)
        (fun id hid => .inl (inFlight_producer (by simp [hp, Producer.held]) hid)) hwritten
  · next page raw todo hp =>
    split at hok
    · next hup =>
      subst hup
      exact rollback_moves h hp hnext
    · cases hok
      have hwritten : written s (.produce up) = none := by
        cases up with
        | true => exact absurd rfl ‹_›
        | false => rfl
      exact moves_of_same { h with } rfl rfl (fun _ h => h)
        (fun id hid => .inl (inFlight_producer (by simp [hp, Producer.held]) hid)) hwritten
  · next page raw todo hp =>
    exact send_moves h hp hnext
  · next page last hp =>
    cases hok
    cases up with
    | true =>
      refine moves_of_kept { h with }
        (fun id hid => inFlight_producer (by simp [hp, Producer.held]) hid) (fun _ h => h)
        (fun id hid => hid) ?_
      simp [checkpointLedger, Store.save, written, hp]
    | false =>
      exact moves_of_same { h with } rfl rfl (fun _ h => h)
        (fun id hid => .inl (inFlight_producer (by simp [hp, Producer.held]) hid)) rfl

theorem written_work {i : Nat} {up : Bool} : written s (.work i up) = none := by
  cases up <;> rfl

/-- A worker lets its event go or takes the next command of it. -/
theorem Marked.setWorker {i : Nat} {w : Worker} (h : Marked s)
    (hw : ∀ e, w = .mark e → Applied s e.id) :
    Marked { s with workers := s.workers.set i w } :=
  { h with
    workers := fun e he => by
      rcases List.mem_or_eq_of_mem_set he with he | he
      · exact h.workers e he
      · exact hw e he.symm }

theorem recv_moves {i : Nat} {up : Bool} (h : Marked s) (hw : s.workers[i]? = some .recv)
    (hok : work σ s i up = .ok s') : Moves s (.work i up) s' := by
  simp only [work, hw] at hok
  split at hok
  · next e queue hq =>
    cases hok
    refine moves_of_same { h.setWorker (w := .insert e) (by simp) with } rfl rfl (fun _ h => h)
      (fun id hid => .inl ?_) written_work
    rw [mem_inFlight] at hid ⊢
    rcases hid with hp | ⟨x, hx, hxid⟩ | ⟨w, hmem, x, hx, hxid⟩
    · exact .inl hp
    · rw [hq] at hx
      rcases List.mem_cons.mp hx with rfl | hx
      · have hlt := (List.getElem?_eq_some_iff.mp hw).1
        exact .inr (.inr ⟨.insert x, List.mem_iff_getElem.mpr ⟨i, by simpa using hlt, by simp⟩,
          x, List.mem_singleton_self x, hxid⟩)
      · exact .inr (.inl ⟨x, hx, hxid⟩)
    · rcases mem_set_or (a := .insert e) hmem with hmem | hmem
      · exact .inr (.inr ⟨w, hmem, x, hx, hxid⟩)
      · rw [hw] at hmem
        cases hmem
        simp [Worker.held] at hx
  · cases hok

theorem insert_moves {i : Nat} {up : Bool} {e : IndexedEvent} (h : Marked s)
    (hw : s.workers[i]? = some (.insert e)) (hok : work σ s i up = .ok s') :
    Moves s (.work i up) s' := by
  simp only [work, hw] at hok
  split at hok <;> cases hok
  · have hmarked : Marked (s.insert e) := h.insert e
    refine moves_of_secured { hmarked with workers := ?_ } (fun id hid => ?_)
      (fun id hid => hid.insert e) ?_
    · intro x hx
      rcases List.mem_or_eq_of_mem_set hx with hx | hx
      · exact h.workers x hx
      · split_ifs at hx
    · by_cases heq : id = e.id
      · exact .inr (.inl (heq ▸ secured_insert h e))
      · rcases hid with hid | hid
        · rcases inFlight_set _ hw hid with hid | ⟨x, hx, rfl⟩
          · exact .inl hid
          · obtain rfl := List.mem_singleton.mp hx
            exact absurd rfl heq
        · exact .inr (.inr (List.mem_filter.mpr ⟨hid, by simpa using heq⟩))
    · simp [checkpointLedger, State.insert, written_work]
  · refine moves_of_same { h.setWorker (w := .recv) (by simp) with } rfl rfl
      (fun _ h => List.mem_append_left _ h) (fun id hid => ?_) written_work
    rcases inFlight_set .recv hw hid with hid | ⟨x, hx, rfl⟩
    · exact .inl hid
    · obtain rfl := List.mem_singleton.mp hx
      exact .inr (List.mem_append_right _ (List.mem_singleton_self _))

theorem apply_moves {i : Nat} {up : Bool} {e : IndexedEvent} (h : Marked s)
    (hw : s.workers[i]? = some (.apply e)) (hok : work σ s i up = .ok s') :
    Moves s (.work i up) s' := by
  have hflight : ∀ (w : Worker) id, id ∈ s.inFlight →
      id ∈ State.inFlight { s with workers := s.workers.set i w } := fun w id hid =>
    (inFlight_set _ hw hid).elim (fun h => h) (by simp [Worker.held])
  simp only [work, hw] at hok
  split at hok <;> cases hok
  · next tables _ =>
    have hmarked := h.apply tables e
    refine moves_of_kept { hmarked with workers := ?_ } (hflight (.mark e)) (fun _ h => h)
      (fun id hid => hid.apply tables _) ?_
    · intro x hx
      rcases List.mem_or_eq_of_mem_set hx with hx | hx
      · exact hmarked.workers x hx
      · cases hx
        exact applied_apply tables e
    · simp [checkpointLedger, State.apply, written_work]
  · exact moves_of_same { h.setWorker (w := .recv) (by simp) with } rfl rfl (fun _ h => h)
      (fun id hid => .inl (hflight .recv id hid)) written_work

theorem mark_moves {i : Nat} {up : Bool} {e : IndexedEvent} (h : Marked s)
    (hw : s.workers[i]? = some (.mark e)) (hok : work σ s i up = .ok s') :
    Moves s (.work i up) s' := by
  have hflight : ∀ id, id ∈ s.inFlight →
      id ∈ State.inFlight { s with workers := s.workers.set i .recv } := fun id hid =>
    (inFlight_set _ hw hid).elim (fun h => h) (by simp [Worker.held])
  have hrecv : Marked { s with workers := s.workers.set i .recv } := h.setWorker (by simp)
  have happlied := h.workers e (List.mem_of_getElem? hw)
  simp only [work, hw] at hok
  cases hok
  cases up with
  | true =>
    exact moves_of_kept { hrecv.markFinalized happlied with }
      hflight (fun _ h => h) (fun id hid => hid.markFinalized happlied) rfl
  | false =>
    exact moves_of_same { hrecv with } rfl rfl (fun _ h => h)
      (fun id hid => .inl (hflight id hid)) rfl

theorem work_moves {i : Nat} {up : Bool} (h : Marked s) (hok : work σ s i up = .ok s') :
    Moves s (.work i up) s' := by
  cases hw : s.workers[i]? with
  | none =>
    simp only [work, hw] at hok
    cases hok
  | some w =>
    cases w with
    | recv => exact recv_moves h hw hok
    | insert => exact insert_moves h hw hok
    | apply => exact apply_moves h hw hok
    | mark => exact mark_moves h hw hok

theorem finalize_moves {up : Bool} (h : Marked s) (hok : finalize σ s up = .ok s') :
    Moves s (.finalize up) s' := by
  have hquiet : ∀ f : Finalizer, (∀ e ∈ f.events, Applied s e.id) →
      Marked { s with finalizer := f } := fun f hf => { h with finalizer := hf }
  unfold finalize at hok
  split at hok
  · cases hok
  · next b hf =>
    have hwritten : written s (.finalize up) = none := by cases up <;> simp [written, hf]
    split at hok <;> cases hok <;>
      exact moves_of_same (hquiet _ (by simp [Finalizer.events])) rfl rfl (fun _ h => h)
        (fun _ h => .inl h) hwritten
  · next b row todo hf =>
    have hwritten : written s (.finalize up) = none := by cases up <;> simp [written, hf]
    have hidle : Moves s (.finalize up) { s with finalizer := .idle } :=
      moves_of_same (hquiet _ (by simp [Finalizer.events])) rfl rfl (fun _ h => h)
        (fun _ h => .inl h) hwritten
    dsimp only at hok
    split at hok
    · split at hok <;> cases hok
      · -- an event of no kind counts as applied when its row is marked
        have hmarked := h.apply s.store.tables (row.decode σ (b + σ.config.confirmations))
        have happlied := applied_apply (s := s) s.store.tables
          (row.decode σ (b + σ.config.confirmations))
        refine moves_of_kept { hmarked.markFinalized happlied with finalizer := ?_ }
          (fun _ h => h) (fun _ h => h) (fun id hid => ?_) ?_
        · simp [Finalizer.events]
        · exact (hid.apply s.store.tables _).markFinalized happlied
        · simp [checkpointLedger, Store.markFinalized, hwritten]
      · exact hidle
    · split at hok <;> cases hok
      · next tables _ =>
        have hmarked := h.apply tables (row.decode σ (b + σ.config.confirmations))
        refine moves_of_kept { hmarked with finalizer := ?_ }
          (fun _ h => h) (fun _ h => h) (fun id hid => hid.apply tables _) ?_
        · intro e he
          obtain rfl := List.mem_singleton.mp he
          exact applied_apply tables _
        · simp [checkpointLedger, State.apply, hwritten]
      · exact hidle
  · next b e todo hf =>
    have hwritten : written s (.finalize up) = none := by cases up <;> simp [written, hf]
    have happlied := h.finalizer e (by simp [hf, Finalizer.events])
    split at hok <;> cases hok
    · refine moves_of_kept { h.markFinalized happlied with finalizer := ?_ }
        (fun _ h => h) (fun _ h => h) (fun id hid => hid.markFinalized happlied) ?_
      · simp [Finalizer.events]
      · simp [checkpointLedger, Store.markFinalized, hwritten]
    · exact moves_of_same (hquiet _ (by simp [Finalizer.events])) rfl rfl (fun _ h => h)
        (fun _ h => .inl h) hwritten
  · next b hf =>
    cases hok
    refine moves_of_kept { h with rows := ?_, finalizer := ?_ }
      (fun _ h => h) (fun _ h => h) (fun id hid => ?_) ?_
    · cases up <;> exact h.rows
    · simp [Finalizer.events]
    · cases up <;> exact hid
    · cases up <;> simp [checkpointLedger, Store.save, written, hf]
  · next b hf =>
    have hwritten : written s (.finalize up) = none := by cases up <;> simp [written, hf]
    cases hok
    refine moves_of_kept { h with rows := ?_, finalizer := ?_ }
      (fun _ h => h) (fun _ h => h) (fun id hid => ?_) ?_
    · cases up with
      | true => exact fun row hrow => h.rows row (List.mem_filter.mp hrow).1
      | false => exact h.rows
    · simp [Finalizer.events]
    · cases up with
      | true => exact hid.imp_right fun hid => hid.prune _
      | false => exact hid
    · cases up <;> simp [checkpointLedger, Store.pruneWindow, hwritten]

theorem replay_moves {j : Nat} {up : Bool} (h : Marked s) (hok : replay σ s j up = .ok s') :
    Moves s (.replay j up) s' := by
  have hset : ∀ {d : State} (r : Replay), Marked d →
      (∀ a b page full e todo, r = .mark a b page full e todo → Applied d e.id) →
      Marked { d with replays := d.replays.set j r } := fun r hd hr =>
    { hd with
      replays := fun a b page full e todo he => by
        rcases List.mem_or_eq_of_mem_set he with he | he
        · exact hd.replays a b page full e todo he
        · exact hr a b page full e todo he.symm }
  have hquiet : ∀ r : Replay, (∀ a b page full e todo, r ≠ .mark a b page full e todo) →
      written s (.replay j up) = none →
      Moves s (.replay j up) { s with replays := s.replays.set j r } := fun r hr hwritten =>
    moves_of_same (hset r h fun a b page full e todo he => absurd he (hr a b page full e todo))
      rfl rfl (fun _ h => h) (fun _ h => .inl h) hwritten
  unfold replay at hok
  split at hok
  · next start stop page full started raw todo hr =>
    have hwritten : written s (.replay j up) = none := by cases up <;> simp [written, hr]
    split at hok
    · cases hok
      exact hquiet _ (by simp) hwritten
    · split at hok <;> cases hok
      · let e := raw.decode σ.fromXdr page.latest
        refine moves_of_secured (hset (d := s.insert e) _ (h.insert e) ?_) (fun id hid => ?_)
          (fun id hid => hid.insert e) ?_
        · intro a b page' full' e' todo' he
          split_ifs at he
        · by_cases heq : id = e.id
          · exact .inr (.inl (heq ▸ secured_insert h e))
          · exact hid.imp (fun h => h) fun hid =>
              .inr (List.mem_filter.mpr ⟨hid, by simpa using heq⟩)
        · simp [checkpointLedger, State.insert, hwritten]
      · exact hquiet _ (by simp) hwritten
  · next start stop page full e todo hr =>
    have hwritten : written s (.replay j up) = none := by cases up <;> simp [written, hr]
    split at hok <;> cases hok
    · next tables _ =>
      refine moves_of_kept (hset (d := s.apply tables e) _ (h.apply tables e) ?_)
        (fun _ h => h) (fun _ h => h) (fun id hid => hid.apply tables _) ?_
      · intro a b page' full' e' todo' he
        cases he
        exact applied_apply tables e
      · simp [checkpointLedger, State.apply, hwritten]
    · exact hquiet _ (by simp) hwritten
  · next start stop page full e todo hr =>
    have hwritten : written s (.replay j up) = none := by cases up <;> simp [written, hr]
    have happlied := h.replays _ _ _ _ e _ (List.mem_of_getElem? hr)
    split at hok <;> cases hok
    · exact moves_of_kept (hset _ (h.markFinalized happlied) (by simp))
        (fun _ h => h) (fun _ h => h) (fun id hid => hid.markFinalized happlied)
        (by simp [checkpointLedger, Store.markFinalized, hwritten])
    · exact hquiet _ (by simp) hwritten
  · next start stop page full started hr =>
    have hwritten : written s (.replay j up) = none := by cases up <;> simp [written, hr]
    split at hok <;> cases hok <;> exact hquiet _ (by simp) hwritten
  · next stop hr =>
    have hdone := hset (d := s) .done h (by simp)
    cases hok
    cases up with
    | true =>
      refine moves_of_kept { hdone with } (fun _ h => h) (fun _ h => h)
        (fun id hid => hid) ?_
      simp [checkpointLedger, Store.save, written, hr]
    | false => exact hquiet _ (by simp) rfl
  · cases hok

theorem fetch_moves {ids : List String} {latest : Nat} (h : Marked s)
    (hok : fetch s ids latest = .ok s') : Moves s (.fetch ids latest) s' := by
  unfold fetch at hok
  split at hok
  · next pos checkpoint hp =>
    split at hok <;> cases hok
    exact moves_of_same { h with } rfl rfl (fun _ h => h)
      (fun id hid => .inl (inFlight_producer (by simp [hp, Producer.held]) hid)) rfl
  · cases hok

theorem fetchReplay_moves {j latest : Nat} {ids : List String} (h : Marked s)
    (hok : fetchReplay s j ids latest = .ok s') : Moves s (.fetchReplay j ids latest) s' := by
  unfold fetchReplay at hok
  split at hok
  · split at hok <;> cases hok
    refine moves_of_same { h with replays := ?_ } rfl rfl (fun _ h => h) (fun _ h => .inl h) rfl
    intro a b page full e todo he
    rcases List.mem_or_eq_of_mem_set he with he | he
    · exact h.replays a b page full e todo he
    · cases he
  · cases hok

/-- **The step lemma.** -/
theorem step_moves (h : Marked s) (hok : step σ s a = .ok s') : Moves s a s' := by
  cases a with
  | produce up => exact produce_moves h hok
  | fetch ids latest => exact fetch_moves h hok
  | work i up => exact work_moves h hok
  | tick =>
    simp only [step, tick] at hok
    split at hok
    · split at hok <;> cases hok
      exact moves_of_same { h with finalizer := by simp [Finalizer.events] } rfl rfl
        (fun _ h => h) (fun _ h => .inl h) rfl
    · cases hok
  | finalize up => exact finalize_moves h hok
  | startReplay startLedger endLedger =>
    simp only [step, startReplay] at hok
    split at hok <;> cases hok
    refine moves_of_same { h with replays := ?_ } rfl rfl (fun _ h => h) (fun _ h => .inl h) rfl
    intro a b page full e todo he
    rcases List.mem_append.mp he with he | he
    · exact h.replays a b page full e todo he
    · cases List.mem_singleton.mp he
  | fetchReplay j ids latest => exact fetchReplay_moves h hok
  | replay j up => exact replay_moves h hok
  | grow events head =>
    simp only [step, grow] at hok
    split at hok <;> cases hok
    exact moves_of_same { h with } rfl rfl (fun _ h => h) (fun _ h => .inl h) rfl
  | fork forkLedger =>
    cases hok
    exact moves_of_same { h with } rfl rfl (fun _ h => h) (fun _ h => .inl h) rfl
  | crash =>
    cases hok
    have hmarked : Marked { s with
        latestLedger := 0, queue := [], producer := .boot
        workers := s.workers.map fun _ => .recv
        finalizer := .idle, replays := [], dropped := s.dropped ++ s.inFlight } :=
      { h with workers := by simp, finalizer := by simp [Finalizer.events], replays := by simp }
    exact moves_of_same hmarked rfl rfl (fun _ h => List.mem_append_left _ h)
      (fun _ h => .inr (List.mem_append_right _ h)) rfl

end Moves

theorem marked_new (n : Nat) (tables : Tables) : Marked (.new n tables) := by
  constructor <;> simp [State.new, Finalizer.events]

/-! ## Runs -/

/-- The ledger of a row is the one its id names. -/
def Row.Named (σ : Setting) (row : Row) : Prop := row.ledger = σ.ledgerOf row.id

theorem named_readsBack : ReadsBack σ (Row.Named σ) := fun _ _ h => h

/-- What holds in every run. -/
structure Traced (σ : Setting) (s : State) : Prop where
  marked : Marked s
  named : Everywhere σ (Row.Named σ) s
  fetched : ∀ e ∈ s.fetched, Located s e.id

theorem traced_new (n : Nat) (tables : Tables) : Traced σ (.new n tables) :=
  ⟨marked_new n tables, everywhere_new n tables, by simp [State.new]⟩

/-- A step other than a fetch that touches neither the chain nor what was fetched of it. -/
def Step.isLocal : Step → Bool
  | .fetch .. | .grow .. | .fork _ => false
  | _ => true

theorem step_local {a : Step} (ha : a.isLocal) (hok : step σ s a = .ok s') :
    s'.chain = s.chain ∧ s'.fetched = s.fetched := by
  cases a with
  | produce up =>
    simp only [step, produce] at hok
    split at hok <;> (try split at hok) <;> cases hok <;> exact ⟨rfl, rfl⟩
  | work i up =>
    simp only [step, work] at hok
    split at hok <;> (try split at hok) <;> cases hok <;> exact ⟨rfl, rfl⟩
  | tick =>
    simp only [step, tick] at hok
    split at hok <;> (try split at hok) <;> cases hok
    exact ⟨rfl, rfl⟩
  | finalize up =>
    simp only [step, finalize] at hok
    split at hok <;> (try split at hok) <;> (try split at hok) <;> cases hok <;> exact ⟨rfl, rfl⟩
  | startReplay startLedger endLedger =>
    simp only [step, startReplay] at hok
    split at hok <;> cases hok
    exact ⟨rfl, rfl⟩
  | fetchReplay j ids latest =>
    simp only [step, fetchReplay] at hok
    split at hok <;> (try split at hok) <;> cases hok
    exact ⟨rfl, rfl⟩
  | replay j up =>
    simp only [step, replay] at hok
    split at hok <;> (try split at hok) <;> (try split at hok) <;> cases hok <;> exact ⟨rfl, rfl⟩
  | crash =>
    cases hok
    exact ⟨rfl, rfl⟩
  | fetch | grow | fork => cases ha

theorem mem_fetched {a : Step} {e : SorobanEvent} (hok : step σ s a = .ok s')
    (he : e ∈ s'.fetched) : e ∈ s.fetched ∨
      e.id ∈ s'.inFlight ∧ ∃ ids latest, a = .fetch ids latest ∧ e ∈ s.deliver ids := by
  cases a with
  | fetch ids latest =>
    simp only [step, fetch] at hok
    split at hok
    · split at hok <;> cases hok
      refine (List.mem_append.mp he).imp_right fun he => ⟨?_, ids, latest, rfl, he⟩
      exact mem_inFlight.mpr (.inl ⟨e, he, rfl⟩)
    · cases hok
  | grow events head =>
    simp only [step, grow] at hok
    split at hok <;> cases hok
    exact .inl he
  | fork forkLedger =>
    cases hok
    exact .inl (List.mem_filter.mp he).1
  | _ => exact .inl ((step_local rfl hok).2 ▸ he)

theorem Traced.step {a : Step} (h : Traced σ s) (hok : step σ s a = .ok s') : Traced σ s' := by
  have hmoves := step_moves h.marked hok
  refine ⟨hmoves.marked, h.named.step named_readsBack ?_ hok, fun e he => ?_⟩
  · rintro events head rfl e he
    simp only [Indexer.step, grow] at hok
    split at hok
    · next hgrow => exact (hgrow.2 e he).2.2
    · cases hok
  · rcases mem_fetched hok he with he | ⟨hid, -⟩
    · exact hmoves.located e.id (h.fetched e he)
    · exact .inl hid

/-- Every fetched event at or below the checkpoint is applied, or stored for the next sweep. -/
def Kept (s : State) : Prop :=
  ∀ v, checkpointLedger s = some v → ∀ e ∈ s.fetched, (e.ledger : Int) ≤ v → Secured s e.id

/-- A checkpoint is not moved to or past the ledger of an event that is on its way or was dropped,
and a page does not start below it, duplicates of what is stored or applied apart. -/
structure Guarded (s : State) (a : Step) : Prop where
  write : ∀ v, written s a = some v → ∀ e ∈ s.fetched, (e.ledger : Int) ≤ v →
    e.id ∈ s.inFlight ∨ e.id ∈ s.dropped → Secured s e.id
  page : ∀ ids latest, a = .fetch ids latest → ∀ v, checkpointLedger s = some v →
    ∀ e ∈ s.deliver ids, (e.ledger : Int) ≤ v → Secured s e.id

/-- A step that writes the checkpoint stores and applies nothing. -/
theorem secured_of_written {a : Step} {v : Int} (id : String) (hok : step σ s a = .ok s')
    (hv : written s a = some v) : s'.fetched = s.fetched ∧ (Secured s' id → Secured s id) := by
  cases a with
  | produce up =>
    cases up with
    | false => cases hv
    | true =>
      cases hp : s.producer <;> simp only [written, hp, reduceCtorEq] at hv
      · simp only [step, produce, hp] at hok
        cases hok
        refine ⟨rfl, Or.imp_right ?_⟩
        rintro ⟨row, hrow, hid⟩
        exact ⟨row, (List.mem_filter.mp hrow).1, hid⟩
      · simp only [step, produce, hp] at hok
        cases hok
        exact ⟨rfl, fun h => h⟩
  | finalize up =>
    cases up with
    | false => cases hv
    | true =>
      cases hf : s.finalizer with
      | rows b todo =>
        cases todo with
        | nil =>
          simp only [step, finalize, hf] at hok
          cases hok
          exact ⟨rfl, fun h => h⟩
        | cons row todo => simp [written, hf] at hv
      | _ => simp [written, hf] at hv
  | replay j up =>
    cases up with
    | false => cases hv
    | true =>
      cases hr : s.replays[j]? with
      | none => simp [written, hr] at hv
      | some r =>
        cases r with
        | save stop =>
          simp only [step, replay, hr] at hok
          cases hok
          exact ⟨rfl, fun h => h⟩
        | _ => simp [written, hr] at hv
  | _ => cases hv

/-- A rollback writes the ledger before the one to which it rolls back. -/
theorem written_of_rolledBack {a : Step} {L : Nat} (h : rolledBack s a = some L) :
    written s a = some ((L : Int) - 1) := by
  unfold rolledBack at h
  split at h
  · cases hp : s.producer <;> simp only [hp, reduceCtorEq] at h
    cases h
    simp [written, hp]
  · cases h

/-- **The step lemma** for what is at or below the checkpoint. -/
theorem Kept.step {a : Step} (h : Traced σ s) (hkept : Kept s) (hg : Guarded s a)
    (hok : Indexer.step σ s a = .ok s') : Kept s' := by
  have hmoves := step_moves h.marked hok
  intro v hv e he hle
  rw [hmoves.checkpoint] at hv
  cases hw : written s a with
  | some w =>
    rw [hw] at hv
    cases hv
    rw [(secured_of_written e.id hok hw).1] at he
    have hsecured : Secured s e.id := by
      rcases h.fetched e he with hid | hid | hid
      · exact hg.write v hw e he hle (.inl hid)
      · exact hid
      · exact hg.write v hw e he hle (.inr hid)
    rcases hmoves.secured e.id hsecured with hid | ⟨L, hL, row, hrow, hid, hlow⟩
    · exact hid
    · -- a row that is rolled back is above the checkpoint
      have hledger : row.ledger = e.ledger :=
        (h.named.buffer row hrow).trans (hid ▸ (h.named.fetched e he).symm)
      rw [written_of_rolledBack hL] at hw
      cases hw
      omega
  | none =>
    rw [hw, Option.none_or] at hv
    have hsecured : Secured s e.id := by
      rcases mem_fetched hok he with he | ⟨-, ids, latest, rfl, he⟩
      · exact hkept v hv e he hle
      · exact hg.page ids latest rfl v hv e he hle
    rcases hmoves.secured e.id hsecured with hid | ⟨L, hL, -⟩
    · exact hid
    · rw [written_of_rolledBack hL] at hw
      cases hw

/-- The condition is needed: what a checkpoint passes is not secured by the step. -/
theorem Guarded.of_kept {a : Step} (h : Traced σ s) (hok : Indexer.step σ s a = .ok s')
    (hkept : Kept s') : Guarded s a := by
  have hcheckpoint := (step_moves h.marked hok).checkpoint
  constructor
  · intro v hv e he hle _
    obtain ⟨hfetched, hsecured⟩ := secured_of_written e.id hok hv
    rw [hv] at hcheckpoint
    exact hsecured (hkept v hcheckpoint e (hfetched ▸ he) hle)
  · rintro ids latest rfl v hv e he hle
    simp only [Indexer.step, fetch] at hok
    split at hok
    · split at hok <;> cases hok
      exact hkept v hv e (List.mem_append_right _ he) hle
    · cases hok

/-- **No event is lost** in a run exactly when every step of it is guarded. -/
theorem event_kept_iff (workers : Nat) (tables : Tables) (steps : List Step) :
    (∀ bs, bs <+: steps → Kept (run (step σ) (.new workers tables) bs)) ↔
      Along (step σ) Guarded (.new workers tables) steps := by
  refine Along.iff_forall_prefix (I := fun s => Traced σ s ∧ Kept s) ?_ (fun s h => h.2) ?_ ?_
  · exact fun s a s' h hg hok => ⟨h.1.step hok, h.2.step h.1 hg hok⟩
  · exact fun s a s' h hok hkept => .of_kept h.1 hok hkept
  · exact ⟨traced_new workers tables, by simp [Kept, checkpointLedger, State.new]⟩

namespace Sample

/-- Four ledgers are final late, and the payloads are plain. -/
def setting : Setting where
  fromXdr _ := none
  db := ⟨fun _ => none, fun _ => none, fun _ => false⟩
  config := ⟨"payment", "registry", 0, 100, 4⟩
  ledgerOf id := id.length

/-- The id has one letter, so the event is of ledger 1. -/
def sale : SorobanEvent := ⟨"a", 1, "payment", ["PaymentProcessed"], .obj []⟩

/-- The chain is at ledger 20 when the sale is fetched and queued, and the finalizer moves the
checkpoint before a worker takes the sale. -/
def queued : List Step :=
  [.grow [sale] 20, .produce true, .produce true, .fetch ["a"] 20, .produce true, .produce true,
    .tick, .finalize true, .finalize true]

/-- The process restarts. -/
def restarted : List Step := queued ++ [.crash, .produce true]

end Sample

open Sample in
/-- The queued sale is neither stored nor applied, and after a restart the producer goes on above
it. -/
theorem event_lost_queued :
    ¬ Kept (run (step setting) (.new 2 ⟨fun _ => none, []⟩) queued) ∧
      (let s := run (step setting) (.new 2 ⟨fun _ => none, []⟩) restarted
       ¬ Kept s ∧ s.inFlight = [] ∧ s.producer = .load ⟨none, some 17⟩) := by
  have hlost : ∀ s : State, checkpointLedger s = some 16 → sale ∈ s.fetched → s.applied = [] →
      s.store.buffer = [] → ¬ Kept s := by
    intro s hv hmem happlied hbuffer hkept
    rcases hkept 16 hv sale hmem (by decide) with ⟨e, he, -⟩ | ⟨row, hrow, -⟩
    · simp [happlied] at he
    · simp [hbuffer] at hrow
  refine ⟨hlost _ rfl (List.mem_singleton_self _) rfl rfl,
    hlost _ rfl (List.mem_singleton_self _) rfl rfl, rfl, rfl⟩

end Agora.Indexer
