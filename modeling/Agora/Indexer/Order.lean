import Agora.Indexer.Trace
import Agora.Lib.Reorder
import Mathlib.Data.List.TakeWhile

/-!
# The order of application

The workers, the finalizer and the replays apply events in any order. When each
event is applied once and after the events that are before it on the chain and
change the same rows, the tables are those that the events give in the order of
the chain (`InOrder`). A fork keeps this as long as no event of its ledgers has
been applied: a rollback deletes rows of the buffer only.
-/

namespace Agora.Indexer

open Lib
open scoped List

variable {σ : Setting} {s s' : State} {t₀ : Tables} {m l : List SorobanEvent}

/-- What an event of the chain changes. -/
def Setting.change (σ : Setting) (c : SorobanEvent) : Change :=
  Indexer.change σ.db σ.config (c.decode σ.fromXdr c.ledger)

/-- The events are applied one after the other. -/
def applyAll (σ : Setting) (l : List SorobanEvent) (t : Tables) : Tables :=
  l.foldl (fun t c => effect σ.db σ.config (c.decode σ.fromXdr c.ledger) t) t

theorem applyAll_eq (t : Tables) :
    applyAll σ l t = l.foldl (fun t c => (σ.change c).apply t) t := by
  simp only [applyAll, effect_eq]
  rfl

theorem applyAll_filter {p : SorobanEvent → Prop} [DecidablePred p]
    (h : ∀ c ∈ l, p c ∨ σ.change c = .nothing) (t : Tables) :
    applyAll σ (l.filter p) t = applyAll σ l t := by
  simp only [applyAll_eq]
  induction l generalizing t with
  | nil => rfl
  | cons c l ih =>
    have hrest := ih fun x hx => h x (List.mem_cons_of_mem c hx)
    by_cases hc : p c
    · rw [List.filter_cons_of_pos (by simpa using hc), List.foldl_cons, List.foldl_cons, hrest]
    · have hnothing := (h c List.mem_cons_self).resolve_left hc
      rw [List.filter_cons_of_neg (by simpa using hc), List.foldl_cons, hnothing, hrest]
      rfl

/-! ## The chain -/

def Ascending (l : List SorobanEvent) : Prop :=
  l.Pairwise fun a b => a.id < b.id ∧ a.ledger ≤ b.ledger

namespace Ascending

variable (h : Ascending l)
include h

theorem nodup_ids : (l.map (·.id)).Nodup :=
  List.pairwise_map.mpr (h.imp fun hab => ne_of_lt hab.1)

theorem eq_of_id {a b : SorobanEvent} (ha : a ∈ l) (hb : b ∈ l) (hid : a.id = b.id) : a = b :=
  List.inj_on_of_nodup_map h.nodup_ids ha hb hid

theorem mem_takeWhile {x c : SorobanEvent} (hxc : [x, c] <+ l) :
    x ∈ l.takeWhile (·.id ≠ c.id) := by
  induction l with
  | nil => cases hxc
  | cons y l ih =>
    obtain ⟨hfirst, hrest⟩ := List.pairwise_cons.mp h
    have hkeep (hc : c ∈ l) : y.id ≠ c.id := ne_of_lt (hfirst c hc).1
    cases hxc with
    | cons _ hxc =>
      rw [List.takeWhile_cons, if_pos (by simpa using hkeep (snd_mem_of_pair hxc))]
      exact List.mem_cons_of_mem y (ih hrest hxc)
    | cons_cons _ hc =>
      rw [List.takeWhile_cons, if_pos (by simpa using hkeep (List.singleton_sublist.mp hc))]
      exact List.mem_cons_self

end Ascending

/-! ## What a step applies -/

/-- The event, if its statement succeeds. -/
def attempt (σ : Setting) (s : State) (e : IndexedEvent) : Option IndexedEvent :=
  (applyEventState σ.db σ.config s.store.tables e).toOption.map fun _ => e

def applying (σ : Setting) (s : State) : Step → Option IndexedEvent
  | .work i true =>
    match s.workers[i]? with
    | some (.apply e) => attempt σ s e
    | _ => none
  | .finalize true =>
    match s.finalizer with
    | .rows b (row :: _) =>
      let e := row.decode σ (b + σ.config.confirmations)
      if e.kind = .unhandled then some e else attempt σ s e
    | _ => none
  | .replay j true =>
    match s.replays[j]? with
    | some (.apply _ _ _ _ e _) => attempt σ s e
    | _ => none
  | _ => none

instance {id : String} : Decidable (Applied s id) := by unfold Applied; infer_instance

/-- What a step does to the tables and the applied events. -/
def Applies (σ : Setting) (s s' : State) : Option IndexedEvent → Prop
  | some e => s'.chain = s.chain ∧ s'.applied = s.applied ++ [e] ∧
      s'.store.tables = (change σ.db σ.config e).apply s.store.tables
  | none => s'.applied = s.applied ∧ s'.store.tables = s.store.tables

theorem change_unhandled {db : Database} {config : IndexerConfig} {e : IndexedEvent}
    (h : e.kind = .unhandled) : change db config e = .nothing := by
  simp [change, h]

theorem applies_of_ok {e : IndexedEvent} {tables : Tables}
    (h : applyEventState σ.db σ.config s.store.tables e = .ok tables) :
    attempt σ s e = some e ∧ tables = (change σ.db σ.config e).apply s.store.tables := by
  refine ⟨by simp [attempt, h, Except.toOption], ?_⟩
  rw [← effect_eq, effect, h]

theorem attempt_of_error {e : IndexedEvent} {err : DbError}
    (h : applyEventState σ.db σ.config s.store.tables e = .error err) : attempt σ s e = none := by
  simp [attempt, h, Except.toOption]

theorem applies_of_frame {a : Step} (h : applying σ s a = none) (happlied : s'.applied = s.applied)
    (htables : s'.store.tables = s.store.tables) : Applies σ s s' (applying σ s a) := by
  rw [h]
  exact ⟨happlied, htables⟩

theorem work_applies {i : Nat} {up : Bool} (hok : work σ s i up = .ok s') :
    Applies σ s s' (applying σ s (.work i up)) := by
  unfold work at hok
  split at hok
  · next hw =>
    have hnone : applying σ s (.work i up) = none := by cases up <;> simp [applying, hw]
    split at hok <;> cases hok
    exact applies_of_frame hnone rfl rfl
  · next e hw =>
    have hnone : applying σ s (.work i up) = none := by cases up <;> simp [applying, hw]
    split at hok <;> cases hok
    · exact applies_of_frame hnone rfl (Store.bufferInsert_tables _ e)
    · exact applies_of_frame hnone rfl rfl
  · next e hw =>
    cases up with
    | false => cases hok; exact ⟨rfl, rfl⟩
    | true =>
      simp only [if_true] at hok
      split at hok <;> cases hok
      · next tables htables =>
        obtain ⟨hattempt, heq⟩ := applies_of_ok htables
        simp only [applying, hw, hattempt]
        exact ⟨rfl, rfl, heq⟩
      · next err herr =>
        simp only [applying, hw, attempt_of_error herr]
        exact ⟨rfl, rfl⟩
  · next e hw =>
    cases hok
    cases up with
    | true => simp only [applying, hw]; exact ⟨rfl, rfl⟩
    | false => exact ⟨rfl, rfl⟩
  · cases hok

theorem finalize_applies {up : Bool} (hok : finalize σ s up = .ok s') :
    Applies σ s s' (applying σ s (.finalize up)) := by
  unfold finalize at hok
  split at hok
  · cases hok
  · next b hf =>
    have hnone : applying σ s (.finalize up) = none := by cases up <;> simp [applying, hf]
    split at hok <;> cases hok <;> exact applies_of_frame hnone rfl rfl
  · next b row todo hf =>
    dsimp only at hok
    cases up with
    | false => split at hok <;> cases hok <;> exact ⟨rfl, rfl⟩
    | true =>
      simp only [applying, hf]
      split at hok
      · next hkind =>
        cases hok
        rw [if_pos hkind]
        exact ⟨rfl, rfl, by rw [change_unhandled hkind]; rfl⟩
      · next hkind =>
        rw [if_neg hkind]
        simp only [if_true] at hok
        split at hok <;> cases hok
        · next tables htables =>
          obtain ⟨hattempt, heq⟩ := applies_of_ok htables
          rw [hattempt]
          exact ⟨rfl, rfl, heq⟩
        · next err herr =>
          rw [attempt_of_error herr]
          exact ⟨rfl, rfl⟩
  · next b e todo hf =>
    have hnone : applying σ s (.finalize up) = none := by cases up <;> simp [applying, hf]
    split at hok <;> cases hok <;> exact applies_of_frame hnone rfl rfl
  · next b hf =>
    have hnone : applying σ s (.finalize up) = none := by cases up <;> simp [applying, hf]
    cases hok
    cases up <;> exact applies_of_frame hnone rfl rfl
  · next b hf =>
    have hnone : applying σ s (.finalize up) = none := by cases up <;> simp [applying, hf]
    cases hok
    cases up <;> exact applies_of_frame hnone rfl rfl

theorem replay_applies {j : Nat} {up : Bool} (hok : replay σ s j up = .ok s') :
    Applies σ s s' (applying σ s (.replay j up)) := by
  unfold replay at hok
  split at hok
  · next hr =>
    have hnone : applying σ s (.replay j up) = none := by cases up <;> simp [applying, hr]
    split at hok
    · cases hok
      exact applies_of_frame hnone rfl rfl
    · split at hok <;> cases hok
      · exact applies_of_frame hnone rfl (Store.bufferInsert_tables _ _)
      · exact applies_of_frame hnone rfl rfl
  · next start stop page full e todo hr =>
    cases up with
    | false => cases hok; exact ⟨rfl, rfl⟩
    | true =>
      simp only [if_true] at hok
      split at hok <;> cases hok
      · next tables htables =>
        obtain ⟨hattempt, heq⟩ := applies_of_ok htables
        simp only [applying, hr, hattempt]
        exact ⟨rfl, rfl, heq⟩
      · next err herr =>
        simp only [applying, hr, attempt_of_error herr]
        exact ⟨rfl, rfl⟩
  · next hr =>
    have hnone : applying σ s (.replay j up) = none := by cases up <;> simp [applying, hr]
    split at hok <;> cases hok <;> exact applies_of_frame hnone rfl rfl
  · next hr =>
    have hnone : applying σ s (.replay j up) = none := by cases up <;> simp [applying, hr]
    split at hok <;> cases hok <;> exact applies_of_frame hnone rfl rfl
  · next hr =>
    have hnone : applying σ s (.replay j up) = none := by cases up <;> simp [applying, hr]
    cases hok
    cases up <;> exact applies_of_frame hnone rfl rfl
  · cases hok

/-- **The step lemma** for the tables. -/
theorem step_applies {a : Step} (hok : step σ s a = .ok s') :
    Applies σ s s' (applying σ s a) := by
  cases a with
  | work i up => exact work_applies hok
  | finalize up => exact finalize_applies hok
  | replay j up => exact replay_applies hok
  | produce up =>
    simp only [step, produce] at hok
    split at hok <;> (try split at hok) <;> cases hok <;> cases up <;> exact ⟨rfl, rfl⟩
  | fetch ids latest =>
    simp only [step, fetch] at hok
    split at hok <;> (try split at hok) <;> cases hok
    exact ⟨rfl, rfl⟩
  | tick =>
    simp only [step, tick] at hok
    split at hok <;> (try split at hok) <;> cases hok
    exact ⟨rfl, rfl⟩
  | startReplay startLedger endLedger =>
    simp only [step, startReplay] at hok
    split at hok <;> cases hok
    exact ⟨rfl, rfl⟩
  | fetchReplay j ids latest =>
    simp only [step, fetchReplay] at hok
    split at hok <;> (try split at hok) <;> cases hok
    exact ⟨rfl, rfl⟩
  | grow events head =>
    simp only [step, grow] at hok
    split at hok <;> cases hok
    exact ⟨rfl, rfl⟩
  | fork | crash =>
    cases hok
    exact ⟨rfl, rfl⟩

theorem step_chain {a : Step} (hok : step σ s a = .ok s') : s'.chain = s.chain ∨
    (∃ events, s'.chain = s.chain ++ events ∧ Ascending s'.chain) ∨
    ∃ forkLedger, a = .fork forkLedger ∧ s'.chain = s.chain.filter (·.ledger < forkLedger) := by
  cases a with
  | grow events head =>
    simp only [step, grow] at hok
    split at hok <;> cases hok
    next hgrow => exact .inr (.inl ⟨events, rfl, hgrow.1⟩)
  | fork forkLedger =>
    cases hok
    exact .inr (.inr ⟨forkLedger, rfl, rfl⟩)
  | fetch ids latest =>
    simp only [step, fetch] at hok
    split at hok <;> (try split at hok) <;> cases hok
    exact .inl rfl
  | _ => exact .inl (step_local rfl hok).1

/-! ## The invariant -/

/-- The ids of the events that were applied since this one was. -/
def appliedSince (s : State) (id : String) : List String :=
  (s.applied.dropWhile (·.id ≠ id)).map (·.id)

/-- An event is applied as the event of the chain that has its id, after the events that are
before it on the chain and conflict with it, and once more only when no event that conflicts with
it was applied since. -/
structure InTurn (σ : Setting) (s : State) (e : IndexedEvent) : Prop where
  same : ∀ c ∈ s.chain, c.id = e.id → σ.change c = change σ.db σ.config e
  after : ∀ c ∈ s.chain.takeWhile (·.id ≠ e.id),
    (σ.change c).Conflicts (change σ.db σ.config e) → Applied s c.id
  again : ∀ c ∈ s.chain, c.id ∈ appliedSince s e.id → c.id ≠ e.id →
    ¬ (change σ.db σ.config e).Conflicts (σ.change c)

instance {e : IndexedEvent} : Decidable (InTurn σ s e) :=
  decidable_of_iff
    ((∀ c ∈ s.chain, c.id = e.id → σ.change c = change σ.db σ.config e) ∧
      (∀ c ∈ s.chain.takeWhile fun x : SorobanEvent => x.id ≠ e.id,
        (σ.change c).Conflicts (change σ.db σ.config e) → Applied s c.id) ∧
      ∀ c ∈ s.chain, c.id ∈ appliedSince s e.id → c.id ≠ e.id →
        ¬ (change σ.db σ.config e).Conflicts (σ.change c))
    ⟨fun h => ⟨h.1, h.2.1, h.2.2⟩, fun h => ⟨h.same, h.after, h.again⟩⟩

/-- The tables are those of the events `m` of the chain, which were first applied in this order. -/
structure InOrder (σ : Setting) (t₀ : Tables) (s : State) (m : List SorobanEvent) : Prop where
  ascending : Ascending s.chain
  order : Reorders (fun a b => (σ.change a).Conflicts (σ.change b)) s.chain m
  ids : ∀ id, Applied s id ↔ id ∈ m.map (·.id)
  since : ∀ x y, [x, y] <+ m → y.id ∈ appliedSince s x.id
  tables : s.store.tables = m.foldl (fun t c => (σ.change c).apply t) t₀

theorem inOrder_new (n : Nat) : InOrder σ t₀ (.new n t₀) [] where
  ascending := .nil
  order := .nil
  ids _ := by simp [Applied, State.new]
  since x y h := absurd (fst_mem_of_pair h) List.not_mem_nil
  tables := rfl

section Since

variable {e : IndexedEvent} {id : String}

theorem applied_concat (happlied : s'.applied = s.applied ++ [e]) :
    Applied s' id ↔ Applied s id ∨ e.id = id := by
  simp [Applied, happlied, or_and_right, exists_or]

theorem appliedSince_concat (happlied : s'.applied = s.applied ++ [e]) (hid : Applied s id) :
    appliedSince s' id = appliedSince s id ++ [e.id] := by
  obtain ⟨x, hx, hxid⟩ := hid
  unfold appliedSince
  rw [happlied, List.dropWhile_append, if_neg]
  · simp
  · intro hnil
    have hnil : s.applied.dropWhile (·.id ≠ id) = [] := by simpa using hnil
    simpa [hxid] using List.dropWhile_eq_nil_iff.mp hnil x hx

theorem mem_appliedSince_self (happlied : s'.applied = s.applied ++ [e]) :
    e.id ∈ appliedSince s' e.id := by
  by_cases hid : Applied s e.id
  · rw [appliedSince_concat happlied hid]
    exact List.mem_append_right _ (List.mem_singleton_self _)
  · unfold appliedSince
    rw [happlied, List.dropWhile_append, if_pos]
    · simp
    · simpa [Applied, List.dropWhile_eq_nil_iff] using hid

end Since

namespace InOrder

variable (h : InOrder σ t₀ s m)
include h

theorem applied_iff {c : SorobanEvent} (hc : c ∈ s.chain) : Applied s c.id ↔ c ∈ m := by
  rw [h.ids]
  refine ⟨fun hid => ?_, List.mem_map_of_mem⟩
  obtain ⟨x, hx, hxid⟩ := List.mem_map.mp hid
  exact h.ascending.eq_of_id (h.order.subset hx) hc hxid ▸ hx

/-- **Order.** The tables are those of the applied events, applied in the order of the chain. -/
theorem tables_eq : s.store.tables = applyAll σ (s.chain.filter (Applied s ·.id)) t₀ := by
  classical
  have hfilter : s.chain.filter (Applied s ·.id) = s.chain.filter (· ∈ m) :=
    List.filter_congr fun c hc => by simp [h.applied_iff hc]
  rw [h.tables, applyAll_eq, hfilter]
  refine h.order.foldl_eq (fun x y hxy t => ?_) (List.Nodup.of_map _ h.ascending.nodup_ids) t₀
  exact Change.apply_comm hxy t

variable {e : IndexedEvent} {c : SorobanEvent} (hc : c ∈ s.chain) (hid : c.id = e.id)
  (hturn : InTurn σ s e) (hchain : s'.chain = s.chain) (happlied : s'.applied = s.applied ++ [e])
  (htables : s'.store.tables = (change σ.db σ.config e).apply s.store.tables)
include hc hid hturn hchain happlied htables

theorem concat (hnew : ¬ Applied s e.id) : InOrder σ t₀ s' (m ++ [c]) where
  ascending := hchain ▸ h.ascending
  order := by
    rw [hchain]
    refine h.order.concat hc (fun hm => hnew ?_) fun x hx hconflict => ?_
    · exact hid ▸ (h.applied_iff hc).mpr hm
    · have hx' := h.ascending.mem_takeWhile hx
      rw [hid] at hx'
      rw [hturn.same c hc hid] at hconflict
      exact (h.applied_iff (fst_mem_of_pair hx)).mp (hturn.after x hx' hconflict)
  ids id := by
    rw [applied_concat happlied, h.ids]
    simp [hid, eq_comm]
  since x y hxy := by
    by_cases hy : y = c
    · subst hy
      rcases List.mem_append.mp (fst_mem_of_pair hxy) with hx | hx
      · rw [appliedSince_concat happlied ((h.applied_iff (h.order.subset hx)).mpr hx), hid]
        exact List.mem_append_right _ (List.mem_singleton_self _)
      · rw [List.mem_singleton.mp hx, hid]
        exact mem_appliedSince_self happlied
    · have hpair := pair_sublist_concat hy hxy
      have hx := fst_mem_of_pair hpair
      rw [appliedSince_concat happlied ((h.applied_iff (h.order.subset hx)).mpr hx)]
      exact List.mem_append_left _ (h.since x y hpair)
  tables := by simp [htables, h.tables, hturn.same c hc hid]

theorem again (hold : Applied s e.id) : InOrder σ t₀ s' m where
  ascending := hchain ▸ h.ascending
  order := hchain ▸ h.order
  ids id := by
    rw [applied_concat happlied, ← h.ids]
    refine or_iff_left_of_imp ?_
    rintro rfl
    exact hold
  since x y hxy := by
    have hx := fst_mem_of_pair hxy
    rw [appliedSince_concat happlied ((h.applied_iff (h.order.subset hx)).mpr hx)]
    exact List.mem_append_left _ (h.since x y hxy)
  tables := by
    have hm : c ∈ m := (h.applied_iff hc).mp (hid ▸ hold)
    have hnodup := h.order.nodup
    have hsubset := h.order.subset
    have hsince := h.since
    rw [htables, h.tables, ← hturn.same c hc hid]
    obtain ⟨l₁, l₂, rfl⟩ := List.append_of_mem hm
    refine foldl_again (f := fun t c => (σ.change c).apply t) (fun t => Change.apply_apply t)
      (fun y hy t => ?_) t₀
    have hychain : y ∈ s.chain := hsubset (by simp [hy])
    have hne : y.id ≠ e.id := fun hyid => by
      have heq := h.ascending.eq_of_id hychain hc (hyid.trans hid.symm)
      exact (List.nodup_cons.mp hnodup.of_append_right).1 (heq ▸ hy)
    have hpair : [c, y] <+ l₁ ++ c :: l₂ :=
      ((List.singleton_sublist.mpr hy).cons_cons c).trans (List.sublist_append_right l₁ _)
    have hclear := hturn.again y hychain (hid ▸ hsince c y hpair) hne
    rw [← hturn.same c hc hid] at hclear
    exact Change.apply_comm hclear t

omit hc hid hturn hchain happlied htables

/-- **The step lemma.** -/
theorem step {a : Step} (hturn : ∀ e ∈ applying σ s a, InTurn σ s e ∧ ∃ c ∈ s.chain, c.id = e.id)
    (hfork : ∀ forkLedger, a = .fork forkLedger →
      ∀ c ∈ s.chain, Applied s c.id → c.ledger < forkLedger)
    (hok : Indexer.step σ s a = .ok s') : ∃ m', InOrder σ t₀ s' m' := by
  have happlies := step_applies hok
  cases heq : applying σ s a with
  | some e =>
    rw [heq] at happlies
    obtain ⟨hchain, happlied, htables⟩ := happlies
    obtain ⟨hin, c, hc, hid⟩ := hturn e heq
    by_cases hold : Applied s e.id
    · exact ⟨m, h.again hc hid hin hchain happlied htables hold⟩
    · exact ⟨m ++ [c], h.concat hc hid hin hchain happlied htables hold⟩
  | none =>
    rw [heq] at happlies
    obtain ⟨happlied, htables⟩ := happlies
    have hids : ∀ id, Applied s' id ↔ id ∈ m.map (·.id) := by
      simpa only [Applied, happlied] using h.ids
    have hsince : ∀ x y, [x, y] <+ m → y.id ∈ appliedSince s' x.id := by
      simpa only [appliedSince, happlied] using h.since
    have hm : s'.store.tables = _ := htables.trans h.tables
    rcases step_chain hok with hchain | ⟨events, hchain, hascending⟩ | ⟨L, rfl, hchain⟩
    · exact ⟨m, hchain ▸ h.ascending, hchain ▸ h.order, hids, hsince, hm⟩
    · refine ⟨m, hascending, ?_, hids, hsince, hm⟩
      have hnodup : s'.chain.Nodup := List.Nodup.of_map _ hascending.nodup_ids
      rw [hchain] at hnodup ⊢
      exact h.order.of_prefix List.prefix_rfl (List.prefix_append _ _) hnodup h.order.subset
    · have hsub : s'.chain <+ s.chain := hchain ▸ List.filter_sublist
      refine ⟨m, h.ascending.sublist hsub, h.order.of_sublist hsub fun c hc => ?_, hids, hsince, hm⟩
      have hmem := h.order.subset hc
      rw [hchain, List.mem_filter]
      exact ⟨hmem, decide_eq_true (hfork L rfl c hmem ((h.applied_iff hmem).mpr hc))⟩

end InOrder

/-! ## A chain that does not fork -/

theorem attempt_eq_some {e e' : IndexedEvent} (h : attempt σ s e = some e') : e' = e := by
  obtain ⟨_, -, heq⟩ := Option.map_eq_some_iff.mp h
  exact heq.symm

theorem Everywhere.applying {Q : Row → Prop} {a : Step} {e : IndexedEvent}
    (h : Everywhere σ Q s) (hQ : ReadsBack σ Q) (he : applying σ s a = some e) : Q e.row := by
  unfold Indexer.applying at he
  split at he
  · split at he
    · next hw =>
      rw [attempt_eq_some he]
      exact h.workers _ (List.mem_of_getElem? hw) _ (List.mem_singleton_self _)
    · cases he
  · split at he
    · next b row todo hf =>
      have hrow : Q row.base := h.sweep row (by simp [hf, Finalizer.todo])
      have hback := hQ row (b + σ.config.confirmations) hrow
      dsimp only at he
      split at he
      · cases he
        exact hback
      · rw [attempt_eq_some he]
        exact hback
    · cases he
  · split at he
    · next hr =>
      rw [attempt_eq_some he]
      exact h.replays _ (List.mem_of_getElem? hr) _ (List.mem_singleton_self _)
    · cases he
  · cases he

/-- The row of an event of the chain, by its id. -/
def State.Covers (s : State) (row : Row) : Prop := ∃ c ∈ s.chain, c.id = row.id

theorem covers_readsBack : ReadsBack σ s.Covers := fun _ _ h => h

/-- A step that forks nothing, and applies events in turn. -/
def Sequential (σ : Setting) (s : State) (a : Step) : Prop :=
  (match a with
    | .fork _ => False
    | _ => True) ∧
  ∀ e ∈ applying σ s a, InTurn σ s e

instance {a : Step} : Decidable (Sequential σ s a) :=
  match a with
  | .fork _ => inferInstanceAs (Decidable (False ∧ _))
  | .produce _ | .fetch .. | .work .. | .tick | .finalize _ | .startReplay .. | .fetchReplay ..
  | .replay .. | .grow .. | .crash => inferInstanceAs (Decidable (True ∧ _))

/-- Without forks, every event anywhere is on the chain. -/
theorem covered_step {a : Step} (h : Everywhere σ s.Covers s) (ha : Sequential σ s a)
    (hok : step σ s a = .ok s') : Everywhere σ s'.Covers s' := by
  have hsub : ∀ c ∈ s.chain, c ∈ s'.chain := by
    rcases step_chain hok with hchain | ⟨events, hchain, -⟩ | ⟨L, rfl, -⟩
    · exact fun c hc => hchain ▸ hc
    · exact fun c hc => hchain ▸ List.mem_append_left _ hc
    · exact ha.1.elim
  have hmono : Everywhere σ s'.Covers s := h.mono fun row ⟨c, hc, hid⟩ => ⟨c, hsub c hc, hid⟩
  refine hmono.step covers_readsBack ?_ hok
  rintro events head rfl c hc
  simp only [step, grow] at hok
  split at hok <;> cases hok
  exact ⟨c, List.mem_append_right _ hc, rfl⟩

/-- **The order of application does not matter** in a run whose tasks apply each event in turn: the
tables are those of the applied events in the order of the chain, and when every event was applied,
or changes nothing, those of the chain. -/
theorem order_immaterial (workers : Nat) (tables : Tables) (steps : List Step)
    (h : Along (step σ) (Sequential σ) (.new workers tables) steps) :
    let s := run (step σ) (.new workers tables) steps
    s.store.tables = applyAll σ (s.chain.filter (Applied s ·.id)) tables ∧
    ((∀ c ∈ s.chain, Applied s c.id ∨ σ.change c = .nothing) →
      s.store.tables = applyAll σ s.chain tables) := by
  intro s
  obtain ⟨⟨m, hm⟩, -⟩ : (∃ m, InOrder σ tables s m) ∧ Everywhere σ s.Covers s := by
    refine h.inv (I := fun s => (∃ m, InOrder σ tables s m) ∧ Everywhere σ s.Covers s) ?_
      ⟨⟨[], inOrder_new workers⟩, everywhere_new workers tables⟩
    rintro s a s' ⟨⟨m, hm⟩, hcovers⟩ ha hok
    refine ⟨hm.step (fun e he => ⟨ha.2 e he, ?_⟩) ?_ hok, covered_step hcovers ha hok⟩
    · exact hcovers.applying covers_readsBack he
    · rintro forkLedger rfl
      exact ha.1.elim
  exact ⟨hm.tables_eq, fun hall => hm.tables_eq.trans (applyAll_filter hall tables)⟩

namespace Sample

def hall : String := "00000000-0000-0000-0000-000000000001"

/-- One event is in the table of events. -/
def box : Setting :=
  { setting with
    db :=
      { parseStr := fun id => if id = hall then some ⟨1⟩ else none
        castUuid := fun id => if id = hall then some ⟨1⟩ else none
        events := fun uuid => uuid = ⟨1⟩ } }

def purchase : SorobanEvent :=
  ⟨"a", 1, "payment", ["PaymentProcessed"],
    .obj [("payment_id", .str "p1"), ("event_id", .str hall), ("buyer_address", .str "ann")]⟩

def transfer : SorobanEvent :=
  ⟨"bb", 2, "payment", ["TicketTransferred"],
    .obj [("payment_id", .str "p1"), ("from", .str "ann"), ("to", .str "bob")]⟩

def staked : SorobanEvent :=
  ⟨"bb", 2, "registry", ["CollateralStaked"], .obj [("organizer", .str "eve")]⟩

def empty : Tables := ⟨fun _ => none, [⟨some "eve", false⟩]⟩

/-- Both events are queued, and the second worker is first. -/
def raced (first second : SorobanEvent) : List Step :=
  [.grow [first, second] 20, .produce true, .produce true, .fetch [first.id, second.id] 20,
    .produce true, .produce true, .produce true, .produce true, .work 0 true, .work 1 true,
    .work 1 true, .work 1 true, .work 1 true, .work 0 true, .work 0 true, .work 0 true]

end Sample

open Sample in
theorem order_immaterial_staked :
    let s := run (step box) (.new 2 empty) (raced purchase staked)
    s.applied.map (·.id) = ["bb", "a"] ∧ s.store.tables = applyAll box s.chain empty := by
  intro s
  refine ⟨by decide, (order_immaterial 2 empty (raced purchase staked) ?_).2 ?_⟩
  · decide
  · decide

open Sample in
/-- The transfer finds no ticket, and the ticket that is sold then has no owner. -/
theorem order_matters_transfer :
    let s := run (step box) (.new 2 empty) (raced purchase transfer)
    s.applied.map (·.id) = ["bb", "a"] ∧ s.chain = [purchase, transfer] ∧
      s.store.tables ≠ applyAll box s.chain empty := by
  refine ⟨by decide, rfl, fun h => ?_⟩
  have howner := congrArg (fun t : Tables => (t.tickets "p1").map (·.ownerWallet)) h
  exact absurd howner (by decide)

/-! ## Forks -/

/-- A step that applies events of the chain in turn, and a fork that takes no applied event. -/
def Recoverable (σ : Setting) (s : State) (a : Step) : Prop :=
  (∀ e ∈ applying σ s a, InTurn σ s e ∧ ∃ c ∈ s.chain, c.id = e.id) ∧
  match a with
  | .fork forkLedger => ∀ c ∈ s.chain, Applied s c.id → c.ledger < forkLedger
  | _ => True

instance {a : Step} : Decidable (Recoverable σ s a) :=
  match a with
  | .fork _ => inferInstanceAs (Decidable (_ ∧ _))
  | .produce _ | .fetch .. | .work .. | .tick | .finalize _ | .startReplay .. | .fetchReplay ..
  | .replay .. | .grow .. | .crash => inferInstanceAs (Decidable (_ ∧ True))

/-- The producer has the events of the chain up to its head, none was given up, none is on its way
and no row waits. -/
structure Drained (s : State) : Prop where
  scanned : ∀ c ∈ s.chain, c ∈ s.fetched
  kept : ∀ c ∈ s.chain, c.id ∉ s.dropped
  arrived : s.inFlight = []
  settled : ∀ row ∈ s.store.buffer, row.finalized = true

/-- **Re-org recovery** in a run in which no event was applied that a fork takes away. -/
theorem reorg_recovered (workers : Nat) (tables : Tables) (steps : List Step)
    (h : Along (step σ) (Recoverable σ) (.new workers tables) steps) :
    let s := run (step σ) (.new workers tables) steps
    Drained s → s.store.tables = applyAll σ s.chain tables := by
  intro s hdrained
  obtain ⟨⟨m, hm⟩, htraced⟩ : (∃ m, InOrder σ tables s m) ∧ Traced σ s := by
    refine h.inv (I := fun s => (∃ m, InOrder σ tables s m) ∧ Traced σ s) ?_
      ⟨⟨[], inOrder_new workers⟩, traced_new workers tables⟩
    rintro s a s' ⟨⟨m, hm⟩, htraced⟩ ha hok
    refine ⟨hm.step ha.1 ?_ hok, htraced.step hok⟩
    rintro forkLedger rfl
    exact ha.2
  rw [hm.tables_eq]
  refine applyAll_filter (fun c hc => .inl ?_) tables
  rcases htraced.fetched c (hdrained.scanned c hc) with hid | (hid | ⟨row, hrow, -, hfin⟩) | hid
  · rw [hdrained.arrived] at hid
    cases hid
  · exact hid
  · rw [hdrained.settled row hrow] at hfin
    cases hfin
  · exact absurd hid (hdrained.kept c hc)

namespace Sample

def other : SorobanEvent := ⟨"b", 1, "payment", ["TicketCheckedIn"], .obj []⟩

/-- The checkpoint is at ledger 16 and the purchase waits in the buffer when ledger 1 forks. The
producer finds the other event there, rolls back and scans again. -/
def forked (parked : List Step) : List Step :=
  parked ++
    [.fork 1, .grow [other] 20, .produce true, .fetch ["b"] 20, .produce true, .produce true,
      .produce true, .fetch ["b"] 20, .produce true, .produce true, .work 0 true, .work 0 true,
      .work 0 true, .work 0 true]

/-- The purchase is not final when it is fetched, and stored when the sweep has its rows. -/
def parked : List Step :=
  [.grow [purchase] 20, .produce true, .produce true, .fetch ["a"] 4, .produce true, .produce true,
    .produce true, .produce true, .produce true, .fetch [] 20, .tick, .finalize true,
    .work 0 true, .work 0 true, .finalize true, .finalize true, .produce true]

/-- The purchase is applied at once. -/
def settled : List Step :=
  [.grow [purchase] 20, .produce true, .produce true, .fetch ["a"] 20, .produce true, .produce true,
    .produce true, .produce true, .work 0 true, .work 0 true, .work 0 true, .work 0 true,
    .tick, .finalize true, .finalize true, .finalize true]

end Sample

open Sample in
theorem drained_of_other {s : State} (hchain : s.chain = [other]) (hfetched : other ∈ s.fetched)
    (hdropped : other.id ∉ s.dropped) (harrived : s.inFlight = [])
    (hsettled : ∀ row ∈ s.store.buffer, row.finalized = true) : Drained s where
  scanned := by simpa [hchain] using hfetched
  kept := by simpa [hchain] using hdropped
  arrived := harrived
  settled := hsettled

open Sample in
theorem reorg_recovered_parked :
    let s := run (step box) (.new 1 empty) (forked parked)
    s.chain = [other] ∧ s.store.tables = applyAll box s.chain empty := by
  intro s
  refine ⟨rfl, reorg_recovered 1 empty (forked parked) (by decide) ?_⟩
  exact drained_of_other rfl (List.mem_cons_self ..) (by decide) (by decide +kernel)
    (by decide)

open Sample in
/-- The ticket of the lost purchase stays. -/
theorem reorg_keeps_settled :
    let s := run (step box) (.new 1 empty) (forked settled)
    Drained s ∧ s.chain = [other] ∧ s.store.tables ≠ applyAll box s.chain empty := by
  intro s
  refine ⟨drained_of_other rfl (List.mem_cons_self ..) (by decide) (by decide +kernel)
    (by decide), rfl, fun h => ?_⟩
  have hsold := congrArg (fun t : Tables => (t.tickets "p1").isSome) h
  exact absurd hsold (by decide)

end Agora.Indexer
