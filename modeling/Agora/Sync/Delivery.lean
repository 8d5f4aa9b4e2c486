import Agora.Sync.Engine
import Mathlib.Data.Finset.Max

/-!
# Server deltas on two devices

`processSyncResponse` writes a delta of the server to the store of its type at
the time of the device, not at the delta's timestamp. So the store shows, for
each value, the operation that came first at the latest time. Two devices agree
with the deltas exactly if on both of them this is an operation like that of
the delta with the largest timestamp.
-/

namespace Agora.Sync

open Lib Crdt

variable {V : Type}

/-- An answer of the server, with what the device reads while it processes it. -/
structure Batch (V : Type) where
  now : Nat → Int
  random : Nat → String
  response : SyncResponse V

/-- A delta and the time of the device at which it is processed. -/
structure Delivery (V : Type) where
  delta : DeltaEntry V
  time : Int

structure Device (V : Type) where
  config : SyncEngineConfig
  stored : List (DeltaEntry V)
  batches : List (Batch V)

def SyncEngine.getStore (e : SyncEngine V) (entityType : String) : Option (Store V) :=
  e.crdtStores.get entityType

def Batch.deliveries (b : Batch V) : List (Delivery V) :=
  b.response.serverDeltas.zipIdx.map fun x => ⟨x.1, b.now x.2⟩

namespace Device

variable (key : V → String) (dev : Device V)

/-- The engine of the device after the batches. -/
def engine : SyncEngine V :=
  dev.batches.foldl (fun e b => e.processSyncResponse key b.now b.random b.response)
    (.start dev.config dev.stored)

def has (entityType : String) (value : V) : Bool :=
  ((dev.engine key).getStore entityType).elim false (·.has key value)

def deliveries : List (Delivery V) := dev.batches.flatMap (·.deliveries)

/-- The deltas that were delivered, in whatever order and however often, are those of the list. -/
def Processes (deltas : List (DeltaEntry V)) : Prop :=
  ∀ d, d ∈ dev.deliveries.map (·.delta) ↔ d ∈ deltas

end Device

section Deciding

variable (key : V → String) (entityType k : String)

/-- The delta is about the value with the key. -/
def Concerns (d : DeltaEntry V) : Prop := d.entityType = entityType ∧ key d.value = k

/-- The delivery is the first one at the latest time, of those about the value. -/
def Decides (l : List (Delivery V)) (x : Delivery V) : Prop :=
  Concerns key entityType k x.delta ∧ ∃ pre post, l = pre ++ x :: post ∧
    (∀ y ∈ pre, Concerns key entityType k y.delta → y.time < x.time) ∧
    ∀ y ∈ post, Concerns key entityType k y.delta → y.time ≤ x.time

/-- The delta has the largest timestamp of those about its value. -/
def IsLargest (deltas : List (DeltaEntry V)) (d : DeltaEntry V) : Prop :=
  d ∈ deltas ∧ ∀ d' ∈ deltas, Concerns key d.entityType (key d.value) d' →
    d'.timestamp ≤ d.timestamp

end Deciding

/-- Of the deliveries about the delta's value, the first one at the latest time does what the delta
does. -/
def Device.LateAs (key : V → String) (dev : Device V) (d : DeltaEntry V) : Prop :=
  ∃ x, Decides key d.entityType (key d.value) dev.deliveries x ∧
    x.delta.operation = d.operation

variable {key : V → String} {entityType k : String} {l : List (Delivery V)} {x y : Delivery V}

theorem Decides.le (h : Decides key entityType k l x) (hy : y ∈ l)
    (hc : Concerns key entityType k y.delta) : y.time ≤ x.time := by
  obtain ⟨-, pre, post, rfl, hpre, hpost⟩ := h
  rcases List.mem_append.mp hy with hy | hy
  · exact (hpre y hy hc).le
  · rcases List.mem_cons.mp hy with rfl | hy
    · exact le_rfl
    · exact hpost y hy hc

theorem Decides.unique (hx : Decides key entityType k l x) (hy : Decides key entityType k l y) :
    x = y := by
  have hxy := hy.le (y := x) (by obtain ⟨-, _, _, rfl, -⟩ := hx; simp) hx.1
  have hyx := hx.le (y := y) (by obtain ⟨-, _, _, rfl, -⟩ := hy; simp) hy.1
  obtain ⟨hcx, pre, post, rfl, hpre, -⟩ := hx
  obtain ⟨hcy, pre', post', heq, hpre', -⟩ := hy
  rcases List.append_eq_append_iff.mp heq with ⟨mid, hmid, hrest⟩ | ⟨mid, hmid, hrest⟩
  · cases mid with
    | nil => exact (List.cons.inj hrest).1
    | cons z mid =>
      -- `x` is before `y`
      obtain rfl := (List.cons.inj hrest).1
      exact absurd (hpre' x (by simp [hmid]) hcx) (not_lt.mpr hyx)
  · cases mid with
    | nil => exact (List.cons.inj hrest).1.symm
    | cons z mid =>
      obtain rfl := (List.cons.inj hrest).1
      exact absurd (hpre y (by simp [hmid]) hcy) (not_lt.mpr hxy)

/-! ## What a device shows -/

/-- The element is that of the delivery that decides. -/
def Shows (key : V → String) (l : List (Delivery V)) (entityType k : String)
    (element : Option (LwwElement V)) : Prop :=
  (element = none ∧ ∀ x ∈ l, ¬ Concerns key entityType k x.delta) ∨
    ∃ x e, element = some e ∧ Decides key entityType k l x ∧ e.timestamp = x.time ∧
      e.isAdd = decide (x.delta.operation = .add)

theorem Shows.unconcerned {element : Option (LwwElement V)} (h : Shows key l entityType k element)
    (hx : ∀ e ∈ element, Concerns key entityType k x.delta → x.time ≤ e.timestamp)
    (hnone : element = none → ¬ Concerns key entityType k x.delta) :
    Shows key (l ++ [x]) entityType k element := by
  rcases h with ⟨rfl, hno⟩ | ⟨y, e, rfl, ⟨hc, pre, post, rfl, hpre, hpost⟩, ht, hadd⟩
  · refine .inl ⟨rfl, fun y hy => ?_⟩
    rcases List.mem_append.mp hy with hy | hy
    · exact hno y hy
    · rw [List.mem_singleton.mp hy]
      exact hnone rfl
  · refine .inr ⟨y, e, rfl, ⟨hc, pre, post ++ [x], by simp, hpre, fun z hz hcz => ?_⟩, ht, hadd⟩
    rcases List.mem_append.mp hz with hz | hz
    · exact hpost z hz hcz
    · rw [List.mem_singleton.mp hz] at hcz ⊢
      rw [← ht]
      exact hx e rfl hcz

theorem Shows.decided {element : Option (LwwElement V)} (h : Shows key l entityType k element)
    (hc : Concerns key entityType k x.delta) (hlt : ∀ e ∈ element, e.timestamp < x.time)
    {e : LwwElement V} (ht : e.timestamp = x.time)
    (hadd : e.isAdd = decide (x.delta.operation = .add)) :
    Shows key (l ++ [x]) entityType k (some e) := by
  refine .inr ⟨x, e, rfl, ⟨hc, l, [], rfl, fun y hy hcy => ?_, by simp⟩, ht, hadd⟩
  rcases h with ⟨rfl, hno⟩ | ⟨z, e', rfl, hz, htz, -⟩
  · exact absurd hcy (hno y hy)
  · exact (hz.le hy hcy).trans_lt (htz ▸ hlt e' rfl)

/-- Every store is a last-write-wins set, and shows what the deliveries decide. -/
structure Faithful (key : V → String) (l : List (Delivery V)) (e : SyncEngine V) : Prop where
  lww : ∀ entityType store, e.crdtStores.get entityType = some store →
    ∃ s, store = .lww s ∧ s.Sound key ∧ ∀ k, Shows key l entityType k (s.elements.get k)
  unknown : ∀ entityType, e.crdtStores.get entityType = none →
    ∀ x ∈ l, x.delta.entityType ≠ entityType

variable {e : SyncEngine V}

/-- The store that a delta is applied to. -/
theorem Faithful.getCRDTStore (h : Faithful key l e) (entityType : String) :
    ∃ s, e.getCRDTStore entityType .lww = .lww s ∧ s.Sound key ∧
      ∀ k, Shows key l entityType k (s.elements.get k) := by
  unfold SyncEngine.getCRDTStore
  cases hget : e.crdtStores.get entityType with
  | some store => exact h.lww entityType store hget
  | none =>
    refine ⟨.new, rfl, LwwElementSet.sound_new, fun k => .inl ⟨rfl, fun x hx hc => ?_⟩⟩
    exact h.unknown entityType hget x hx hc.1

theorem Faithful.applyServerDelta (h : Faithful key l e) {d : DeltaEntry V}
    (hop : d.operation ≠ .update) (now : Int) (random : String) :
    Faithful key (l ++ [⟨d, now⟩]) (e.applyServerDelta key now random d) := by
  obtain ⟨s, hstore, hsound, hshows⟩ := h.getCRDTStore d.entityType
  -- both operations are the same write
  have hwrite : (e.applyServerDelta key now random d).crdtStores = e.crdtStores.set d.entityType
      (.lww (s.write key (decide (d.operation = .add)) now d.value (e.deltaNode d) none)) := by
    unfold SyncEngine.applyServerDelta
    rw [hstore]
    cases hd : d.operation with
    | add => rfl
    | remove => rfl
    | update => exact absurd hd hop
  constructor
  · intro entityType store hget
    rw [hwrite] at hget
    by_cases htype : entityType = d.entityType
    · subst htype
      rw [OrdMap.get_set_self] at hget
      obtain rfl := Option.some.inj hget
      refine ⟨_, rfl, hsound.write, fun k => ?_⟩
      rw [LwwElementSet.get_write hsound]
      split_ifs with hwins
      · obtain ⟨rfl, hlt⟩ := hwins
        exact (hshows _).decided ⟨rfl, rfl⟩ hlt rfl rfl
      · refine (hshows k).unconcerned (fun x hx hc => ?_) fun hnone hc => ?_
        · by_contra hgt
          refine hwins ⟨hc.2.symm, fun x' hx' => ?_⟩
          obtain rfl := Option.some.inj (hx.symm.trans hx')
          exact not_le.mp hgt
        · exact hwins ⟨hc.2.symm, by simp [hnone]⟩
    · rw [OrdMap.get_set_of_ne htype] at hget
      obtain ⟨s', rfl, hsound', hshows'⟩ := h.lww entityType store hget
      have hno (k : String) : ¬ Concerns key entityType k d := fun hc => htype hc.1.symm
      exact ⟨s', rfl, hsound', fun k =>
        (hshows' k).unconcerned (fun _ _ hc => absurd hc (hno k)) fun _ => hno k⟩
  · intro entityType hget x hx
    rw [hwrite] at hget
    have htype : entityType ≠ d.entityType := by
      rintro rfl
      rw [OrdMap.get_set_self] at hget
      cases hget
    rw [OrdMap.get_set_of_ne htype] at hget
    rcases List.mem_append.mp hx with hx | hx
    · exact h.unknown entityType hget x hx
    · rw [List.mem_singleton.mp hx]
      exact htype.symm

theorem Faithful.foldl (h : Faithful key l e) (now : Nat → Int) (random : Nat → String)
    (deltas : List (DeltaEntry V × Nat)) (hops : ∀ x ∈ deltas, x.1.operation ≠ .update) :
    Faithful key (l ++ deltas.map fun x => ⟨x.1, now x.2⟩)
      (deltas.foldl (fun e x => e.applyServerDelta key (now x.2) (random x.2) x.1) e) := by
  induction deltas generalizing l e with
  | nil => simpa using h
  | cons x deltas ih =>
    have hx := h.applyServerDelta (hops x (by simp)) (now x.2) (random x.2)
    simpa using ih hx fun y hy => hops y (List.mem_cons_of_mem x hy)

theorem Faithful.processSyncResponse (h : Faithful key l e) (b : Batch V)
    (hops : ∀ d ∈ b.response.serverDeltas, d.operation ≠ .update) :
    Faithful key (l ++ b.deliveries) (e.processSyncResponse key b.now b.random b.response) := by
  -- apart from the stores nothing matters
  have hclock : Faithful key l { e with
      localVectorClock := e.localVectorClock.merge b.response.serverVectorClock } :=
    ⟨h.lww, h.unknown⟩
  have hfold := hclock.foldl b.now b.random b.response.serverDeltas.zipIdx
    fun x hx => hops x.1 (List.fst_mem_of_mem_zipIdx hx)
  exact ⟨hfold.lww, hfold.unknown⟩

theorem Batch.map_deliveries (b : Batch V) :
    b.deliveries.map (·.delta) = b.response.serverDeltas := by
  simp [Batch.deliveries, Function.comp_def]

theorem Device.faithful (key : V → String) (dev : Device V)
    (hops : ∀ d ∈ dev.deliveries.map (·.delta), d.operation ≠ .update) :
    Faithful key dev.deliveries (dev.engine key) := by
  obtain ⟨config, stored, batches⟩ := dev
  unfold Device.deliveries Device.engine at *
  dsimp only at hops ⊢
  induction batches using List.reverseRecOn with
  | nil =>
    refine ⟨fun entityType store hget => ?_, by simp⟩
    cases hget
  | append_singleton batches b ih =>
    simp only [List.flatMap_append, List.map_append, List.mem_append, List.flatMap_singleton,
      List.foldl_append, List.foldl_cons, List.foldl_nil, Batch.map_deliveries] at hops ⊢
    exact (ih fun d hd => hops d (.inl hd)).processSyncResponse b fun d hd => hops d (.inr hd)

/-- **What a device shows** is the operation of the delivery that decides. -/
theorem Device.has_cases (key : V → String) (dev : Device V)
    (hops : ∀ d ∈ dev.deliveries.map (·.delta), d.operation ≠ .update) (entityType : String)
    (v : V) :
    ((∀ x ∈ dev.deliveries, ¬ Concerns key entityType (key v) x.delta) ∧
        dev.has key entityType v = false) ∨
      ∃ x, Decides key entityType (key v) dev.deliveries x ∧
        dev.has key entityType v = decide (x.delta.operation = .add) := by
  have h := dev.faithful key hops
  unfold Device.has SyncEngine.getStore
  cases hget : (dev.engine key).crdtStores.get entityType with
  | none => exact .inl ⟨fun x hx hc => h.unknown entityType hget x hx hc.1, rfl⟩
  | some store =>
    obtain ⟨s, rfl, -, hshows⟩ := h.lww entityType store hget
    simp only [Option.elim_some, Store.has, LwwElementSet.has]
    rcases hshows (key v) with ⟨hnone, hno⟩ | ⟨x, e, hsome, hx, -, hadd⟩
    · exact .inl ⟨hno, by rw [hnone]⟩
    · exact .inr ⟨x, hx, by rw [hsome]; exact hadd⟩

theorem Device.has_congr (dev : Device V) (entityType : String) {v w : V} (h : key v = key w) :
    dev.has key entityType v = dev.has key entityType w := by
  unfold Device.has
  congr 1
  funext store
  cases store <;> simp only [Store.has, LwwElementSet.has, OrSet.has, h]

section Main

variable {deltas : List (DeltaEntry V)} {dev : Device V} {d : DeltaEntry V}

theorem Device.Processes.ops (h : dev.Processes deltas)
    (hops : ∀ d ∈ deltas, d.operation ≠ .update) :
    ∀ d ∈ dev.deliveries.map (·.delta), d.operation ≠ .update :=
  fun d hd => hops d ((h d).mp hd)

theorem Decides.mem (h : Decides key entityType k l x) : x ∈ l := by
  obtain ⟨-, pre, post, rfl, -⟩ := h
  simp

theorem operation_eq_of_add_iff {o o' : DeltaOperation} (ho : o ≠ .update) (ho' : o' ≠ .update)
    (h : decide (o = .add) = decide (o' = .add)) : o = o' := by
  cases o <;> cases o' <;> simp_all

/-- The delta with the largest timestamp wins on a device exactly if the delivery that decides does
the same. -/
theorem Device.has_iff_lateAs (h : dev.Processes deltas)
    (hops : ∀ d ∈ deltas, d.operation ≠ .update) (hd : d ∈ deltas) :
    dev.has key d.entityType d.value = decide (d.operation = .add) ↔ dev.LateAs key d := by
  rcases dev.has_cases key (h.ops hops) d.entityType d.value with
    ⟨hno, -⟩ | ⟨x, hx, hhas⟩
  · obtain ⟨y, hy, rfl⟩ := List.mem_map.mp ((h d).mpr hd)
    exact absurd ⟨rfl, rfl⟩ (hno y hy)
  · have hxop : x.delta.operation ≠ .update := h.ops hops _ (List.mem_map_of_mem hx.mem)
    rw [hhas]
    constructor
    · exact fun heq => ⟨x, hx, operation_eq_of_add_iff hxop (hops d hd) heq⟩
    · rintro ⟨y, hy, hop⟩
      rw [hx.unique hy, hop]

theorem exists_isLargest {v : V} (hd : d ∈ deltas) (hc : Concerns key entityType (key v) d) :
    ∃ d', IsLargest key deltas d' ∧ Concerns key entityType (key v) d' := by
  classical
  obtain ⟨d', hd', hmax⟩ := Finset.exists_max_image
    (deltas.toFinset.filter (Concerns key entityType (key v))) (·.timestamp) ⟨d, by simp [hd, hc]⟩
  simp only [Finset.mem_filter, List.mem_toFinset] at hd' hmax
  obtain ⟨hmem, hc'⟩ := hd'
  refine ⟨d', ⟨hmem, fun y hy hcy => hmax y ⟨hy, ?_⟩⟩, hc'⟩
  rwa [hc'.1, hc'.2] at hcy

end Main

theorem server_deltas_iff (key : V → String) (deltas : List (DeltaEntry V))
    (hops : ∀ d ∈ deltas, d.operation ≠ .update) (one two : Device V)
    (hone : one.Processes deltas) (htwo : two.Processes deltas) :
    ((∀ entityType v, one.has key entityType v = two.has key entityType v) ∧
      ∀ d, IsLargest key deltas d →
        one.has key d.entityType d.value = decide (d.operation = .add) ∧
        two.has key d.entityType d.value = decide (d.operation = .add)) ↔
      ∀ d, IsLargest key deltas d → one.LateAs key d ∧ two.LateAs key d := by
  have hwins (d : DeltaEntry V) (hd : IsLargest key deltas d) :
      (one.has key d.entityType d.value = decide (d.operation = .add) ∧
        two.has key d.entityType d.value = decide (d.operation = .add)) ↔
      one.LateAs key d ∧ two.LateAs key d :=
    and_congr (Device.has_iff_lateAs hone hops hd.1) (Device.has_iff_lateAs htwo hops hd.1)
  constructor
  · rintro ⟨-, h⟩ d hd
    exact (hwins d hd).mp (h d hd)
  · intro h
    refine ⟨fun entityType v => ?_, fun d hd => (hwins d hd).mpr (h d hd)⟩
    by_cases hsome : ∃ d ∈ deltas, Concerns key entityType (key v) d
    · obtain ⟨d, hd, hc⟩ := hsome
      obtain ⟨d', hlargest, rfl, hkey⟩ := exists_isLargest hd hc
      obtain ⟨h1, h2⟩ := (hwins d' hlargest).mpr (h d' hlargest)
      rw [one.has_congr _ hkey.symm, two.has_congr _ hkey.symm, h1, h2]
    · have hfalse (dev : Device V) (hdev : dev.Processes deltas) :
          dev.has key entityType v = false := by
        rcases dev.has_cases key (hdev.ops hops) entityType v with
          ⟨-, hhas⟩ | ⟨x, hx, -⟩
        · exact hhas
        · exact absurd ⟨x.delta, (hdev _).mp (List.mem_map_of_mem hx.mem), hx.1⟩ hsome
      rw [hfalse one hone, hfalse two htwo]

/-! ## A bookmark -/

namespace Sample

/-- The bookmark of an event is added and removed again. -/
def added : DeltaEntry String :=
  ⟨"tx-1", "bookmark", "e1", .add, "e1", VectorClock.create "phone" 1, 1, false⟩

def removed : DeltaEntry String :=
  ⟨"tx-2", "bookmark", "e1", .remove, "e1", VectorClock.create "phone" 2, 2, false⟩

/-- A device that processes one delta at time 10 and one at time 20. -/
def device (nodeId : String) (first second : DeltaEntry String) : Device String :=
  ⟨⟨nodeId, true, 3⟩, [],
    [⟨fun _ => 10, fun _ => "", ⟨.empty, [first], .empty⟩⟩,
      ⟨fun _ => 20, fun _ => "", ⟨.empty, [second], .empty⟩⟩]⟩

/-- A device that processes both in one answer. -/
def atOnce : Device String :=
  ⟨⟨"tablet", true, 3⟩, [],
    [⟨fun i => 30 + Int.ofNat i, fun _ => "", ⟨.empty, [added, removed], .empty⟩⟩]⟩

theorem processes_device (nodeId : String) :
    (device nodeId added removed).Processes [added, removed] ∧
      (device nodeId removed added).Processes [added, removed] := by
  constructor <;> intro d <;>
    simp [Device.deliveries, Batch.deliveries, device, or_comm]

theorem processes_atOnce : atOnce.Processes [added, removed] := by
  intro d
  simp [Device.deliveries, Batch.deliveries, atOnce]

theorem isLargest_removed {d : DeltaEntry String} (h : IsLargest quoted [added, removed] d) :
    d = removed := by
  obtain ⟨hd, hmax⟩ := h
  simp only [List.mem_cons, List.not_mem_nil, or_false] at hd
  rcases hd with rfl | rfl
  · exact absurd (hmax removed (by simp) ⟨rfl, rfl⟩) (by decide)
  · rfl

theorem lateAs_removed (dev : Device String) (time time' : Int) (hlt : time < time')
    (h : dev.deliveries = [⟨added, time⟩, ⟨removed, time'⟩]) : dev.LateAs quoted removed := by
  refine ⟨⟨removed, time'⟩, ⟨⟨rfl, rfl⟩, [⟨added, time⟩], [], h, ?_, by simp⟩, rfl⟩
  intro y hy _
  rw [List.mem_singleton.mp hy]
  exact hlt

end Sample

open Sample in
/-- In the order of the timestamps, and at different times, the remove wins on both devices. -/
theorem server_deltas_in_order :
    (∀ d ∈ [added, removed], d.operation ≠ .update) ∧
      ∀ entityType v, (device "phone" added removed).has quoted entityType v =
        atOnce.has quoted entityType v := by
  have hops : ∀ d ∈ [added, removed], d.operation ≠ .update := by decide
  refine ⟨hops, ((server_deltas_iff quoted [added, removed] hops (device "phone" added removed)
    atOnce (processes_device "phone").1 processes_atOnce).mpr fun d hd => ?_).1⟩
  rw [isLargest_removed hd]
  exact ⟨lateAs_removed _ 10 20 (by decide) rfl, lateAs_removed _ 30 31 (by decide) rfl⟩

open Sample in
/-- The device that gets the add last has the bookmark again. -/
theorem server_deltas_reordered :
    (device "phone" added removed).Processes [added, removed] ∧
      (device "tablet" removed added).Processes [added, removed] ∧
      added.timestamp < removed.timestamp ∧
      (device "phone" added removed).has quoted "bookmark" "e1" = false ∧
      (device "tablet" removed added).has quoted "bookmark" "e1" = true :=
  ⟨(processes_device "phone").1, (processes_device "tablet").2, by decide, by decide, by decide⟩

end Agora.Sync
