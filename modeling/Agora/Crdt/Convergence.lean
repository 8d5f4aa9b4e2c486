import Agora.Crdt.LwwElementSet
import Agora.Lib.MergeTree

/-!
# Convergence of last-write-wins sets

Replicas that merged the same states show the same, in whatever order they did
it: the same answers of `has` and the same keys, and the same values where the
serialisation tells values apart. Values with one serialisation share a key, and
at a tie each replica keeps its own. A local operation shows what a merge with it
would, except for an add with the timestamp of a stored remove: the merge prefers
the add, and `add` keeps what is there.
-/

namespace Agora.Crdt

open Lib

namespace LwwElementSet

variable {T : Type} {key : T → String} {s t : LwwElementSet T}

theorem exists_of_view {k : String} {x : Stamp} (h : s.view k = x) :
    ∃ e, s.elements.get k = some e ∧ e.timestamp = (ofLex x).1 ∧ e.isAdd = (ofLex x).2 := by
  unfold view at h
  cases he : s.elements.get k with
  | none =>
    rw [he] at h
    cases h
  | some e =>
    rw [he] at h
    obtain rfl : e.stamp = x := WithBot.coe_inj.mp h
    exact ⟨e, rfl, rfl, rfl⟩

namespace Sample

def remover : LwwElementSet String := new.remove quoted 0 "e1" "phone2" (some 100)

theorem remover_reached : Reached quoted remover := .write false 0 "e1" "phone2" (some 100) .new

/-- A number as JSON writes it: the infinities have no number and become `null`. -/
inductive Number where
  | finite (n : Int)
  | infinity
  | negInfinity
  deriving DecidableEq

def serialised : Number → String
  | .finite n => toString n
  | .infinity | .negInfinity => "null"

/-- Two phones add the two infinities at the same time. -/
def upper : LwwElementSet Number := new.add serialised 0 .infinity "phone1" (some 100)
def lower : LwwElementSet Number := new.add serialised 0 .negInfinity "phone2" (some 100)

end Sample

/-- An add or a remove of a value by a node at a timestamp. -/
structure Write (T : Type) where
  isAdd : Bool
  value : T
  nodeId : String
  timestamp : Int
  deriving DecidableEq

/-- The operation on a replica. -/
def Write.apply (key : T → String) (s : LwwElementSet T) (o : Write T) : LwwElementSet T :=
  if o.isAdd then s.add key o.timestamp o.value o.nodeId (some o.timestamp)
  else s.remove key o.timestamp o.value o.nodeId (some o.timestamp)

def Write.stamp (o : Write T) : Stamp := toLex (o.timestamp, o.isAdd)

theorem Write.apply_eq (key : T → String) (s : LwwElementSet T) (o : Write T) :
    o.apply key s = s.write key o.isAdd o.timestamp o.value o.nodeId (some o.timestamp) := by
  unfold Write.apply
  split
  · rename_i h; rw [h]; rfl
  · rename_i h; rw [Bool.not_eq_true] at h; rw [h]; rfl

theorem Sound.apply (hs : s.Sound key) (o : Write T) : (o.apply key s).Sound key := by
  rw [Write.apply_eq]
  exact hs.write

/-- An operation shows its stamp if it is later than what is there. -/
theorem view_apply (hs : s.Sound key) (o : Write T) (k : String) :
    (o.apply key s).view k =
      if k = key o.value ∧ ∀ e ∈ s.elements.get k, e.timestamp < o.timestamp then
        (o.stamp : WithBot Stamp)
      else s.view k := by
  unfold view
  rw [Write.apply_eq, get_write hs]
  simp only [Option.getD_some]
  split <;> rfl

theorem view_apply_new (o : Write T) (k : String) :
    (o.apply key new).view k = if k = key o.value then (o.stamp : WithBot Stamp) else ⊥ := by
  rw [view_apply sound_new]
  have hempty : ∀ e ∈ (new : LwwElementSet T).elements.get k, e.timestamp < o.timestamp := by
    rintro e ⟨⟩
  by_cases hk : k = key o.value
  · rw [if_pos ⟨hk, hempty⟩, if_pos hk]
  · rw [if_neg fun h => hk h.1, if_neg hk]
    rfl

/-- The operation is an add, and the replica has a remove of the value at its timestamp. -/
def Write.TiesRemove (key : T → String) (s : LwwElementSet T) (o : Write T) : Prop :=
  o.isAdd = true ∧ ∃ e, s.elements.get (key o.value) = some e ∧ e.isAdd = false ∧
    e.timestamp = o.timestamp

theorem stamp_sup_cases {e : LwwElement T} {o : Write T} (h : ¬ e.timestamp < o.timestamp) :
    e.stamp ⊔ o.stamp = e.stamp ∨
      e.stamp ⊔ o.stamp = o.stamp ∧ o.isAdd = true ∧ e.isAdd = false ∧
        e.timestamp = o.timestamp := by
  rcases lt_or_eq_of_le (not_lt.mp h) with hlt | ht
  · exact .inl (sup_eq_left.mpr (Prod.Lex.toLex_le_toLex.mpr (.inl hlt)))
  · by_cases hle : o.isAdd ≤ e.isAdd
    · exact .inl (sup_eq_left.mpr (Prod.Lex.toLex_le_toLex.mpr (.inr ⟨ht, hle⟩)))
    · right
      have hadd : o.isAdd = true ∧ e.isAdd = false := by
        revert hle
        cases o.isAdd <;> cases e.isAdd <;> simp
      refine ⟨sup_eq_right.mpr (Prod.Lex.toLex_le_toLex.mpr (.inr ⟨ht.symm, ?_⟩)), hadd.1, hadd.2,
        ht.symm⟩
      rw [hadd.2]
      exact Bool.false_le _

/-- **A local operation against a merge with it.** -/
theorem apply_agrees_iff (hs : s.Sound key) (o : Write T) :
    (∀ v, (o.apply key s).has key v = (s.merge (o.apply key new)).has key v) ↔
      ¬ o.TiesRemove key s := by
  have hmerge (k : String) := view_merge (k := k) hs (sound_new.apply o)
  constructor
  · rintro h ⟨hadd, e, he, hremove, ht⟩
    have hold : (o.apply key s).has key o.value = false := by
      rw [← Bool.not_eq_true, has_iff_view, view_apply hs, if_neg]
      · rw [← has_iff_view, Bool.not_eq_true, has, he]
        exact hremove
      · rintro ⟨-, hlt⟩
        have := hlt e he
        omega
    have hnew : (s.merge (o.apply key new)).has key o.value = true := by
      rw [has_iff_view, hmerge, view_apply_new, if_pos rfl, view, he]
      refine ⟨o.timestamp, ?_⟩
      rw [← hadd]
      refine sup_eq_right.mpr (WithBot.coe_le_coe.mpr (Prod.Lex.toLex_le_toLex.mpr (.inr ⟨ht, ?_⟩)))
      rw [hremove]
      exact Bool.false_le _
    rw [h, hnew] at hold
    cases hold
  · intro hno v
    apply has_eq_of_view
    rw [hmerge, view_apply_new, view_apply hs]
    by_cases hk : key v = key o.value
    · rw [if_pos hk, hk]
      cases he : s.elements.get (key o.value) with
      | none => simp [view, he]
      | some e =>
        simp only [Option.mem_def, Option.some.injEq, forall_eq', true_and]
        rw [view, he]
        by_cases hlt : e.timestamp < o.timestamp
        · rw [if_pos hlt]
          refine (sup_eq_right.mpr (WithBot.coe_le_coe.mpr ?_)).symm
          exact Prod.Lex.toLex_le_toLex.mpr (.inl hlt)
        · rw [if_neg hlt]
          rcases stamp_sup_cases hlt with heq | ⟨-, hadd, hremove, ht⟩
          · exact (congrArg WithBot.some heq).symm
          · exact absurd ⟨hadd, e, he, hremove, ht⟩ hno
    · simp [hk]

/-! ## Plans -/

/-- Operations applied and replicas merged, starting from empty replicas. -/
inductive Plan (T : Type) where
  | new
  | apply (p : Plan T) (o : Write T)
  | merge (p q : Plan T)

namespace Plan

def state (key : T → String) : Plan T → LwwElementSet T
  | new => LwwElementSet.new
  | apply p o => o.apply key (p.state key)
  | merge p q => (p.state key).merge (q.state key)

def ops : Plan T → List (Write T)
  | new => []
  | apply p o => o :: p.ops
  | merge p q => p.ops ++ q.ops

/-- The operations are those of the list, each at least once. -/
def Performs (p : Plan T) (ops : List (Write T)) : Prop := ∀ o, o ∈ p.ops ↔ o ∈ ops

end Plan

/-- The stamp is that of a latest operation under the key, or there is none. -/
def IsLatest (key : T → String) (ops : List (Write T)) (k : String) (x : WithBot Stamp) : Prop :=
  (x = ⊥ ∧ ∀ o ∈ ops, key o.value ≠ k) ∨
    ∃ o ∈ ops, key o.value = k ∧ x = (o.stamp : WithBot Stamp) ∧
      ∀ o' ∈ ops, key o'.value = k → o'.timestamp ≤ o.timestamp

/-- No add and remove of a value share its largest timestamp. -/
def Decided (key : T → String) (ops : List (Write T)) : Prop :=
  ∀ a ∈ ops, ∀ r ∈ ops, key a.value = key r.value → a.isAdd = true → r.isAdd = false →
    a.timestamp = r.timestamp → ∃ o ∈ ops, key o.value = key a.value ∧ a.timestamp < o.timestamp

theorem Plan.sound (p : Plan T) : (p.state key).Sound key := by
  induction p with
  | new => exact sound_new
  | apply p o ih => exact ih.apply o
  | merge p q ihp ihq => exact ihp.merge ihq

theorem Write.timestamp_le_of_stamp {o o' : Write T} (h : o.stamp ≤ o'.stamp) :
    o.timestamp ≤ o'.timestamp := by
  rcases Prod.Lex.toLex_le_toLex.mp h with hlt | ⟨heq, -⟩
  · exact le_of_lt hlt
  · exact le_of_eq heq

theorem IsLatest.sup {ops ops' : List (Write T)} {k : String} {x y : WithBot Stamp}
    (hx : IsLatest key ops k x) (hy : IsLatest key ops' k y) :
    IsLatest key (ops ++ ops') k (x ⊔ y) := by
  rcases hx with ⟨rfl, hnone⟩ | ⟨o, ho, hk, rfl, hmax⟩
  · rcases hy with ⟨rfl, hnone'⟩ | ⟨o', ho', hk', rfl, hmax'⟩
    · refine .inl ⟨by simp, fun o ho => ?_⟩
      rcases List.mem_append.mp ho with h | h
      · exact hnone o h
      · exact hnone' o h
    · refine .inr ⟨o', List.mem_append_right _ ho', hk', by simp, fun p hp hpk => ?_⟩
      rcases List.mem_append.mp hp with h | h
      · exact absurd hpk (hnone p h)
      · exact hmax' p h hpk
  · rcases hy with ⟨rfl, hnone'⟩ | ⟨o', ho', hk', rfl, hmax'⟩
    · refine .inr ⟨o, List.mem_append_left _ ho, hk, by simp, fun p hp hpk => ?_⟩
      rcases List.mem_append.mp hp with h | h
      · exact hmax p h hpk
      · exact absurd hpk (hnone' p h)
    · right
      rcases le_total o.stamp o'.stamp with hle | hle
      · refine ⟨o', List.mem_append_right _ ho', hk', ?_, fun p hp hpk => ?_⟩
        · exact sup_eq_right.mpr (WithBot.coe_le_coe.mpr hle)
        · rcases List.mem_append.mp hp with h | h
          · exact (hmax p h hpk).trans (Write.timestamp_le_of_stamp hle)
          · exact hmax' p h hpk
      · refine ⟨o, List.mem_append_left _ ho, hk, ?_, fun p hp hpk => ?_⟩
        · exact sup_eq_left.mpr (WithBot.coe_le_coe.mpr hle)
        · rcases List.mem_append.mp hp with h | h
          · exact hmax p h hpk
          · exact (hmax' p h hpk).trans (Write.timestamp_le_of_stamp hle)

theorem IsLatest.apply {ops : List (Write T)} {k : String} (hs : s.Sound key)
    (h : IsLatest key ops k (s.view k)) (o : Write T) :
    IsLatest key (o :: ops) k ((o.apply key s).view k) := by
  rw [view_apply hs]
  split
  · rename_i hwins
    obtain ⟨rfl, hlt⟩ := hwins
    refine .inr ⟨o, List.mem_cons_self, rfl, rfl, fun p hp hpk => ?_⟩
    rcases List.mem_cons.mp hp with rfl | hp
    · exact le_rfl
    · rcases h with ⟨-, hnone⟩ | ⟨q, -, -, hview, hmax⟩
      · exact absurd hpk (hnone p hp)
      · obtain ⟨e, he, ht, -⟩ := exists_of_view hview
        have hp := hmax p hp hpk
        have he := hlt e he
        have ht : e.timestamp = q.timestamp := ht
        omega
  · rename_i hloses
    rcases h with ⟨hview, hnone⟩ | ⟨q, hq, hqk, hview, hmax⟩
    · refine .inl ⟨hview, fun p hp => ?_⟩
      rcases List.mem_cons.mp hp with rfl | hp
      · rintro rfl
        refine hloses ⟨rfl, fun e he => ?_⟩
        rw [view, he] at hview
        cases hview
      · exact hnone p hp
    · refine .inr ⟨q, List.mem_cons_of_mem _ hq, hqk, hview, fun p hp hpk => ?_⟩
      rcases List.mem_cons.mp hp with rfl | hp
      · subst hpk
        obtain ⟨e, he, ht, -⟩ := exists_of_view hview
        have ht : e.timestamp = q.timestamp := ht
        by_contra hlt
        refine hloses ⟨rfl, fun e' he' => ?_⟩
        obtain rfl := Option.some.inj (he.symm.trans he')
        omega
      · exact hmax p hp hpk

/-- **What a plan shows** is the stamp of a latest operation. -/
theorem Plan.isLatest (key : T → String) (p : Plan T) (k : String) :
    IsLatest key p.ops k ((p.state key).view k) := by
  induction p with
  | new => exact .inl ⟨rfl, by simp [Plan.ops]⟩
  | apply p o ih => exact ih.apply p.sound o
  | merge p q ihp ihq =>
    rw [Plan.state, view_merge p.sound q.sound]
    exact ihp.sup ihq

theorem IsLatest.congr {ops ops' : List (Write T)} {k : String} {x : WithBot Stamp}
    (h : ∀ o, o ∈ ops ↔ o ∈ ops') (hx : IsLatest key ops k x) : IsLatest key ops' k x := by
  unfold IsLatest at hx ⊢
  simpa only [h] using hx

/-- Operations without such a tie show the same whichever of them is the latest. -/
theorem IsLatest.add_iff {ops : List (Write T)} {k : String} {x y : WithBot Stamp}
    (h : Decided key ops) (hx : IsLatest key ops k x) (hy : IsLatest key ops k y)
    (hadd : ∃ ts : Int, x = (toLex (ts, true) : Stamp)) :
    ∃ ts : Int, y = (toLex (ts, true) : Stamp) := by
  obtain ⟨ts, rfl⟩ := hadd
  rcases hx with ⟨hbot, -⟩ | ⟨a, ha, rfl, hstamp, hmax⟩
  · cases hbot
  rcases hy with ⟨-, hnone⟩ | ⟨r, hr, hrk, rfl, hmax'⟩
  · exact absurd rfl (hnone a ha)
  have hisadd : a.isAdd = true :=
    congrArg (fun x : Stamp => (ofLex x).2) (WithBot.coe_inj.mp hstamp).symm
  have ht : a.timestamp = r.timestamp := le_antisymm (hmax' a ha rfl) (hmax r hr hrk)
  cases hremove : r.isAdd with
  | true => exact ⟨r.timestamp, by rw [Write.stamp, hremove]⟩
  | false =>
    obtain ⟨o, ho, hok, hlt⟩ := h a ha r hr hrk.symm hisadd hremove ht
    exact absurd (hmax o ho hok) (not_le.mpr hlt)

/-- One operation, then the others in the order of the list. -/
def Plan.first (o : Write T) (ops : List (Write T)) : Plan T := ops.foldl .apply (.apply .new o)

theorem Plan.mem_foldl {p : Plan T} {ops : List (Write T)} {o : Write T} :
    o ∈ (ops.foldl Plan.apply p).ops ↔ o ∈ p.ops ∨ o ∈ ops := by
  induction ops generalizing p with
  | nil => simp
  | cons o' ops ih =>
    rw [List.foldl_cons, ih, Plan.ops, List.mem_cons, List.mem_cons]
    tauto

theorem Plan.performs_first {o : Write T} {ops : List (Write T)} (ho : o ∈ ops) :
    (Plan.first o ops).Performs ops := by
  intro o'
  rw [Plan.first, Plan.mem_foldl]
  simp only [Plan.ops, List.mem_singleton]
  constructor
  · rintro (rfl | h)
    · exact ho
    · exact h
  · exact .inr

/-- What has the largest timestamp stays, whatever comes after it. -/
theorem Plan.view_foldl (key : T → String) {p : Plan T} {ops : List (Write T)} {o : Write T}
    (hview : (p.state key).view (key o.value) = (o.stamp : Stamp))
    (hmax : ∀ o' ∈ ops, key o'.value = key o.value → o'.timestamp ≤ o.timestamp) :
    ((ops.foldl Plan.apply p).state key).view (key o.value) = (o.stamp : Stamp) := by
  induction ops generalizing p with
  | nil => exact hview
  | cons o' ops ih =>
    refine ih ?_ fun q hq => hmax q (List.mem_cons_of_mem _ hq)
    rw [Plan.state, view_apply p.sound, if_neg, hview]
    rintro ⟨hk, hlt⟩
    obtain ⟨e, he, ht, -⟩ := exists_of_view hview
    have hle := hmax o' List.mem_cons_self hk.symm
    have hlt := hlt e he
    have ht : e.timestamp = o.timestamp := ht
    omega

theorem Plan.has_first (key : T → String) {ops : List (Write T)} {o : Write T}
    (hmax : ∀ o' ∈ ops, key o'.value = key o.value → o'.timestamp ≤ o.timestamp) :
    ((Plan.first o ops).state key).has key o.value = o.isAdd := by
  have hview := Plan.view_foldl key (p := .apply .new o)
    (by rw [Plan.state, Plan.state, view_apply_new, if_pos rfl]) hmax
  obtain ⟨e, he, -, hadd⟩ := exists_of_view hview
  rw [has, Plan.first, he]
  exact hadd

/-- **Order of operations.** -/
theorem plans_agree_iff (ops : List (Write T)) :
    (∀ p q : Plan T, p.Performs ops → q.Performs ops →
      ∀ v, (p.state key).has key v = (q.state key).has key v) ↔ Decided key ops := by
  constructor
  · intro h a ha r hr hk hadd hremove ht
    by_contra hnone
    push Not at hnone
    have hmax : ∀ o' ∈ ops, key o'.value = key r.value → o'.timestamp ≤ r.timestamp := by
      intro o' ho' hk'
      exact ht ▸ hnone o' ho' (hk'.trans hk.symm)
    have heq := h _ _ (Plan.performs_first ha) (Plan.performs_first hr) a.value
    have hfirst := Plan.has_first key hmax
    have hsame (s : LwwElementSet T) : s.has key a.value = s.has key r.value := by
      rw [has, has, hk]
    rw [Plan.has_first key hnone, hsame, hfirst, hadd, hremove] at heq
    cases heq
  · intro h p q hp hq v
    have hx := (p.isLatest key (key v)).congr hp
    have hy := (q.isLatest key (key v)).congr hq
    rw [Bool.eq_iff_iff, has_iff_view, has_iff_view]
    exact ⟨IsLatest.add_iff h hx hy, IsLatest.add_iff h hy hx⟩

theorem local_operations_iff (key : T → String) :
    (∀ (s : LwwElementSet T) (o : Write T), Reached key s →
      ((∀ v, (o.apply key s).has key v = (s.merge (o.apply key new)).has key v) ↔
        ¬ o.TiesRemove key s)) ∧
      ∀ ops : List (Write T), (∀ p q : Plan T, p.Performs ops → q.Performs ops →
        ∀ v, (p.state key).has key v = (q.state key).has key v) ↔ Decided key ops :=
  ⟨fun _ o hs => apply_agrees_iff hs.sound o, plans_agree_iff⟩

open Sample in
/-- Where the remove is there, an add at the same time is lost, and one a moment later is not. -/
theorem local_operations_later :
    (∀ v, ((⟨true, "e1", "phone1", 101⟩ : Write String).apply quoted remover).has quoted v =
      (remover.merge ((⟨true, "e1", "phone1", 101⟩ : Write String).apply quoted new)).has
        quoted v) ∧
      ((⟨true, "e1", "phone1", 101⟩ : Write String).apply quoted remover).has
        quoted "e1" = true := by
  refine ⟨((local_operations_iff quoted).1 remover _ remover_reached).mpr ?_, by decide⟩
  rintro ⟨-, e, he, -, ht⟩
  have hstored : remover.elements.get (quoted "e1") =
      some ⟨"e1", 100, VectorClock.create "phone2" 1, false⟩ := by decide
  obtain rfl := Option.some.inj (hstored.symm.trans he)
  cases ht

open Sample in
/-- The add of phone 1 on the replica of phone 2, and the merge of the two. -/
theorem local_add_lost_tied :
    Reached quoted remover ∧
      ((⟨true, "e1", "phone1", 100⟩ : Write String).apply quoted remover).has quoted "e1" = false ∧
      (remover.merge ((⟨true, "e1", "phone1", 100⟩ : Write String).apply quoted new)).has
        quoted "e1" = true :=
  ⟨remover_reached, by decide, by decide⟩

end LwwElementSet

end Agora.Crdt
