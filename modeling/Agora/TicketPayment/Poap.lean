import Agora.TicketPayment.BuyerIndex

/-!
# Proofs of attendance

A POAP is minted by the check-in of a ticket, or later by `mint_poap` for a
ticket whose status says that it was checked in. `Badges x U` says that the
lists of the attendees hold exactly the flagged ids, each in one list and once,
and that `U` holds of every flagged id. Only the two calls that mint touch the
lists, and only a check-in makes a ticket checked in (`Filing.unattended`), so that
`U` can be that the ticket was checked in earlier in the run.
-/

namespace Agora.TicketPayment

open Lib Function

variable {host : Host} {env : Env host} {w w' : World} {x : Indexes} {r r' : Records}
  {a b : Address} {i j : String} {U V : String → Prop}

/-- The shards of one attendee. -/
def Indexes.poapShards (x : Indexes) (attendee : Address) : Shards String where
  shard k := x.poapsByAttendee (attendee, k)
  count := x.poapsByAttendeeCount attendee

theorem getPoapsByAttendee_eq (x : Indexes) (a : Address) :
    x.getPoapsByAttendee a = (x.poapShards a).toList shardSize := by
  simp only [Indexes.getPoapsByAttendee]
  split
  · rename_i h0
    simp [Shards.toList, Shards.used, Indexes.poapShards, h0, shardSize]
  · rfl

/-- The three tables of the POAPs. -/
structure SamePoaps (x y : Indexes) : Prop where
  minted : y.poapMinted = x.poapMinted
  shard : y.poapsByAttendee = x.poapsByAttendee
  count : y.poapsByAttendeeCount = x.poapsByAttendeeCount

theorem SamePoaps.refl (x : Indexes) : SamePoaps x x := ⟨rfl, rfl, rfl⟩

theorem SamePoaps.trans {y z : Indexes} (h : SamePoaps x y) (h' : SamePoaps y z) :
    SamePoaps x z :=
  ⟨h'.minted.trans h.minted, h'.shard.trans h.shard, h'.count.trans h.count⟩

/-- The lists hold exactly the flagged ids, each once, and `U` holds of them. -/
structure Badges (x : Indexes) (U : String → Prop) : Prop where
  packed : ∀ a, (x.poapShards a).Packed shardSize
  nodup : ∀ a, (x.getPoapsByAttendee a).Nodup
  unique : ∀ i a b, i ∈ x.getPoapsByAttendee a → i ∈ x.getPoapsByAttendee b → a = b
  flag : ∀ i, x.poapMinted i = true ↔ ∃ a, i ∈ x.getPoapsByAttendee a
  used : ∀ i, x.poapMinted i = true → U i

namespace Badges

theorem mono (h : Badges x U) (hU : ∀ i, U i → V i) : Badges x V :=
  { h with used := fun i hi => hU i (h.used i hi) }

theorem congr {y : Indexes} (h : Badges x U) (hs : SamePoaps x y) : Badges y U := by
  have hshards : y.poapShards = x.poapShards := by
    funext a
    simp only [Indexes.poapShards, hs.shard, hs.count]
  have hget : y.getPoapsByAttendee = x.getPoapsByAttendee := by
    funext a
    rw [getPoapsByAttendee_eq, getPoapsByAttendee_eq, hshards]
  refine ⟨?_, ?_, ?_, ?_, ?_⟩
  · rw [hshards]; exact h.packed
  · rw [hget]; exact h.nodup
  · rw [hget]; exact h.unique
  · rw [hget, hs.minted]; exact h.flag
  · rw [hs.minted]; exact h.used

theorem poapShards_mint :
    (x.markPoapMinted i a).poapShards =
      update x.poapShards a ((x.poapShards a).push shardSize i) :=
  Shards.table_push a

/-- The list of the attendee grows by the id, the other lists stay. -/
theorem getPoapsByAttendee_mint (h : Badges x U) (b : Address) :
    (x.markPoapMinted i a).getPoapsByAttendee b =
      if b = a then x.getPoapsByAttendee a ++ [i] else x.getPoapsByAttendee b := by
  rw [getPoapsByAttendee_eq, poapShards_mint]
  split
  · rename_i hba
    rw [hba, update_self, Shards.toList_push shardSize_pos (h.packed a), getPoapsByAttendee_eq]
  · rename_i hba
    rw [update_of_ne hba, getPoapsByAttendee_eq]

theorem mem_mint (h : Badges x U) :
    j ∈ (x.markPoapMinted i a).getPoapsByAttendee b ↔
      j ∈ x.getPoapsByAttendee b ∨ b = a ∧ j = i := by
  rw [h.getPoapsByAttendee_mint]
  split
  · rename_i hba
    subst hba
    simp
  · rename_i hba
    simp [hba]

theorem mint (h : Badges x U) (hi : x.poapMinted i = false) (hU : U i) :
    Badges (x.markPoapMinted i a) U := by
  have hnew (b : Address) : i ∉ x.getPoapsByAttendee b := by
    intro hb
    rw [(h.flag i).mpr ⟨b, hb⟩] at hi
    cases hi
  have hminted : (x.markPoapMinted i a).poapMinted = update x.poapMinted i true := rfl
  refine ⟨fun b => ?_, fun b => ?_, fun j b c hb hc => ?_, fun j => ?_, fun j hj => ?_⟩
  · rw [poapShards_mint]
    by_cases hba : b = a
    · subst hba
      rw [update_self]
      exact (h.packed b).push shardSize_pos
    · rw [update_of_ne hba]
      exact h.packed b
  · rw [h.getPoapsByAttendee_mint]
    split
    · rw [← List.concat_eq_append]
      exact .concat (hnew a) (h.nodup a)
    · exact h.nodup b
  · rcases h.mem_mint.mp hb with hin | ⟨rfl, rfl⟩
    · rcases h.mem_mint.mp hc with hin' | ⟨-, rfl⟩
      · exact h.unique j b c hin hin'
      · exact absurd hin (hnew b)
    · rcases h.mem_mint.mp hc with hin' | ⟨rfl, -⟩
      · exact absurd hin' (hnew c)
      · rfl
  · rw [hminted]
    by_cases hji : j = i
    · subst hji
      rw [update_self]
      exact ⟨fun _ => ⟨a, h.mem_mint.mpr (.inr ⟨rfl, rfl⟩)⟩, fun _ => rfl⟩
    · rw [update_of_ne hji, h.flag]
      simp only [h.mem_mint, hji, and_false, or_false]
  · rw [hminted] at hj
    by_cases hji : j = i
    · exact hji ▸ hU
    · rw [update_of_ne hji] at hj
      exact h.used j hj

end Badges

/-! ## What the other calls leave alone -/

/-- The ticket is checked in. -/
def Records.CheckedIn (r : Records) (i : String) : Prop :=
  ∃ p, r.payment i = some p ∧ p.status = .checkedIn

/-- The POAPs are left alone and no ticket becomes checked in. -/
structure Unattended (r r' : Records) : Prop where
  poaps : SamePoaps r.index r'.index
  checkedIn : ∀ i, r'.CheckedIn i → r.CheckedIn i

namespace Unattended

theorem refl (r : Records) : Unattended r r := ⟨.refl _, fun _ h => h⟩

theorem trans {r'' : Records} (h : Unattended r r') (h' : Unattended r' r'') : Unattended r r'' :=
  ⟨h.poaps.trans h'.poaps, fun i hi => h.checkedIn i (h'.checkedIn i hi)⟩

/-- Writing a record that is not checked in, or was before. -/
theorem of_write {p : Payment} (hx : SamePoaps r.index r'.index)
    (hw : r'.payment = update r.payment i (some p))
    (hp : p.status = .checkedIn → r.CheckedIn i) : Unattended r r' := by
  refine ⟨hx, ?_⟩
  rintro j ⟨q, hq, hs⟩
  rw [hw] at hq
  by_cases hji : j = i
  · subst hji
    rw [update_self, Option.some.injEq] at hq
    exact hp (hq ▸ hs)
  · rw [update_of_ne hji] at hq
    exact ⟨q, hq, hs⟩

theorem samePoaps_store (r : Records) (p : Payment) : SamePoaps r.index (r.store p).index := by
  unfold Records.store Indexes.addPaymentToStatusIndex Indexes.addPaymentToBuyerIndex
    Indexes.addPaymentToEventIndex
  dsimp only
  split
  · exact .refl _
  · split <;> split <;> split <;> exact ⟨rfl, rfl, rfl⟩

theorem samePoaps_setStatus (r : Records) (old : PaymentStatus) (p : Payment) :
    SamePoaps r.index (r.setStatus i old p).index := by
  unfold Records.setStatus Indexes.updatePaymentStatusIndex Indexes.addPaymentToStatusIndex
    Indexes.removePaymentFromStatusIndex
  dsimp only
  split
  · exact .refl _
  · split <;> exact ⟨rfl, rfl, rfl⟩

theorem samePoaps_reassign (r : Records) (p : Payment) :
    SamePoaps r.index (r.reassign i p a b).index := by
  unfold Records.reassign Indexes.addPaymentToBuyerIndex Indexes.removePaymentFromBuyerIndex
  dsimp only
  split <;> split <;> exact ⟨rfl, rfl, rfl⟩

theorem store {p : Payment} (hp : p.status = .checkedIn → r.CheckedIn p.paymentId) :
    Unattended r (r.store p) :=
  of_write (samePoaps_store r p) rfl hp

theorem setStatus {old : PaymentStatus} {p : Payment} (hp : p.status ≠ .checkedIn) :
    Unattended r (r.setStatus i old p) :=
  of_write (samePoaps_setStatus r old p) rfl fun h => absurd h hp

theorem reassign {p : Payment} (hp : r.payment i = some p) : Unattended r (r.reassign i p a b) :=
  of_write (samePoaps_reassign r p) rfl fun hs => ⟨p, hp, hs⟩

theorem closeAll {ids : List String} {now : Nat} (hk : r.Keyed) :
    Unattended r (ids.foldl (Records.closeOne now) r) := by
  refine Records.closeAll_inv (I := Unattended r) ids (fun r' i _ p _ h _ _ => ?_) hk (.refl r)
  refine h.trans (.store fun hs => ?_)
  cases hs

theorem shareAll {ids : List String} {pct : Nat} (hk : r.Keyed) :
    Unattended r (ids.foldl (Records.shareOne pct) r) := by
  refine Records.shareAll_inv (I := Unattended r) ids
    (fun r' i p q _ h hp hid _ _ hst => ?_) hk (.refl r)
  refine h.trans (.store fun hs => ?_)
  rw [hid]
  exact ⟨p, hp, hst ▸ hs⟩

theorem sale {p : Purchase} {now : Nat} {q : Quote} (ks : List Nat) :
    Unattended r (ks.foldl (fun r k => r.store (p.ticket now q k)) r) :=
  List.foldlRecOn (motive := Unattended r) ks _ (.refl r) fun _ h _ _ =>
    h.trans (.store fun hs => by cases hs)

end Unattended

/-- A call that mints, or checks a ticket in. -/
def Op.attends : Op → Bool
  | .checkIn .. | .mintPoap .. => true
  | _ => false

/-- **The other calls** leave the POAPs alone and check no ticket in. -/
theorem Filing.unattended {op : Op} (hw : Sound host w) (hop : op.attends = false)
    (hf : Filing env w op r') : Unattended w.records r' := by
  cases hf with
  | same => exact .refl _
  | minting => cases hop
  | sale => exact .sale _
  | confirm => exact .setStatus fun hs => by cases hs
  | checkIn => cases hop
  | refund => exact .setStatus fun hs => by cases hs
  | bulkRefund => exact .closeAll hw.keyed
  | cascade => exact .closeAll hw.keyed
  | partialRefund => exact .shareAll hw.keyed
  | transfer stored => exact .reassign stored
  | resale _ _ _ stored => exact .reassign stored
  | auction => exact .store fun hs => by cases hs

/-! ## The calls that mint -/

theorem mintPoap_eq_ok (env : Env host) (h : mintPoap env w i = .ok w') :
    w.records.CheckedIn i ∧ w.index.poapMinted i = false ∧
      ∃ a, w' = { w with index := w.index.markPoapMinted i a } := by
  simp only [mintPoap, bind_eq_ok, ensure_eq_ok, getPayment_eq_ok, pure_eq_ok] at h
  obtain ⟨_, -, _, -, p, hp, _, hs, _, hm, rfl⟩ := h
  exact ⟨⟨p, hp, hs⟩, hm, p.buyerAddress, rfl⟩

/-- A check-in marks the ticket and mints its POAP unless it has one. -/
theorem checkIn_mints {scanner : Address} {secret : Bytes} (hw : Sound host w)
    (h : checkIn env w i scanner secret = .ok w') :
    (∀ j, w'.records.CheckedIn j → j = i ∨ w.records.CheckedIn j) ∧
      (SamePoaps w.index w'.index ∨
        ∃ x a, SamePoaps w.index x ∧ x.poapMinted i = false ∧
          w'.index = x.markPoapMinted i a) := by
  simp only [checkIn, bind_eq_ok, getPayment_eq_ok] at h
  obtain ⟨_, -, _, -, p, hp, _, -, _, -, _, -, _, -, _, -, _, -, h⟩ := h
  have hid : p.paymentId = i := hw.keyed i p hp
  have hother : ∀ j, (w.records.store
      { p with status := .checkedIn, lastCheckedInAt := env.timestamp }).CheckedIn j →
      j = i ∨ w.records.CheckedIn j := by
    rintro j ⟨q, hq, hs⟩
    by_cases hj : j = i
    · exact .inl hj
    · simp only [Records.store, hid, update_of_ne hj] at hq
      exact .inr ⟨q, hq, hs⟩
  have hsame := Unattended.samePoaps_store w.records
    { p with status := .checkedIn, lastCheckedInAt := env.timestamp }
  split at h <;> obtain rfl := pure_eq_ok.mp h
  · exact ⟨hother, .inl hsame⟩
  · rename_i hm
    exact ⟨hother, .inr ⟨_, _, hsame, Bool.eq_false_iff.mpr hm, rfl⟩⟩

/-! ## Whole runs -/

/-- The step is a check-in of the ticket. -/
def Step.checksIn (i : String) : Step host → Prop
  | .call _ (.checkIn j _ _) => j = i
  | _ => False

/-- The ticket was checked in by one of the steps. -/
def WasCheckedIn (hist : List (World × Step host × World)) (i : String) : Prop :=
  ∃ entry ∈ hist, entry.2.1.checksIn i

/-- The POAPs are in order, and the tickets that have one or may get one by
`mint_poap` were checked in. -/
structure Attended (w : World) (hist : List (World × Step host × World)) : Prop where
  sound : Sound host w
  badges : Badges w.index (WasCheckedIn hist)
  checkedIn : ∀ i, w.records.CheckedIn i → WasCheckedIn hist i

theorem WasCheckedIn.concat {hist : List (World × Step host × World)}
    {entry : World × Step host × World} (h : WasCheckedIn hist i) :
    WasCheckedIn (hist ++ [entry]) i := by
  obtain ⟨e, he, hi⟩ := h
  exact ⟨e, List.mem_append_left _ he, hi⟩

theorem WasCheckedIn.last {hist : List (World × Step host × World)} {scanner : Address}
    {secret : Bytes} : WasCheckedIn (hist ++ [(w, .call env (.checkIn i scanner secret), w')]) i :=
  ⟨_, List.mem_append_right _ (List.mem_singleton_self _), rfl⟩

theorem Attended.step {hist : List (World × Step host × World)} {s : Step host}
    (h : Attended w hist) (hok : step w s = .ok w') :
    Attended w' (hist ++ [(w, s, w')]) := by
  have hw' := h.sound.step hok
  -- what holds of the history so far holds of the longer one
  have hmono := h.badges.mono (V := WasCheckedIn (hist ++ [(w, s, w')])) fun _ => .concat
  have hchecked : ∀ i, w.records.CheckedIn i → WasCheckedIn (hist ++ [(w, s, w')]) i :=
    fun i hi => (h.checkedIn i hi).concat
  cases s with
  | outside tokens sent =>
    obtain rfl := pure_eq_ok.mp hok
    exact ⟨hw', hmono, hchecked⟩
  | call env op =>
    cases hop : op.attends with
    | false =>
      have hq := (call_filing h.sound.toSetup hok).1.unattended h.sound hop
      exact ⟨hw', hmono.congr hq.poaps, fun i hi => hchecked i (hq.checkedIn i hi)⟩
    | true =>
      cases op <;> first | (cases hop; done) | skip
      case mintPoap i =>
        obtain ⟨hin, hm, a, rfl⟩ := mintPoap_eq_ok env hok
        exact ⟨hw', hmono.mint hm (hchecked i hin), hchecked⟩
      case checkIn i scanner secret =>
        obtain ⟨hin, hp⟩ := checkIn_mints h.sound hok
        refine ⟨hw', ?_, fun j hj => ?_⟩
        · rcases hp with hsame | ⟨x, a, hsame, hm, hx⟩
          · exact hmono.congr hsame
          · rw [hx]
            exact (hmono.congr hsame).mint hm .last
        · rcases hin j hj with rfl | hj
          · exact .last
          · exact hchecked j hj

theorem Attended.fresh (h : Fresh host w) :
    Attended w ([] : List (World × Step host × World)) := by
  refine ⟨.fresh h, ?_, ?_⟩ <;> obtain ⟨tokens, -, rfl⟩ := h
  · refine ⟨fun _ _ _ => rfl, ?_, ?_, ?_, ?_⟩ <;>
      simp [World.empty, Indexes.getPoapsByAttendee]
  · simp [World.records, World.empty, Records.CheckedIn]

/-- **POAPs are unique.** In every state that a run reaches, an id is in at most
one list and there once, it is in some list exactly when its flag is set, and
then its ticket was checked in by an earlier step. -/
theorem poaps_unique {w0 : World} (h0 : Fresh host w0) (steps : List (Step host)) :
    (∀ a, ((run step w0 steps).index.getPoapsByAttendee a).Nodup) ∧
      (∀ i a b, i ∈ (run step w0 steps).index.getPoapsByAttendee a →
        i ∈ (run step w0 steps).index.getPoapsByAttendee b → a = b) ∧
      (∀ i, (∃ a, i ∈ (run step w0 steps).index.getPoapsByAttendee a) ↔
        (run step w0 steps).index.poapMinted i = true) ∧
      ∀ i a, i ∈ (run step w0 steps).index.getPoapsByAttendee a →
        ∃ entry ∈ history step w0 steps, ∃ env scanner secret,
          entry.2.1 = .call env (.checkIn i scanner secret) := by
  have h : Attended (run step w0 steps) (history step w0 steps) :=
    Along.history_inv (I := Attended) (fun w s w' hist h _ hok => h.step hok) Along.trivial
      (.fresh h0)
  refine ⟨h.badges.nodup, h.badges.unique, fun i => (h.badges.flag i).symm, fun i a hi => ?_⟩
  obtain ⟨⟨v, s, v'⟩, hmem, hs⟩ := h.badges.used i ((h.badges.flag i).mpr ⟨a, hi⟩)
  refine ⟨_, hmem, ?_⟩
  cases s with
  | outside tokens sent => cases hs
  | call env op =>
    cases op <;> first | (cases hs; done) | skip
    case checkIn j scanner secret =>
      obtain rfl : j = i := hs
      exact ⟨env, scanner, secret, rfl⟩

/-- A guest's ticket is scanned: the guest has its POAP. -/
theorem poaps_unique_scanned :
    Fresh Sample.node Sample.deployed ∧
      "t1" ∈ (run step Sample.deployed
        (Sample.soldRun ++ [Sample.byOrganizer Sample.event
          (.checkIn "t1" Sample.organizer [])])).index.getPoapsByAttendee Sample.alice ∧
      (run step Sample.deployed
        (Sample.soldRun ++ [Sample.byOrganizer Sample.event
          (.checkIn "t1" Sample.organizer [])])).index.poapMinted "t1" = true := by
  have hin : "t1" ∈ (run step Sample.deployed
      (Sample.soldRun ++ [Sample.byOrganizer Sample.event
        (.checkIn "t1" Sample.organizer [])])).index.getPoapsByAttendee Sample.alice := by
    decide
  exact ⟨Sample.deployed_fresh, hin,
    ((poaps_unique Sample.deployed_fresh _).2.2.1 "t1").mp ⟨Sample.alice, hin⟩⟩

end Agora.TicketPayment
