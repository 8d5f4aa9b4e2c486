import Agora.TicketPayment.Records
import Agora.Lib.Index

/-!
# The buyer index

`get_buyer_payments` against the records. The tickets of an address are kept
in shards with a flag for each entry (`Agora.Lib.Index`). `Files x H` says
that the index `x` lists exactly the pairs of `H`, which the records decide:
`H b i` when `b` holds the ticket `i`. Entering and taking out a pair keep it,
the latter as long as no shard drops out of reach with entries left in it.
-/

namespace Agora.TicketPayment

open Lib Function

variable {host : Host} {env : Env host} {w w' : World} {x : Indexes} {r : Records}
  {b c : Address} {i j : String} {p : Payment}

/-- The shards of one buyer. -/
def Indexes.buyerShards (x : Indexes) (buyer : Address) : Shards String where
  shard k := x.buyerPaymentShard (buyer, k)
  count := x.buyerPaymentCount buyer

theorem getBuyerPayments_eq (x : Indexes) (b : Address) :
    x.getBuyerPayments b = (x.buyerShards b).toList shardSize := by
  simp only [Indexes.getBuyerPayments]
  split
  · rename_i h0
    simp [Shards.toList, Shards.used, Indexes.buyerShards, h0, shardSize]
  · rfl

/-- The address holds the ticket. -/
def Records.Holds (r : Records) (buyer : Address) (paymentId : String) : Prop :=
  ∃ p, r.payment paymentId = some p ∧ p.buyerAddress = buyer

/-- The index lists for every address exactly the tickets it holds, each once. -/
def BuyerIndexExact (r : Records) : Prop :=
  ∀ b, (r.index.getBuyerPayments b).Nodup ∧ ∀ i, i ∈ r.index.getBuyerPayments b ↔ r.Holds b i

/-! ## The index alone -/

/-- The index files the pairs of `H`. -/
structure Files (x : Indexes) (H : Address → String → Prop) : Prop where
  nodup : ∀ b, (x.getBuyerPayments b).Nodup
  mem : ∀ b i, i ∈ x.getBuyerPayments b ↔ H b i
  packed : ∀ b, (x.buyerShards b).Packed shardSize
  flag : ∀ b i, x.buyerPayment (b, i) = true ↔ H b i

namespace Files

variable {H H' : Address → String → Prop}

theorem indexed (h : Files x H) : Indexed shardSize x.buyerPayment x.buyerShards H where
  nodup b := getBuyerPayments_eq x b ▸ h.nodup b
  mem b i := getBuyerPayments_eq x b ▸ h.mem b i
  packed := h.packed
  flag := h.flag

theorem of_indexed (h : Indexed shardSize x.buyerPayment x.buyerShards H) : Files x H where
  nodup b := getBuyerPayments_eq x b ▸ h.nodup b
  mem b i := getBuyerPayments_eq x b ▸ h.mem b i
  packed := h.packed
  flag := h.flag

theorem congr (h : Files x H) (hH : ∀ b i, H' b i ↔ H b i) : Files x H' :=
  of_indexed (h.indexed.congr hH)

theorem of_tables {y : Indexes} (h : Files x H) (hf : y.buyerPayment = x.buyerPayment)
    (hs : y.buyerPaymentShard = x.buyerPaymentShard)
    (hc : y.buyerPaymentCount = x.buyerPaymentCount) : Files y H := by
  have hsh : y.buyerShards = x.buyerShards := by
    funext b
    simp only [Indexes.buyerShards, hs, hc]
  have hget : y.getBuyerPayments = x.getBuyerPayments := by
    funext b
    rw [getBuyerPayments_eq, getBuyerPayments_eq, hsh]
  exact ⟨by rw [hget]; exact h.nodup, by rw [hget]; exact h.mem, by rw [hsh]; exact h.packed,
    by rw [hf]; exact h.flag⟩

theorem addPaymentToEventIndex {e i : String} (h : Files x H) :
    Files (x.addPaymentToEventIndex e i) H := by
  unfold Indexes.addPaymentToEventIndex
  split
  · exact h
  · exact h.of_tables rfl rfl rfl

theorem addPaymentToStatusIndex {e i : String} {s : PaymentStatus} (h : Files x H) :
    Files (x.addPaymentToStatusIndex e s i) H := by
  unfold Indexes.addPaymentToStatusIndex
  split
  · exact h
  · exact h.of_tables rfl rfl rfl

theorem updatePaymentStatusIndex {e i : String} {s t : PaymentStatus} (h : Files x H) :
    Files (x.updatePaymentStatusIndex e s t i) H :=
  (h.of_tables (y := x.removePaymentFromStatusIndex e s i) rfl rfl rfl).addPaymentToStatusIndex

end Files

/-! ## Entering -/

theorem buyerShards_add (hf : x.buyerPayment (b, i) = false) :
    (x.addPaymentToBuyerIndex b i).buyerShards =
      update x.buyerShards b ((x.buyerShards b).push shardSize i) := by
  simp only [Indexes.addPaymentToBuyerIndex, hf, Bool.false_eq_true, if_false]
  exact Shards.table_push b

theorem addPaymentToBuyerIndex_of_flag (hf : x.buyerPayment (b, i) = true) :
    x.addPaymentToBuyerIndex b i = x := by
  simp [Indexes.addPaymentToBuyerIndex, hf]

theorem buyerPayment_add :
    (x.addPaymentToBuyerIndex b i).buyerPayment = update x.buyerPayment (b, i) true := by
  unfold Indexes.addPaymentToBuyerIndex
  split
  · rename_i hf
    rw [← hf, update_eq_self]
  · rfl

theorem getBuyerPayments_add_of_ne (hcb : c ≠ b) :
    (x.addPaymentToBuyerIndex b i).getBuyerPayments c = x.getBuyerPayments c := by
  rw [getBuyerPayments_eq, getBuyerPayments_eq]
  cases hf : x.buyerPayment (b, i) with
  | true => rw [addPaymentToBuyerIndex_of_flag hf]
  | false => rw [buyerShards_add hf, update_of_ne hcb]

theorem Files.enter {H : Address → String → Prop} (h : Files x H) (hi : ¬ H b i) :
    Files (x.addPaymentToBuyerIndex b i) fun c j => H c j ∨ c = b ∧ j = i := by
  have hf := h.indexed.flag_eq_false hi
  apply Files.of_indexed
  rw [buyerPayment_add, buyerShards_add hf]
  exact h.indexed.enter shardSize_pos hi

/-! ## Taking out -/

theorem removePaymentFromBuyerIndex_of_find_none
    (h : ((List.range ((x.buyerPaymentCount b + shardSize - 1) / shardSize)).find? fun k =>
      (x.buyerPaymentShard (b, k)).contains i) = none) :
    x.removePaymentFromBuyerIndex b i = x := by
  simp only [Indexes.removePaymentFromBuyerIndex, h]

theorem removePaymentFromBuyerIndex_of_find_some {k : Nat}
    (h : ((List.range ((x.buyerPaymentCount b + shardSize - 1) / shardSize)).find? fun k =>
      (x.buyerPaymentShard (b, k)).contains i) = some k) :
    x.removePaymentFromBuyerIndex b i =
      { x with
        buyerPaymentShard := update x.buyerPaymentShard (b, k)
          ((x.buyerPaymentShard (b, k)).filter (· != i))
        buyerPaymentCount := update x.buyerPaymentCount b (x.buyerPaymentCount b - 1)
        buyerPayment := update x.buyerPayment (b, i) false } := by
  simp only [Indexes.removePaymentFromBuyerIndex, h]

theorem buyerShards_remove :
    (x.removePaymentFromBuyerIndex b i).buyerShards =
      update x.buyerShards b ((x.buyerShards b).remove shardSize i) := by
  cases hfind : (List.range ((x.buyerPaymentCount b + shardSize - 1) / shardSize)).find? fun k =>
      (x.buyerPaymentShard (b, k)).contains i with
  | none =>
    rw [removePaymentFromBuyerIndex_of_find_none hfind,
      Shards.remove_of_find_none (s := x.buyerShards b) hfind, update_eq_self]
  | some k =>
    rw [removePaymentFromBuyerIndex_of_find_some hfind]
    exact Shards.table_remove hfind

theorem buyerPayment_remove (h : i ∈ x.getBuyerPayments b) :
    (x.removePaymentFromBuyerIndex b i).buyerPayment = update x.buyerPayment (b, i) false := by
  cases hfind : (List.range ((x.buyerPaymentCount b + shardSize - 1) / shardSize)).find? fun k =>
      (x.buyerPaymentShard (b, k)).contains i with
  | none =>
    rw [getBuyerPayments_eq] at h
    obtain ⟨k, hk, hik⟩ := Shards.mem_toList.mp h
    have hno := List.find?_eq_none.mp hfind k (List.mem_range.mpr hk)
    exact absurd (List.contains_iff_mem.mpr hik) hno
  | some k => rw [removePaymentFromBuyerIndex_of_find_some hfind]

/-- Taking out an id that is not listed changes nothing. -/
theorem removePaymentFromBuyerIndex_of_notMem (h : i ∉ x.getBuyerPayments b) :
    x.removePaymentFromBuyerIndex b i = x := by
  rw [getBuyerPayments_eq] at h
  apply removePaymentFromBuyerIndex_of_find_none
  exact Shards.find_of_notMem h

theorem Files.leave {H : Address → String → Prop} (h : Files x H) (hi : H b i)
    (hl : (x.buyerShards b).LastFree shardSize i) :
    Files (x.removePaymentFromBuyerIndex b i) fun c j => H c j ∧ ¬ (c = b ∧ j = i) := by
  apply Files.of_indexed
  rw [buyerPayment_remove ((h.mem b i).mpr hi), buyerShards_remove]
  exact h.indexed.leave shardSize_pos hi hl

/-! ## The records -/

/-- The index files what the records say. -/
def Filed (r : Records) : Prop := Files r.index r.Holds

theorem Filed.indexExact (h : Filed r) : BuyerIndexExact r := fun b => ⟨h.nodup b, h.mem b⟩

theorem holds_update {y : Indexes} {q : Payment} :
    Records.Holds ⟨update r.payment i (some q), y⟩ b j ↔
      j = i ∧ q.buyerAddress = b ∨ j ≠ i ∧ r.Holds b j := by
  by_cases hji : j = i
  · subst hji
    simp [Records.Holds]
  · simp [Records.Holds, hji]

theorem holds_unique (h : r.Holds b i) (h' : r.Holds c i) : b = c := by
  obtain ⟨p, hp, rfl⟩ := h
  obtain ⟨q, hq, rfl⟩ := h'
  rw [Option.some.inj (hp.symm.trans hq)]

theorem holds_overwrite {y : Indexes} {q : Payment} (hp : r.payment i = some p)
    (hq : q.buyerAddress = p.buyerAddress) :
    Records.Holds ⟨update r.payment i (some q), y⟩ b j ↔ r.Holds b j := by
  rw [holds_update]
  by_cases hji : j = i
  · subst hji
    simp [Records.Holds, hp, hq]
  · simp [hji]

namespace Filed

theorem setStatus {old : PaymentStatus} {q : Payment} (h : Filed r) (hp : r.payment i = some p)
    (hq : q.buyerAddress = p.buyerAddress) : Filed (r.setStatus i old q) := by
  have hx : Files (r.setStatus i old q).index r.Holds := by
    unfold Records.setStatus
    dsimp only
    split
    · exact h
    · exact h.updatePaymentStatusIndex
  exact hx.congr fun _ _ => holds_overwrite hp hq

/-- `store_payment` keeps the index as long as it does not change a holder. -/
theorem store (h : Filed r)
    (hb : ∀ q, r.payment p.paymentId = some q → q.buyerAddress = p.buyerAddress) :
    Filed (r.store p) := by
  unfold Filed Records.store
  cases hq : r.payment p.paymentId with
  | some q =>
    simp only [Option.isSome_some, if_true]
    exact Files.congr h fun _ _ => holds_overwrite hq (hb q hq).symm
  | none =>
    -- a new id is held by nobody
    have hfree : ¬ r.Holds p.buyerAddress p.paymentId := by
      rintro ⟨q, hsome, -⟩
      rw [hq] at hsome
      cases hsome
    simp only [Option.isSome_none, Bool.false_eq_true, if_false]
    have hx := (h.addPaymentToEventIndex (e := p.eventId) (i := p.paymentId)).enter hfree
    refine (hx.addPaymentToStatusIndex (e := p.eventId) (s := p.status)).congr fun b j => ?_
    rw [holds_update]
    by_cases hj : j = p.paymentId
    · subst hj
      have hno : ¬ r.Holds b p.paymentId := by
        rintro ⟨q, hsome, -⟩
        rw [hq] at hsome
        cases hsome
      simp [hno, eq_comm]
    · simp [hj]

theorem mint {a : Address} (h : Filed r) : Filed (r.mint i a) := h.of_tables rfl rfl rfl

theorem reassign (h : Filed r) (hp : r.payment i = some p) (hne : p.buyerAddress ≠ b)
    (hl : (r.index.buyerShards p.buyerAddress).LastFree shardSize i) :
    Filed (r.reassign i p p.buyerAddress b) := by
  have hheld : r.Holds p.buyerAddress i := ⟨p, hp, rfl⟩
  have hfree : ¬ (r.Holds b i ∧ ¬ (b = p.buyerAddress ∧ i = i)) := by
    rintro ⟨hb, -⟩
    exact hne (holds_unique hheld hb)
  refine ((h.leave hheld hl).enter hfree).congr fun c j => ?_
  unfold Records.reassign
  rw [holds_update]
  by_cases hji : j = i
  · subst hji
    have hc : r.Holds c j ↔ c = p.buyerAddress :=
      ⟨fun hc => holds_unique hc hheld, fun hc => hc ▸ hheld⟩
    simp [hc, eq_comm]
  · simp [hji]

/-- A ticket that its holder buys from somebody else stays where it is. -/
theorem reassign_same (h : Filed r) (hp : r.payment i = some p) (hc : c ≠ p.buyerAddress) :
    Filed (r.reassign i p c p.buyerAddress) := by
  have hheld : r.Holds p.buyerAddress i := ⟨p, hp, rfl⟩
  have hno : i ∉ r.index.getBuyerPayments c := by
    rw [h.mem]
    exact fun hci => hc (holds_unique hci hheld)
  unfold Filed Records.reassign
  rw [removePaymentFromBuyerIndex_of_notMem hno,
    addPaymentToBuyerIndex_of_flag ((h.flag _ _).mpr hheld)]
  exact Files.congr h fun _ _ => holds_overwrite hp rfl

theorem closeAll {ids : List String} {now : Nat} (hk : r.Keyed) (h : Filed r) :
    Filed (ids.foldl (Records.closeOne now) r) := by
  refine Records.closeAll_inv ids (fun r i _ p hk h hp _ => h.store fun q hq => ?_) hk h
  have hid : (p.close now).paymentId = i := hk i p hp
  rw [hid, hp] at hq
  rw [← Option.some.inj hq]
  rfl

theorem shareAll {ids : List String} {pct : Nat} (hk : r.Keyed) (h : Filed r) :
    Filed (ids.foldl (Records.shareOne pct) r) := by
  refine Records.shareAll_inv ids (fun r i p q _ h hp hid _ hb _ => h.store fun s hs => ?_) hk h
  rw [hid, hp] at hs
  rw [← Option.some.inj hs, hb]

end Filed

/-! ## Runs -/

/-- The step keeps the index exact: no stored ticket is written over for
another holder, a resale takes the ticket from the listed seller, or sells it
to the one who has it, and no shard drops out of reach with entries in it. -/
def FilesExactly (w : World) : Step host → Prop
  | .outside _ _ => True
  | .call _ op =>
    match op with
    | .processPayment a => ∀ k < a.quantity, ∀ p, w.ledger.payment (a.ticketId k) = some p →
        p.buyerAddress = a.buyerAddress
    | .closeAuction i e tier => ∀ p bid, w.ledger.payment i = some p →
        w.ledger.highestBid (e, tier) = some bid → p.buyerAddress = bid.bidder
    | .transferTicket i _ _ => ∀ p, w.ledger.payment i = some p →
        (w.index.buyerShards p.buyerAddress).LastFree shardSize i
    | .purchaseResaleTicket i buyer _ => ∀ p x, w.ledger.payment i = some p →
        w.ledger.resaleListing i = some x → p.buyerAddress = buyer ∨
          p.buyerAddress = x.seller ∧
            (w.index.buyerShards p.buyerAddress).LastFree shardSize i
    | _ => True

theorem Filed.sale {a : Purchase} {now : Nat} {q : Quote} {ks : List Nat} (h : Filed r)
    (hb : ∀ k ∈ ks, ∀ p, r.payment (a.ticketId k) = some p →
      p.buyerAddress = a.buyerAddress) :
    Filed (ks.foldl (fun r k => r.store (a.ticket now q k)) r) := by
  exact Records.sale_inv (Q := fun p => p.buyerAddress = a.buyerAddress)
    (fun r k _ h hb => h.store hb) (fun _ => rfl) h hb

/-- A call that meets the condition keeps the index exact. -/
theorem Filed.filing {op : Op} {r' : Records} (hw : Sound host w) (h : Filed w.records)
    (hC : FilesExactly w (.call env op)) (hf : Filing env w op r') : Filed r' := by
  cases hf with
  | same => exact h
  | minting => exact h.mint
  | sale => exact h.sale fun k hk => hC k (List.mem_range.mp hk)
  | confirm stored => exact h.setStatus stored rfl
  | @checkIn i _ _ p _ stored _ written =>
    have hid := hw.keyed i p stored
    have hstore : Filed (w.records.store
        { p with status := .checkedIn, lastCheckedInAt := env.timestamp }) := by
      refine h.store fun q hq => ?_
      rw [hid] at hq
      rw [Option.some.inj (stored.symm.trans hq)]
    rcases written with rfl | rfl
    · exact hstore
    · exact hstore.mint
  | refund _ stored => exact h.setStatus stored rfl
  | bulkRefund => exact h.closeAll hw.keyed
  | cascade => exact h.closeAll hw.keyed
  | partialRefund => exact h.shareAll hw.keyed
  | transfer stored _ other => exact h.reassign stored other (hC _ stored)
  | @resale i buyer _ listing p listed _ other stored =>
    rcases hC p listing stored listed with hsame | ⟨hseller, hl⟩
    · subst hsame
      exact h.reassign_same stored other.symm
    · rw [← hseller] at other ⊢
      exact h.reassign stored other.symm hl
  | auction won =>
    exact h.store fun q hq => hC q _ hq won

/-! ### The condition is needed -/

theorem getBuyerPayments_addPaymentToEventIndex {e : String} :
    (x.addPaymentToEventIndex e i).getBuyerPayments = x.getBuyerPayments := by
  unfold Indexes.addPaymentToEventIndex
  split <;> rfl

theorem getBuyerPayments_addPaymentToStatusIndex {e : String} {s : PaymentStatus} :
    (x.addPaymentToStatusIndex e s i).getBuyerPayments = x.getBuyerPayments := by
  unfold Indexes.addPaymentToStatusIndex
  split <;> rfl

/-- Storing a ticket leaves the lists of the other addresses alone. -/
theorem getBuyerPayments_store_of_ne (hb : b ≠ p.buyerAddress) :
    (r.store p).index.getBuyerPayments b = r.index.getBuyerPayments b := by
  unfold Records.store
  dsimp only
  split
  · rfl
  · rw [getBuyerPayments_addPaymentToStatusIndex, getBuyerPayments_add_of_ne hb,
      getBuyerPayments_addPaymentToEventIndex]

theorem getBuyerPayments_sale_of_ne {a : Purchase} (now : Nat) (q : Quote) (ks : List Nat)
    (hb : b ≠ a.buyerAddress) :
    (ks.foldl (fun r k => r.store (a.ticket now q k)) r).index.getBuyerPayments b =
      r.index.getBuyerPayments b := by
  induction ks generalizing r with
  | nil => rfl
  | cons k ks ih => exact ih.trans (getBuyerPayments_store_of_ne hb)

/-- A change of holder that leaves the index exact cut off nothing. -/
theorem Filed.lastFree_of_exact (h : Filed r) (hp : r.payment i = some p)
    (hne : p.buyerAddress ≠ b) (hx : BuyerIndexExact (r.reassign i p p.buyerAddress b)) :
    (r.index.buyerShards p.buyerAddress).LastFree shardSize i := by
  by_contra hl
  have hnodup := h.nodup p.buyerAddress
  have hi := (h.mem p.buyerAddress i).mpr ⟨p, hp, rfl⟩
  rw [getBuyerPayments_eq] at hnodup hi
  obtain ⟨j, hj, hji, hlost⟩ :=
    Shards.exists_lost shardSize_pos (h.packed p.buyerAddress) hnodup hi hl
  rw [← getBuyerPayments_eq, h.mem] at hj
  -- the lost ticket still has its holder
  have hheld : (r.reassign i p p.buyerAddress b).Holds p.buyerAddress j :=
    holds_update.mpr (.inr ⟨hji, hj⟩)
  rw [← (hx p.buyerAddress).2 j] at hheld
  unfold Records.reassign at hheld
  rw [getBuyerPayments_add_of_ne hne, getBuyerPayments_eq, buyerShards_remove,
    update_self] at hheld
  exact hlost hheld

/-- A stored ticket that is written over for another holder stays in the list
of the one who had it. -/
theorem Filed.sale_needs {a : Purchase} {now k : Nat} {q : Quote} (h : Filed r)
    (hx : BuyerIndexExact
      ((List.range a.quantity).foldl (fun r k => r.store (a.ticket now q k)) r))
    (hk : k < a.quantity) (hp : r.payment (a.ticketId k) = some p) :
    p.buyerAddress = a.buyerAddress := by
  by_contra hne
  have hlisted := (h.mem p.buyerAddress (a.ticketId k)).mpr ⟨p, hp, rfl⟩
  rw [← getBuyerPayments_sale_of_ne now q (List.range a.quantity) hne,
    (hx p.buyerAddress).2] at hlisted
  -- the buyer holds every id that was written
  obtain ⟨m, hm⟩ := Records.sale_written r now q
    ⟨k, List.mem_range.mpr hk, rfl⟩
  exact hne (holds_unique hlisted ⟨_, hm, rfl⟩)

theorem Filed.auction_needs {q : Payment} (h : Filed r) (hx : BuyerIndexExact (r.store q))
    (hp : r.payment q.paymentId = some p) : p.buyerAddress = q.buyerAddress := by
  by_contra hne
  have hlisted := (h.mem p.buyerAddress q.paymentId).mpr ⟨p, hp, rfl⟩
  rw [← getBuyerPayments_store_of_ne hne, (hx p.buyerAddress).2] at hlisted
  exact hne (holds_unique hlisted (holds_update.mpr (.inl ⟨rfl, rfl⟩)))

/-- A ticket that is sold past its holder stays in his list. -/
theorem Filed.resale_needs {seller buyer : Address} (h : Filed r) (hp : r.payment i = some p)
    (ho : buyer ≠ seller) (hx : BuyerIndexExact (r.reassign i p seller buyer)) :
    p.buyerAddress = buyer ∨ p.buyerAddress = seller ∧
      (r.index.buyerShards p.buyerAddress).LastFree shardSize i := by
  by_cases hb : p.buyerAddress = buyer
  · exact .inl hb
  refine .inr ?_
  by_cases hs : p.buyerAddress = seller
  · subst hs
    exact ⟨rfl, h.lastFree_of_exact hp hb hx⟩
  · have hheld : r.Holds p.buyerAddress i := ⟨p, hp, rfl⟩
    have hno : i ∉ r.index.getBuyerPayments seller := by
      rw [h.mem]
      exact fun hsi => hs (holds_unique hheld hsi)
    have hlisted := (h.mem p.buyerAddress i).mpr hheld
    rw [← removePaymentFromBuyerIndex_of_notMem hno,
      ← getBuyerPayments_add_of_ne (b := buyer) (i := i) hb] at hlisted
    have hstill := ((hx p.buyerAddress).2 i).mp hlisted
    exact absurd (holds_unique hstill (holds_update.mpr (.inl ⟨rfl, rfl⟩))) hb

/-- A call after which the index is exact met the condition. -/
theorem Filed.needs {op : Op} {r' : Records} (h : Filed w.records) (hf : Filing env w op r')
    (hx : BuyerIndexExact r') : FilesExactly w (.call env op) := by
  cases hf with
  | same idle => cases op <;> first | exact trivial | cases idle
  | sale => exact fun k hk p hp => h.sale_needs hx hk hp
  | transfer stored _ other =>
    intro p hp
    obtain rfl := Option.some.inj (stored.symm.trans hp)
    exact h.lastFree_of_exact stored other hx
  | resale listed _ other stored =>
    intro p x hp hl
    obtain rfl := Option.some.inj (stored.symm.trans hp)
    obtain rfl := Option.some.inj (listed.symm.trans hl)
    exact h.resale_needs stored other hx
  | auction won =>
    intro p bid hp hb
    obtain rfl := Option.some.inj (won.symm.trans hb)
    exact h.auction_needs hx hp
  | refund kind => cases op <;> first | exact trivial | cases kind
  | minting | confirm | checkIn | bulkRefund | cascade | partialRefund => exact trivial

theorem Filed.fresh (h : Fresh host w) : Filed w.records := by
  obtain ⟨tokens, -, rfl⟩ := h
  refine ⟨?_, ?_, ?_, ?_⟩ <;>
    simp [World.records, World.empty, Indexes.getBuyerPayments, Indexes.buyerShards,
      Records.Holds, Shards.Packed]

/-- **The buyer index.** A run lists in every state it reaches, for every
address, exactly the tickets the address holds, each once, if and only if each
of its steps meets the condition. -/
theorem buyerIndex_exact_iff {w0 : World} (h0 : Fresh host w0) (steps : List (Step host)) :
    (∀ pre, pre <+: steps → BuyerIndexExact (run step w0 pre).records) ↔
      Along step FilesExactly w0 steps := by
  refine Along.iff_forall_prefix (I := fun w => Sound host w ∧ Filed w.records)
    (P := fun w => BuyerIndexExact w.records) ?_ (fun w h => h.2.indexExact) ?_
    ⟨.fresh h0, .fresh h0⟩
  · rintro w s w' ⟨hw, h⟩ hC hok
    exact ⟨hw.step hok, step_records (fun env op r' hC hf => h.filing hw hC hf) hw h hC hok⟩
  · rintro w s w' ⟨hw, h⟩ hok hx
    cases s with
    | call env op => exact h.needs (call_filing hw.toSetup hok).1 hx
    | outside tokens sent => exact trivial

namespace Sample

/-- A confirmed ticket changes hands. -/
def givenRun : List (Step node) := soldRun ++ [byAlice event (.transferTicket "t1" bob none)]

/-- The organizer buys the stale offer, past the guest who has the ticket. -/
def resoldRun : List (Step node) :=
  staleRun ++ [byOrganizer event (.purchaseResaleTicket "t1" organizer 500)]

end Sample

theorem buyerIndex_exact_given :
    Fresh Sample.node Sample.deployed ∧
      ∀ pre, pre <+: Sample.givenRun →
        BuyerIndexExact (run step Sample.deployed pre).records := by
  refine ⟨Sample.deployed_fresh,
    (buyerIndex_exact_iff Sample.deployed_fresh Sample.givenRun).mpr ?_⟩
  refine ⟨fun _ _ => trivial, fun _ _ => ?_, fun _ _ => trivial, fun _ _ => ?_, trivial⟩
  · intro k hk p hp
    have hnone : (run step Sample.deployed [Sample.start]).ledger.payment "t1" = none := by decide
    exact absurd (hnone.symm.trans hp) (by simp)
  · intro p hp
    have hbuyer : ((run step Sample.deployed Sample.soldRun).ledger.payment "t1").map
        (·.buyerAddress) = some Sample.alice := by decide
    have hb : p.buyerAddress = Sample.alice := by
      have hmap := congrArg (Option.map Payment.buyerAddress) hp
      exact Option.some.inj (hmap.symm.trans hbuyer)
    rw [hb]
    rintro - j hj
    have hshard : ((run step Sample.deployed Sample.soldRun).index.buyerShards
        Sample.alice).shard 0 = ["t1"] := by decide
    exact List.mem_singleton.mp (hshard ▸ hj)

/-- The guest who was passed over is still listed with the ticket. -/
theorem buyerIndex_not_exact_resold :
    Fresh Sample.node Sample.deployed ∧
      ¬ BuyerIndexExact (run step Sample.deployed Sample.resoldRun).records := by
  refine ⟨Sample.deployed_fresh, fun h => ?_⟩
  obtain ⟨p, hp, hb⟩ := ((h Sample.bob).2 "t1").mp (by decide)
  have hbuyer : ((run step Sample.deployed Sample.resoldRun).ledger.payment "t1").map
      (·.buyerAddress) = some Sample.organizer := by decide
  have hmap := congrArg (Option.map Payment.buyerAddress) hp
  have heq := Option.some.inj (hmap.symm.trans hbuyer)
  exact absurd (hb.symm.trans heq) (by decide)

end Agora.TicketPayment
