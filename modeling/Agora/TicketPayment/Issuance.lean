import Agora.TicketPayment.Invariants
import Mathlib.Data.Set.Card
import Mathlib.Tactic.IntervalCases

/-!
# Issuing tickets

The records that a purchase writes. A purchase of one ticket writes under the
id its buyer chose, which is checked to be free. A purchase of several writes
under generated ids, of which there are six for the whole contract and none is
checked: `issuance_exact_iff` says when it creates as many tickets as were
bought and leaves every other record alone.
-/

namespace Agora.TicketPayment

open Lib Function

variable {host : Host} {env : Env host} {w w' : World} {l : Ledger} {a : Purchase}

/-- The ids a purchase writes. -/
def Purchase.ids (a : Purchase) : Finset String := (Finset.range a.quantity).image a.ticketId

theorem Purchase.mem_ids {i : String} : i ∈ a.ids ↔ ∃ k < a.quantity, a.ticketId k = i := by
  simp [Purchase.ids]

/-- The first six generated ids are distinct. -/
theorem subPaymentId_inj {id : String} {n k m : Nat} (hn : n ≠ 1) (hk : k < 6) (hm : m < 6)
    (h : subPaymentId id n k = subPaymentId id n m) : k = m := by
  simp only [subPaymentId, if_neg hn] at h
  interval_cases k <;> interval_cases m <;> first | rfl | exact absurd h (by decide)

/-- From the sixth on there is one id. -/
theorem subPaymentId_min {id : String} {n k : Nat} :
    subPaymentId id n k = subPaymentId id n (min k 5) := by
  by_cases hk : k ≤ 5
  · rw [min_eq_left hk]
  · rw [min_eq_right (by omega)]
    simp only [subPaymentId]
    split
    · rfl
    · split <;> first | rfl | omega

theorem Purchase.card_ids (a : Purchase) :
    a.ids.card = if a.quantity = 1 then 1 else min a.quantity 6 := by
  split
  · next h1 => simp [Purchase.ids, h1]
  next h1 =>
  have himage : a.ids = (Finset.range (min a.quantity 6)).image a.ticketId := by
    ext i
    simp only [Purchase.mem_ids, Finset.mem_image, Finset.mem_range]
    constructor
    · rintro ⟨k, hk, rfl⟩
      exact ⟨min k 5, by omega, subPaymentId_min.symm⟩
    · rintro ⟨k, hk, rfl⟩
      exact ⟨k, by omega, rfl⟩
  rw [himage, Finset.card_image_of_injOn, Finset.card_range]
  intro k hk m hm h
  simp only [Finset.coe_range, Set.mem_Iio] at hk hm
  exact subPaymentId_inj h1 (by omega) (by omega) h

/-! ## The loop -/

section Loop

variable (now : Nat) (q : Quote) {i : String}

theorem issueAll_of_not_mem {ks : List Nat} (h : ∀ k ∈ ks, a.ticketId k ≠ i) :
    (ks.foldl (Ledger.issue a now q) l).payment i = l.payment i ∧
      (ks.foldl (Ledger.issue a now q) l).validationHash i = l.validationHash i := by
  refine List.foldlRecOn (motive := fun l' : Ledger => l'.payment i = l.payment i ∧
    l'.validationHash i = l.validationHash i) ks _ ⟨rfl, rfl⟩ fun l' hl' k hk => ?_
  simpa [Ledger.issue, update_of_ne (h k hk).symm] using hl'

theorem issueAll_of_mem {ks : List Nat} {k : Nat} (hk : k ∈ ks) (hi : a.ticketId k = i) :
    ∃ m ∈ ks, a.ticketId m = i ∧
      (ks.foldl (Ledger.issue a now q) l).payment i = some (a.ticket now q m) := by
  induction ks using List.reverseRecOn with
  | nil => cases hk
  | append_singleton ks m ih =>
    rw [List.foldl_append]
    by_cases hm : a.ticketId m = i
    · exact ⟨m, by simp, hm, by simp [hm]⟩
    · have hk' : k ∈ ks := by
        rcases List.mem_append.mp hk with hk | hk
        · exact hk
        · obtain rfl := List.mem_singleton.mp hk
          exact absurd hi hm
      obtain ⟨m', hm', hi', hp⟩ := ih hk'
      exact ⟨m', by simp [hm'], hi', by simpa [update_of_ne (Ne.symm hm)] using hp⟩

/-- Writing tickets touches only the records, the hashes and the journal. -/
theorem issueAll_rest (l : Ledger) (ks : List Nat) :
    (ks.foldl (Ledger.issue a now q) l).balances = l.balances ∧
      (ks.foldl (Ledger.issue a now q) l).activeEscrowTotal = l.activeEscrowTotal ∧
      (ks.foldl (Ledger.issue a now q) l).activeEscrowByToken = l.activeEscrowByToken ∧
      (ks.foldl (Ledger.issue a now q) l).tokens = l.tokens :=
  List.foldlRecOn (motive := fun l' : Ledger => l'.balances = l.balances ∧
    l'.activeEscrowTotal = l.activeEscrowTotal ∧
    l'.activeEscrowByToken = l.activeEscrowByToken ∧ l'.tokens = l.tokens) ks _
    ⟨rfl, rfl, rfl, rfl⟩ fun _ h _ _ => h

end Loop

theorem processPayment_records {r : String} (h : processPayment env w a = .ok (r, w')) :
    (∀ i, i ∉ a.ids → w'.ledger.payment i = w.ledger.payment i ∧
      w'.ledger.validationHash i = w.ledger.validationHash i) ∧
    ∀ i, i ∈ a.ids → w'.ledger.payment i ≠ none := by
  obtain ⟨info, d, q, hs, -, -, -, -, hl⟩ := processPayment_eq h
  rw [hl]
  constructor
  · intro i hi
    refine issueAll_of_not_mem env.timestamp q (l := w.ledger.purchase host a q)
      fun k hk hki => hi ?_
    exact Purchase.mem_ids.mpr ⟨k, List.mem_range.mp hk, hki⟩
  · intro i hi
    obtain ⟨k, hk, hki⟩ := Purchase.mem_ids.mp hi
    obtain ⟨m, -, -, hp⟩ := issueAll_of_mem env.timestamp q
      (l := w.ledger.purchase host a q) (List.mem_range.mpr hk) hki
    rw [hp]
    exact Option.some_ne_none _

/-- The ids that a purchase creates are those of its ids that were free. -/
theorem processPayment_created {r : String} (h : processPayment env w a = .ok (r, w')) :
    {i | w.ledger.payment i = none ∧ w'.ledger.payment i ≠ none} =
      a.ids.filter (fun i => w.ledger.payment i = none) := by
  obtain ⟨hother, hown⟩ := processPayment_records h
  ext i
  simp only [Set.mem_ofPred_eq, Finset.coe_filter]
  constructor
  · rintro ⟨hfree, hnew⟩
    refine ⟨?_, hfree⟩
    by_contra hi
    exact hnew ((hother i hi).1.trans hfree)
  · rintro ⟨hi, hfree⟩
    exact ⟨hfree, hown i hi⟩

/-- **Issuance.** A successful purchase creates exactly as many tickets as were
bought and leaves every record and validation hash as it was, if and only if
it is for one ticket, or for at most six whose generated ids are all free. -/
theorem issuance_exact_iff {r : String} (hw : Reachable host w)
    (h : processPayment env w a = .ok (r, w')) :
    ({i | w.ledger.payment i = none ∧ w'.ledger.payment i ≠ none}.ncard = a.quantity ∧
      (∀ i p, w.ledger.payment i = some p → w'.ledger.payment i = some p) ∧
      ∀ i v, w.ledger.validationHash i = some v → w'.ledger.validationHash i = some v) ↔
    a.quantity = 1 ∨
      a.quantity ≤ 6 ∧ ∀ k < a.quantity, w.ledger.payment (a.ticketId k) = none := by
  obtain ⟨hother, hown⟩ := processPayment_records h
  obtain ⟨info, d, q, hs, -⟩ := processPayment_eq h
  rw [processPayment_created h, Set.ncard_coe_finset]
  constructor
  · rintro ⟨hcard, -, -⟩
    by_cases h1 : a.quantity = 1
    · exact .inl h1
    right
    have hle := Finset.card_filter_le a.ids (fun i => w.ledger.payment i = none)
    have hids := a.card_ids
    rw [if_neg h1] at hids
    refine ⟨by omega, fun k hk => ?_⟩
    have hall : a.ids.filter (fun i => w.ledger.payment i = none) = a.ids :=
      Finset.eq_of_subset_of_card_le (Finset.filter_subset _ _) (by omega)
    exact (Finset.filter_eq_self.mp hall) _ (Purchase.mem_ids.mpr ⟨k, hk, rfl⟩)
  · intro hcond
    -- in both cases every id of the purchase was free
    have hfree : ∀ i ∈ a.ids, w.ledger.payment i = none := by
      intro i hi
      obtain ⟨k, hk, rfl⟩ := Purchase.mem_ids.mp hi
      rcases hcond with h1 | ⟨-, hk'⟩
      · simpa [Purchase.ticketId, subPaymentId, h1] using hs.fresh
      · exact hk' k hk
    have hcard : a.ids.card = a.quantity := by
      rw [a.card_ids]
      rcases hcond with h1 | ⟨h6, -⟩
      · rw [if_pos h1, h1]
      · split <;> omega
    refine ⟨?_, fun i p hp => ?_, fun i v hv => ?_⟩
    · rw [Finset.filter_true_of_mem hfree, hcard]
    · have hi : i ∉ a.ids := fun hi => by rw [hfree i hi] at hp; cases hp
      rw [(hother i hi).1, hp]
    · have hp := hw.sound.wellFormed.hash i (by rw [hv]; exact Option.some_ne_none _)
      have hi : i ∉ a.ids := fun hi => hp (hfree i hi)
      rw [(hother i hi).2, hv]

namespace Sample

/-- Two guests buy two tickets each, under different ids. -/
def pairRun : List (Step node) :=
  [start, byAlice event (.processPayment (order "x" "e1" alice usdc 2)),
    byBob event (.processPayment (order "y" "e1" bob usdc 2))]

end Sample

theorem issuance_exact_single :
    {i | (run step Sample.deployed [Sample.start]).ledger.payment i = none ∧
      (run step Sample.deployed [Sample.start, Sample.byAlice Sample.event (.processPayment
        (Sample.order "t1" "e1" Sample.alice Sample.usdc 1))]).ledger.payment i ≠ none}.ncard =
          1 := by
  obtain ⟨⟨r, w'⟩, h⟩ := exists_of_isOk (x := processPayment
    (Sample.signedBy Sample.alice Sample.alice_ne_self 1000 (Sample.registry Sample.event))
    (run step Sample.deployed [Sample.start])
    (Sample.order "t1" "e1" Sample.alice Sample.usdc 1)) (by decide)
  have hreach : Reachable Sample.node (run step Sample.deployed [Sample.start]) :=
    ⟨_, Sample.deployed_fresh, _, rfl⟩
  have hstep : run step Sample.deployed [Sample.start, Sample.byAlice Sample.event
      (.processPayment (Sample.order "t1" "e1" Sample.alice Sample.usdc 1))] = w' := by
    rw [run_cons, run_cons, run_nil]
    refine commit_of_ok ?_
    rw [run_cons, run_nil] at h
    simp only [step, call, Sample.byAlice, h]
    rfl
  rw [hstep]
  exact ((issuance_exact_iff hreach h).mpr (.inl rfl)).1

/-- The second purchase of two tickets writes over the first. -/
theorem issuance_overwrites_pair :
    Fresh Sample.node Sample.deployed ∧
      ((run step Sample.deployed (Sample.pairRun.take 2)).ledger.payment "p-0").map
        (·.buyerAddress) = some Sample.alice ∧
      ((run step Sample.deployed Sample.pairRun).ledger.payment "p-0").map
        (·.buyerAddress) = some Sample.bob :=
  ⟨Sample.deployed_fresh, by decide, by decide⟩

end Agora.TicketPayment
