import Agora.Zk.Checkin
import Mathlib.Data.List.Sort

/-!
# Anonymity buckets, statement by statement

`register_commitment_inner` and `seal_bucket_inner` of `handlers/zk_checkin.rs`
under read committed. A registration is one transaction whose rows the others
see when it commits; its checks of the seal and of the size come first and hold
nothing. A seal reads the commitments in one statement and publishes their root
in a later one. A sealed bucket keeps its commitments where registrations commit
only into buckets that are open, and seals publish the root of what the bucket
still holds (`Undisturbed`).
-/

namespace Agora.Zk

open Lib Function

structure RegisterCommitmentRequest where
  eventId : String
  tier : String
  bucketIndex : Int
  commitment : String
  deriving DecidableEq, Repr

structure RegisterCommitmentResponse where
  eventId : String
  tier : String
  bucketIndex : Int
  bucketSize : Nat
  created : Bool
  deriving DecidableEq, Repr

structure SealBucketRequest where
  eventId : String
  tier : String
  bucketIndex : Int
  deriving DecidableEq, Repr

structure SealBucketResponse where
  eventId : String
  tier : String
  bucketIndex : Int
  merkleRoot : String
  commitmentCount : Nat
  deriving DecidableEq, Repr

/-- The primary key of `zk_anonymity_buckets`. -/
structure Bucket where
  eventId : String
  tier : AttestationTier
  bucketIndex : Int
  deriving DecidableEq, Repr

/-- A row of `zk_ticket_commitments`. -/
structure CommitmentRow where
  id : Nat
  bucket : Bucket
  commitment : Bytes
  leafHash : Bytes
  deriving DecidableEq, Repr

/-- What is unique in `zk_ticket_commitments`. -/
def CommitmentRow.key (row : CommitmentRow) : String × AttestationTier × Bytes :=
  (row.bucket.eventId, row.bucket.tier, row.commitment)

/-- A row of `zk_anonymity_buckets`, without its key. -/
structure BucketRow where
  commitmentCount : Nat
  merkleRoot : Option Bytes
  sealedAt : Option Int
  deriving DecidableEq, Repr

/-- The commitment of a registration, checked. -/
structure Registration where
  bucket : Bucket
  commitment : Bytes
  leaf : Bytes
  deriving DecidableEq, Repr

/-- Where a request stands: before a statement, answered, or ended by a statement that failed.
A registration carries what its transaction inserted: the id of its row, and whether the bucket
is new. -/
inductive Phase where
  | selectSealed (r : Registration)
  | countExisting (r : Registration)
  | insertCommitment (r : Registration)
  | insertBucket (r : Registration) (inserted : Option Nat)
  | countSize (r : Registration) (inserted : Option Nat) (newBucket : Bool)
  | commit (r : Registration) (inserted : Option Nat) (newBucket : Bool) (bucketSize : Nat)
  | registered (response : RegisterCommitmentResponse)
  | selectBucket (b : Bucket)
  | load (b : Bucket)
  | update (b : Bucket) (rows commitments : List Bytes) (root : Bytes)
  | published (response : SealBucketResponse)
  | refused (error : AppError)
  | failed
  deriving DecidableEq

def Phase.answered : Phase → Bool
  | .registered _ | .published _ | .refused _ | .failed => true
  | _ => false

/-- The committed tables, the next id, the keys that open transactions inserted, and the
requests. -/
structure Registry where
  commitments : List CommitmentRow
  buckets : Bucket → Option BucketRow
  nextId : Nat
  commitmentLock : String × AttestationTier × Bytes → Option ℕ
  bucketLock : Bucket → Option ℕ
  requests : ℕ → Option Phase

def Registry.new : Registry := ⟨[], fun _ => none, 1, fun _ => none, fun _ => none, fun _ => none⟩

/-- `COUNT(*)`, and the commitments in the order of their ids. -/
def countBucket (rows : List CommitmentRow) (b : Bucket) : Nat :=
  rows.countP fun row => row.bucket = b

def loadBucketCommitments (rows : List CommitmentRow) (b : Bucket) : List Bytes :=
  ((rows.filter fun row => row.bucket = b).insertionSort (·.id ≤ ·.id)).map (·.commitment)

theorem length_loadBucketCommitments (rows : List CommitmentRow) (b : Bucket) :
    (loadBucketCommitments rows b).length = countBucket rows b := by
  rw [loadBucketCommitments, List.length_map, List.length_insertionSort, countBucket,
    List.countP_eq_length_filter]

section Requests

variable {p : ℕ} [Fact p.Prime] {P : Type} (S : Suite p P)

def parseHexBytes (field value : String) (expectedLen : Nat) : Except AppError Bytes := do
  let bytes ← okOr (.validationError s!"{field} must be hex-encoded") (hexDecode value)
  ensure (bytes.length = expectedLen) (.validationError
    s!"{field} must decode to {expectedLen} bytes, got {bytes.length}")
  return bytes

/-- The part of `register_commitment_inner` before its transaction. -/
def checkRegistration (payload : RegisterCommitmentRequest) : Except AppError Registration := do
  let tier ← parseTier payload.tier
  validateBucketIndex payload.bucketIndex
  let commitment ← parseHexBytes "commitment" payload.commitment 32
  let member ← (RingMember.fromBytes S commitment).mapError mapZkpError
  return ⟨⟨payload.eventId, tier, payload.bucketIndex⟩, commitment, member.leaf⟩

def checkSeal (payload : SealBucketRequest) : Except AppError Bucket := do
  let tier ← parseTier payload.tier
  validateBucketIndex payload.bucketIndex
  return ⟨payload.eventId, tier, payload.bucketIndex⟩

/-- The root of the commitments of a bucket. -/
def rootOfRows (rows : List Bytes) : Except ZkpError (List Bytes × Bytes) := do
  let commitments ← rows.mapM fun row => RingMember.compressed <$> RingMember.fromBytes S row
  return (commitments, merkleRootOfCommitments S commitments)

/-- What a seal makes of the commitments that it read. -/
def sealRoot (b : Bucket) (rows : List Bytes) : Except AppError (List Bytes × Bytes) := do
  let minRing := b.tier.minRing
  ensure (minRing ≤ rows.length) (.validationError
    (s!"Bucket holds {rows.length} commitments; tier '{b.tier.asStr}' requires at least {minRing} " ++
      "for the anonymity guarantee to be meaningful"))
  (rootOfRows S rows).mapError mapZkpError

def sealResponse (b : Bucket) (root : Bytes) (count : Nat) : SealBucketResponse :=
  ⟨b.eventId, b.tier.asStr, b.bucketIndex, hexEncode root, count⟩

/-- A step: a request that arrives, its next statement, or a statement that fails and ends it. -/
inductive BucketStep where
  | register (i : ℕ) (payload : RegisterCommitmentRequest)
  | sealBucket (i : ℕ) (payload : SealBucketRequest)
  | selectSealed (i : ℕ)
  | countExisting (i : ℕ)
  | insertCommitment (i : ℕ)
  | insertBucket (i : ℕ)
  | countSize (i : ℕ)
  | commit (i : ℕ)
  | selectBucket (i : ℕ)
  | load (i : ℕ)
  | update (i : ℕ) (now : Int)
  | fail (i : ℕ)

namespace Registry

def go (s : Registry) (i : ℕ) (phase : Phase) : Registry :=
  { s with requests := Function.update s.requests i (some phase) }

def after {α : Type} (check : Except AppError α) (next : α → Phase) : Phase :=
  match check with
  | .ok a => next a
  | .error e => .refused e

/-- What an open transaction held. -/
def unlock (s : Registry) (i : ℕ) : Registry :=
  { s with
    commitmentLock := fun k => if s.commitmentLock k = some i then none else s.commitmentLock k
    bucketLock := fun b => if s.bucketLock b = some i then none else s.bucketLock b }

/-- The check of the seal. -/
def checkUnsealed (b : Bucket) (row : Option BucketRow) : Except AppError Unit :=
  ensure (row.bind (·.sealedAt) = none) (.conflict
    s!"Anonymity bucket {b.bucketIndex} for event '{b.eventId}' is already sealed")

/-- The check of the size. -/
def checkRoom (b : Bucket) (existing : Nat) : Except AppError Unit :=
  ensure (existing < maxRingSize) (.conflict
    (s!"Anonymity bucket {b.bucketIndex} is full ({maxRingSize} commitments); use the next " ++
      "bucket"))

/-- The row of a registration. -/
def rowOf (r : Registration) (id : Nat) : CommitmentRow := ⟨id, r.bucket, r.commitment, r.leaf⟩

/-- The rows that a registration adds to the committed ones. -/
def insertedRows (r : Registration) (inserted : Option Nat) : List CommitmentRow :=
  inserted.toList.map (rowOf r)

/-- The error is for a step that is not the next one of a request, or that waits for another
transaction. -/
def step (s : Registry) : BucketStep → Except Unit Registry
  | .register i payload =>
    match s.requests i with
    | none => .ok (s.go i (after (checkRegistration S payload) .selectSealed))
    | some _ => .error ()
  | .sealBucket i payload =>
    match s.requests i with
    | none => .ok (s.go i (after (checkSeal payload) .selectBucket))
    | some _ => .error ()
  | .selectSealed i =>
    match s.requests i with
    | some (.selectSealed r) =>
      .ok (s.go i (after (checkUnsealed r.bucket (s.buckets r.bucket)) fun _ => .countExisting r))
    | _ => .error ()
  | .countExisting i =>
    match s.requests i with
    | some (.countExisting r) =>
      .ok (s.go i (after (checkRoom r.bucket (countBucket s.commitments r.bucket))
        fun _ => .insertCommitment r))
    | _ => .error ()
  | .insertCommitment i =>
    match s.requests i with
    | some (.insertCommitment r) =>
      let row := rowOf r s.nextId
      if s.commitmentLock row.key ≠ none then .error ()
      -- ON CONFLICT DO NOTHING, which uses up the id all the same
      else if row.key ∈ s.commitments.map CommitmentRow.key then
        .ok { s.go i (.insertBucket r none) with nextId := s.nextId + 1 }
      else
        .ok { s.go i (.insertBucket r (some s.nextId)) with
          nextId := s.nextId + 1
          commitmentLock := Function.update s.commitmentLock row.key (some i) }
    | _ => .error ()
  | .insertBucket i =>
    match s.requests i with
    | some (.insertBucket r inserted) =>
      if s.bucketLock r.bucket ≠ none then .error ()
      else if s.buckets r.bucket ≠ none then .ok (s.go i (.countSize r inserted false))
      else
        .ok { s.go i (.countSize r inserted true) with
          bucketLock := Function.update s.bucketLock r.bucket (some i) }
    | _ => .error ()
  | .countSize i =>
    match s.requests i with
    | some (.countSize r inserted newBucket) =>
      .ok (s.go i (.commit r inserted newBucket
        (countBucket (s.commitments ++ insertedRows r inserted) r.bucket)))
    | _ => .error ()
  | .commit i =>
    match s.requests i with
    | some (.commit r inserted newBucket bucketSize) =>
      .ok { (s.unlock i).go i (.registered ⟨r.bucket.eventId, r.bucket.tier.asStr,
          r.bucket.bucketIndex, bucketSize, inserted.isSome⟩) with
        commitments := s.commitments ++ insertedRows r inserted
        buckets := if newBucket then Function.update s.buckets r.bucket (some ⟨0, none, none⟩)
          else s.buckets }
    | _ => .error ()
  | .selectBucket i =>
    match s.requests i with
    | some (.selectBucket b) =>
      match s.buckets b with
      | some ⟨count, some root, _⟩ => .ok (s.go i (.published (sealResponse b root count)))
      | _ => .ok (s.go i (.load b))
    | _ => .error ()
  | .load i =>
    match s.requests i with
    | some (.load b) =>
      let rows := loadBucketCommitments s.commitments b
      .ok (s.go i (after (sealRoot S b rows) fun (commitments, root) =>
        .update b rows commitments root))
    | _ => .error ()
  | .update i now =>
    match s.requests i with
    | some (.update b _ commitments root) =>
      -- WHERE sealed_at IS NULL
      .ok { s.go i (.published (sealResponse b root commitments.length)) with
        buckets := Function.update s.buckets b ((s.buckets b).map fun row =>
          if row.sealedAt = none then ⟨commitments.length, some root, some now⟩ else row) }
    | _ => .error ()
  | .fail i =>
    match s.requests i with
    | some phase => if phase.answered then .error () else .ok ((s.unlock i).go i .failed)
    | none => .error ()

/-! ## Sealed sets -/

end Registry

/-- A registration that is about to commit a row. -/
def Phase.committing : Phase → Option Registration
  | .commit r (some _) _ _ => some r
  | _ => none

/-- The commitments that a seal read. -/
def Phase.publishing : Phase → Option (Bucket × List Bytes)
  | .update b rows _ _ => some (b, rows)
  | _ => none

namespace Registry

/-- A registration that inserted its commitment commits into a bucket that is open and has room,
and a seal publishes the root of what its bucket still holds. -/
def Undisturbed (s : Registry) : BucketStep → Prop
  | .commit i => ∀ r ∈ (s.requests i).bind Phase.committing,
      (∀ row ∈ s.buckets r.bucket, row.sealedAt = none) ∧
        countBucket s.commitments r.bucket < maxRingSize
  | .update i _ => ∀ x ∈ (s.requests i).bind Phase.publishing,
      ∀ row ∈ s.buckets x.1, row.sealedAt = none →
        loadBucketCommitments s.commitments x.1 = x.2
  | _ => True

instance (s : Registry) : (a : BucketStep) → Decidable (s.Undisturbed a)
  | .commit i => inferInstanceAs (Decidable (∀ r ∈ (s.requests i).bind Phase.committing,
      (∀ row ∈ s.buckets r.bucket, row.sealedAt = none) ∧
        countBucket s.commitments r.bucket < maxRingSize))
  | .update i _ => inferInstanceAs (Decidable (∀ x ∈ (s.requests i).bind Phase.publishing,
      ∀ row ∈ s.buckets x.1, row.sealedAt = none →
        loadBucketCommitments s.commitments x.1 = x.2))
  | .register .. | .sealBucket .. | .selectSealed _ | .countExisting _ | .insertCommitment _
  | .insertBucket _ | .countSize _ | .selectBucket _ | .load _ | .fail _ =>
    inferInstanceAs (Decidable True)

/-- The bucket is sealed with the root. -/
def Sealed (s : Registry) (b : Bucket) (row : BucketRow) (root : Bytes) : Prop :=
  s.buckets b = some row ∧ row.merkleRoot = some root

end Registry

/-- The bucket that an open transaction inserted. -/
def Phase.newBucket : Phase → Option Bucket
  | .countSize r _ true => some r.bucket
  | .commit r _ true _ => some r.bucket
  | _ => none

namespace Registry

/-- What the tables, the locks and the requests have to do with each other. -/
structure Frozen (s : Registry) : Prop where
  bounded : ∀ b, countBucket s.commitments b ≤ maxRingSize
  rooted : ∀ b row, s.buckets b = some row → (row.merkleRoot = none ↔ row.sealedAt = none)
  intact : ∀ b row root, s.Sealed b row root →
    ∃ commitments, rootOfRows S (loadBucketCommitments s.commitments b) = .ok (commitments, root)
  lock : ∀ i b, (s.requests i).bind Phase.newBucket = some b →
    s.bucketLock b = some i ∧ s.buckets b = none
  read : ∀ i b rows commitments root, s.requests i = some (.update b rows commitments root) →
    rootOfRows S rows = .ok (commitments, root)

theorem Frozen.new : Frozen S .new where
  bounded _ := Nat.zero_le _
  rooted := nofun
  intact := by rintro _ _ _ ⟨h, -⟩; cases h
  lock := nofun
  read := nofun

/-- Sealed buckets stay as they are. -/
def Keeps (s s' : Registry) : Prop :=
  ∀ b row root, s.Sealed b row root → s'.buckets b = some row ∧
    loadBucketCommitments s'.commitments b = loadBucketCommitments s.commitments b

theorem Keeps.trans {s s' s'' : Registry} (h : s.Keeps s') (h' : s'.Keeps s'') :
    s.Keeps s'' := by
  intro b row root hsealed
  obtain ⟨hrow, hload⟩ := h b row root hsealed
  obtain ⟨hrow', hload'⟩ := h' b row root ⟨hrow, hsealed.2⟩
  exact ⟨hrow', hload'.trans hload⟩

variable {S} {s s' : Registry} {a : BucketStep} {i j : ℕ} {b : Bucket} {phase : Phase}

theorem sealRoot_eq_ok {rows : List Bytes} {r : List Bytes × Bytes}
    (h : sealRoot S b rows = .ok r) : rootOfRows S rows = .ok r := by
  simp only [sealRoot, bind_eq_ok, ensure_eq_ok, mapError_eq_ok] at h
  obtain ⟨_, -, hroot⟩ := h
  exact hroot

theorem Frozen.quiet (h : Frozen S s) (hcommitments : s'.commitments = s.commitments)
    (hbuckets : s'.buckets = s.buckets)
    (hlock : ∀ j b, (s'.requests j).bind Phase.newBucket = some b →
      s'.bucketLock b = some j ∧ s.buckets b = none)
    (hread : ∀ j b rows commitments root, s'.requests j = some (.update b rows commitments root) →
      rootOfRows S rows = .ok (commitments, root)) : Frozen S s' ∧ s.Keeps s' := by
  refine ⟨⟨?_, ?_, ?_, ?_, hread⟩, ?_⟩
  · rw [hcommitments]
    exact h.bounded
  · rw [hbuckets]
    exact h.rooted
  · rw [hcommitments]
    intro b row root hsealed
    exact h.intact b row root ⟨hbuckets ▸ hsealed.1, hsealed.2⟩
  · rw [hbuckets]
    exact hlock
  · rintro b row root ⟨hrow, -⟩
    rw [hcommitments, hbuckets]
    exact ⟨hrow, rfl⟩

theorem Frozen.lock_update (h : Frozen S s)
    (hphase : ∀ b, phase.newBucket = some b → s.bucketLock b = some i ∧ s.buckets b = none)
    (j : ℕ) (b : Bucket)
    (hj : (Function.update s.requests i (some phase) j).bind Phase.newBucket = some b) :
    s.bucketLock b = some j ∧ s.buckets b = none := by
  by_cases hji : j = i
  · subst hji
    rw [update_self] at hj
    exact hphase b hj
  · rw [update_of_ne hji] at hj
    exact h.lock j b hj

theorem Frozen.read_update (h : Frozen S s)
    (hphase : ∀ b rows commitments root, phase = .update b rows commitments root →
      rootOfRows S rows = .ok (commitments, root))
    (j : ℕ) (b : Bucket) (rows commitments : List Bytes) (root : Bytes)
    (hj : Function.update s.requests i (some phase) j = some (.update b rows commitments root)) :
    rootOfRows S rows = .ok (commitments, root) := by
  by_cases hji : j = i
  · subst hji
    rw [update_self, Option.some.injEq] at hj
    exact hphase b rows commitments root hj
  · rw [update_of_ne hji] at hj
    exact h.read j b rows commitments root hj

theorem Frozen.go (h : Frozen S s)
    (hphase : ∀ b, phase.newBucket = some b → s.bucketLock b = some i ∧ s.buckets b = none)
    (hread : ∀ b rows commitments root, phase = .update b rows commitments root →
      rootOfRows S rows = .ok (commitments, root)) :
    Frozen S (s.go i phase) ∧ s.Keeps (s.go i phase) :=
  h.quiet rfl rfl (h.lock_update hphase) (h.read_update hread)

theorem Frozen.go_after {α : Type} {check : Except AppError α} {next : α → Phase}
    (h : Frozen S s) (hnext : ∀ x, (next x).newBucket = none)
    (hread : ∀ x, check = .ok x → ∀ b rows commitments root,
      next x = .update b rows commitments root → rootOfRows S rows = .ok (commitments, root)) :
    Frozen S (s.go i (after check next)) ∧ s.Keeps (s.go i (after check next)) := by
  cases hcheck : check with
  | ok x =>
    refine h.go (fun b hb => ?_) (hread x hcheck)
    cases (hnext x).symm.trans hb
  | error e => exact h.go nofun nofun

theorem countBucket_append (rows new : List CommitmentRow) (b : Bucket) :
    countBucket (rows ++ new) b = countBucket rows b + countBucket new b :=
  List.countP_append

theorem loadBucketCommitments_append {rows new : List CommitmentRow}
    (h : countBucket new b = 0) :
    loadBucketCommitments (rows ++ new) b = loadBucketCommitments rows b := by
  have hnone : new.filter (fun row => decide (row.bucket = b)) = [] := by
    rwa [← List.length_eq_zero_iff, ← List.countP_eq_length_filter]
  rw [loadBucketCommitments, List.filter_append, hnone, List.append_nil, loadBucketCommitments]

theorem countBucket_insertedRows (r : Registration) (inserted : Option Nat) (b : Bucket) :
    countBucket (insertedRows r inserted) b = if inserted.isSome ∧ r.bucket = b then 1 else 0 := by
  cases inserted with
  | none => rfl
  | some id => by_cases hb : r.bucket = b <;> simp [insertedRows, countBucket, rowOf, hb]

theorem unlock_bucketLock (hj : s.bucketLock b = some j) (hne : j ≠ i) :
    (s.unlock i).bucketLock b = some j := by
  simp [unlock, hj, hne]

theorem Frozen.lock_unlock (h : Frozen S s) (hphase : phase.newBucket = none) (j : ℕ) (b : Bucket)
    (hj : (Function.update s.requests i (some phase) j).bind Phase.newBucket = some b) :
    (s.unlock i).bucketLock b = some j ∧ s.buckets b = none := by
  by_cases hji : j = i
  · subst hji
    rw [update_self, Option.bind_some, hphase] at hj
    cases hj
  · rw [update_of_ne hji] at hj
    obtain ⟨hheld, hnone⟩ := h.lock j b hj
    exact ⟨unlock_bucketLock hheld hji, hnone⟩

theorem Frozen.buckets_of_commit {r : Registration} {inserted : Option Nat} {newBucket : Bool}
    {bucketSize : Nat} (h : Frozen S s)
    (hi : s.requests i = some (.commit r inserted newBucket bucketSize)) (b : Bucket) :
    (if newBucket then Function.update s.buckets r.bucket (some ⟨0, none, none⟩) else s.buckets) b =
        s.buckets b ∨
      (newBucket = true ∧ b = r.bucket ∧ s.buckets b = none ∧
        (if newBucket then Function.update s.buckets r.bucket (some ⟨0, none, none⟩)
          else s.buckets) b = some ⟨0, none, none⟩) := by
  cases newBucket with
  | false => exact .inl rfl
  | true =>
    by_cases hb : b = r.bucket
    · subst hb
      obtain ⟨-, hnone⟩ := h.lock i r.bucket (by rw [hi]; rfl)
      exact .inr ⟨rfl, rfl, hnone, update_self ..⟩
    · exact .inl (update_of_ne hb ..)

theorem Frozen.commit {r : Registration} {inserted : Option Nat} {newBucket : Bool}
    {bucketSize : Nat} (h : Frozen S s)
    (hi : s.requests i = some (.commit r inserted newBucket bucketSize))
    (hC : s.Undisturbed (.commit i)) (hok : step S s (.commit i) = .ok s') :
    Frozen S s' ∧ s.Keeps s' := by
  simp only [step, hi] at hok
  obtain rfl := Except.ok.inj hok
  have hbuckets := h.buckets_of_commit hi
  -- a bucket that is sealed gets no commitment
  have hkeeps : ∀ b row root, s.Sealed b row root →
      loadBucketCommitments (s.commitments ++ insertedRows r inserted) b =
        loadBucketCommitments s.commitments b := by
    rintro b row root ⟨hrow, hroot⟩
    refine loadBucketCommitments_append ?_
    rw [countBucket_insertedRows]
    cases inserted with
    | none => rfl
    | some id =>
      by_cases hb : r.bucket = b
      · subst hb
        have hopen := (hC r (by rw [hi]; rfl)).1 row hrow
        cases ((h.rooted _ row hrow).mpr hopen).symm.trans hroot
      · rw [if_neg (by simp [hb])]
  refine ⟨⟨fun b => ?_, fun b row hrow => ?_, fun b row root hsealed => ?_, fun j b hj => ?_, ?_⟩,
    fun b row root hsealed => ?_⟩
  · dsimp only
    rw [countBucket_append, countBucket_insertedRows]
    have hbound := h.bounded b
    split
    · next hnew =>
      obtain ⟨hinserted, rfl⟩ := hnew
      obtain ⟨id, rfl⟩ := Option.isSome_iff_exists.mp hinserted
      have hroom := (hC r (by rw [hi]; rfl)).2
      omega
    · omega
  · rcases hbuckets b with hsame | ⟨-, -, -, hnew⟩
    · exact h.rooted b row (hsame ▸ hrow)
    · cases hnew.symm.trans hrow
      simp
  · obtain ⟨hrow, hroot⟩ := hsealed
    rcases hbuckets b with hsame | ⟨-, -, -, hnew⟩
    · have hsealed : s.Sealed b row root := ⟨hsame ▸ hrow, hroot⟩
      dsimp only
      rw [hkeeps b row root hsealed]
      exact h.intact b row root hsealed
    · cases hnew.symm.trans hrow
      cases hroot
  · obtain ⟨hheld, hnone⟩ := h.lock_unlock
      (rfl : (Phase.registered ⟨_, _, _, _, _⟩).newBucket = none) j b hj
    refine ⟨hheld, ?_⟩
    rcases hbuckets b with hsame | ⟨hnew, hb, -, -⟩
    · exact hsame.trans hnone
    · -- the other one would hold the lock of this transaction
      subst hnew hb
      have hji : j ≠ i := by
        rintro rfl
        dsimp only [Registry.go] at hj
        rw [update_self] at hj
        cases hj
      dsimp only [Registry.go] at hj
      rw [update_of_ne hji] at hj
      obtain ⟨hmine, -⟩ := h.lock i r.bucket (by rw [hi]; rfl)
      obtain ⟨htheirs, -⟩ := h.lock j r.bucket hj
      exact absurd (Option.some.inj (htheirs.symm.trans hmine)) hji
  · exact h.read_update nofun
  · rcases hbuckets b with hsame | ⟨-, -, hnone, -⟩
    · exact ⟨hsame.trans hsealed.1, hkeeps b row root hsealed⟩
    · cases hsealed.1.symm.trans hnone

theorem buckets_of_update {commitments : List Bytes} {root : Bytes} {now : Int} {row : BucketRow}
    {b' : Bucket}
    (hrow : Function.update s.buckets b ((s.buckets b).map fun row =>
      if row.sealedAt = none then ⟨commitments.length, some root, some now⟩ else row) b' =
        some row) :
    s.buckets b' = some row ∨ (b' = b ∧ row = ⟨commitments.length, some root, some now⟩ ∧
      ∃ old, s.buckets b = some old ∧ old.sealedAt = none) := by
  by_cases hb : b' = b
  · subst hb
    rw [update_self, Option.map_eq_some_iff] at hrow
    obtain ⟨old, hold, hrow⟩ := hrow
    split at hrow
    · next hopen => exact .inr ⟨rfl, hrow.symm, old, hold, hopen⟩
    · exact .inl (hrow ▸ hold)
  · rw [update_of_ne hb] at hrow
    exact .inl hrow

theorem Frozen.update {rows commitments : List Bytes} {root : Bytes} {now : Int}
    (h : Frozen S s) (hi : s.requests i = some (.update b rows commitments root))
    (hC : s.Undisturbed (.update i now)) (hok : step S s (.update i now) = .ok s') :
    Frozen S s' ∧ s.Keeps s' := by
  simp only [step, hi] at hok
  obtain rfl := Except.ok.inj hok
  refine ⟨⟨h.bounded, fun b' row hrow => ?_, fun b' row root' hsealed => ?_, fun j b' hj => ?_,
    h.read_update nofun⟩, fun b' row root' hsealed => ?_⟩
  · rcases buckets_of_update hrow with hold | ⟨-, rfl, -⟩
    · exact h.rooted b' row hold
    · simp
  · obtain ⟨hrow, hroot⟩ := hsealed
    rcases buckets_of_update hrow with hold | ⟨rfl, rfl, old, hold, hopen⟩
    · exact h.intact b' row root' ⟨hold, hroot⟩
    · -- the root is that of the rows that were read, which are still there
      obtain rfl := Option.some.inj hroot
      have hrows := hC (b', rows) (by rw [hi]; rfl) old hold hopen
      refine ⟨commitments, ?_⟩
      change rootOfRows S (loadBucketCommitments s.commitments b') = _
      rw [hrows]
      exact h.read i b' rows commitments root hi
  · have hphase (response : SealBucketResponse) : ∀ b, (Phase.published response).newBucket = some b →
        s.bucketLock b = some i ∧ s.buckets b = none := nofun
    obtain ⟨hheld, hnone⟩ := h.lock_update (hphase _) j b' hj
    refine ⟨hheld, ?_⟩
    by_cases hb : b' = b
    · subst hb
      dsimp only
      rw [update_self, hnone]
      rfl
    · exact (update_of_ne hb ..).trans hnone
  · refine ⟨?_, rfl⟩
    obtain ⟨hrow, hroot⟩ := hsealed
    by_cases hb : b' = b
    · subst hb
      have hclosed : row.sealedAt ≠ none := by
        rw [ne_eq, ← h.rooted b' row hrow, hroot]
        exact Option.some_ne_none _
      dsimp only
      rw [update_self, hrow, Option.map_some, if_neg hclosed]
    · exact (update_of_ne hb ..).trans hrow

theorem Frozen.insertCommitment (h : Frozen S s) (hok : step S s (.insertCommitment i) = .ok s') :
    Frozen S s' ∧ s.Keeps s' := by
  simp only [step] at hok
  split at hok
  · split at hok
    · cases hok
    · split at hok
      · obtain rfl := Except.ok.inj hok
        exact h.quiet rfl rfl (h.lock_update nofun) (h.read_update nofun)
      · obtain rfl := Except.ok.inj hok
        exact h.quiet rfl rfl (h.lock_update nofun) (h.read_update nofun)
  · cases hok

theorem Frozen.insertBucket (h : Frozen S s) (hok : step S s (.insertBucket i) = .ok s') :
    Frozen S s' ∧ s.Keeps s' := by
  simp only [step] at hok
  split at hok
  · next r inserted hi =>
    split at hok
    · cases hok
    · next hlock =>
      split at hok
      · obtain rfl := Except.ok.inj hok
        exact h.go nofun nofun
      · next hbucket =>
        obtain rfl := Except.ok.inj hok
        rw [ne_eq, not_not] at hlock hbucket
        refine h.quiet rfl rfl (fun j b hj => ?_) (h.read_update nofun)
        dsimp only [Registry.go] at hj
        by_cases hji : j = i
        · subst hji
          rw [update_self] at hj
          cases hj
          exact ⟨update_self .., hbucket⟩
        · rw [update_of_ne hji] at hj
          obtain ⟨hheld, hnone⟩ := h.lock j b hj
          have hne : b ≠ r.bucket := by
            rintro rfl
            cases hheld.symm.trans hlock
          exact ⟨(update_of_ne hne ..).trans hheld, hnone⟩
  · cases hok

theorem Frozen.countSize (h : Frozen S s) (hok : step S s (.countSize i) = .ok s') :
    Frozen S s' ∧ s.Keeps s' := by
  simp only [step] at hok
  split at hok
  · next r inserted newBucket hi =>
    obtain rfl := Except.ok.inj hok
    refine h.go (fun b hb => h.lock i b ?_) nofun
    rw [hi]
    cases newBucket with
    | true => exact hb
    | false => cases hb
  · cases hok

theorem Frozen.selectBucket (h : Frozen S s) (hok : step S s (.selectBucket i) = .ok s') :
    Frozen S s' ∧ s.Keeps s' := by
  simp only [step] at hok
  split at hok
  · split at hok
    · obtain rfl := Except.ok.inj hok
      exact h.go nofun nofun
    · obtain rfl := Except.ok.inj hok
      exact h.go nofun nofun
  · cases hok

theorem Frozen.load (h : Frozen S s) (hok : step S s (.load i) = .ok s') :
    Frozen S s' ∧ s.Keeps s' := by
  simp only [step] at hok
  split at hok
  · next b hi =>
    obtain rfl := Except.ok.inj hok
    refine h.go_after (fun _ => rfl) fun x hx b' rows commitments root heq => ?_
    cases heq
    exact sealRoot_eq_ok hx
  · cases hok

theorem Frozen.fail (h : Frozen S s) (hok : step S s (.fail i) = .ok s') :
    Frozen S s' ∧ s.Keeps s' := by
  simp only [step] at hok
  split at hok
  · split at hok
    · cases hok
    · obtain rfl := Except.ok.inj hok
      refine h.quiet rfl rfl (h.lock_unlock ?_) (h.read_update nofun)
      exact (rfl : Phase.failed.newBucket = none)
  · cases hok

theorem Frozen.step (h : Frozen S s) (hC : s.Undisturbed a) (hok : Registry.step S s a = .ok s') :
    Frozen S s' ∧ s.Keeps s' := by
  cases a with
  -- a check, after which the request waits for its next statement
  | register | sealBucket | selectSealed | countExisting =>
    simp only [Registry.step] at hok
    split at hok
    · obtain rfl := Except.ok.inj hok
      exact h.go_after (fun _ => rfl) nofun
    · cases hok
  | insertCommitment => exact h.insertCommitment hok
  | insertBucket => exact h.insertBucket hok
  | countSize => exact h.countSize hok
  | commit i =>
    cases hi : s.requests i with
    | none =>
      simp only [Registry.step, hi] at hok
      cases hok
    | some phase =>
      cases phase with
      | commit r inserted newBucket bucketSize => exact h.commit hi hC hok
      | _ =>
        simp only [Registry.step, hi] at hok
        cases hok
  | selectBucket => exact h.selectBucket hok
  | load => exact h.load hok
  | update i now =>
    cases hi : s.requests i with
    | none =>
      simp only [Registry.step, hi] at hok
      cases hok
    | some phase =>
      cases phase with
      | update b rows commitments root => exact h.update hi hC hok
      | _ =>
        simp only [Registry.step, hi] at hok
        cases hok
  | fail => exact h.fail hok

/-- **Sealed sets.** In every state of a run along `Undisturbed` no bucket holds more commitments
than a ring may have, and from a state in which a bucket is sealed on, its row and the commitments
loaded for it stay as they are, and these hash to its root. -/
theorem sealed_sets_frozen {steps : List BucketStep}
    (h : Along (Registry.step S) Undisturbed .new steps) :
    (∀ pre, pre <+: steps → ∀ b,
      (loadBucketCommitments (run (Registry.step S) .new pre).commitments b).length ≤ maxRingSize) ∧
    ∀ pre, pre <+: steps → ∀ b row root, (run (Registry.step S) .new pre).Sealed b row root →
      (run (Registry.step S) .new steps).buckets b = some row ∧
      loadBucketCommitments (run (Registry.step S) .new steps).commitments b =
        loadBucketCommitments (run (Registry.step S) .new pre).commitments b ∧
      ∃ commitments, rootOfRows S (loadBucketCommitments
        (run (Registry.step S) .new steps).commitments b) = .ok (commitments, root) := by
  have hfrozen : ∀ pre, pre <+: steps → Frozen S (run (Registry.step S) .new pre) := by
    rintro pre ⟨post, rfl⟩
    exact (Along.append.mp h).1.inv (fun _ _ _ hs hC hok => (hs.step hC hok).1) (.new S)
  refine ⟨fun pre hpre b => ?_, fun pre hpre b row root hsealed => ?_⟩
  · rw [length_loadBucketCommitments]
    exact (hfrozen pre hpre).bounded b
  · have hlast := hfrozen steps List.prefix_rfl
    have hstart := hfrozen pre hpre
    obtain ⟨post, rfl⟩ := hpre
    have hkeeps : Frozen S (run (Registry.step S) .new (pre ++ post)) ∧
        (run (Registry.step S) .new pre).Keeps (run (Registry.step S) .new (pre ++ post)) := by
      rw [run_append]
      refine (Along.append.mp h).2.inv (I := fun t => Frozen S t ∧
        (run (Registry.step S) .new pre).Keeps t) ?_ ⟨hstart, fun _ _ _ hs => ⟨hs.1, rfl⟩⟩
      rintro s a s' ⟨hs, hkeeps⟩ hC hok
      obtain ⟨hs', hnext⟩ := hs.step hC hok
      exact ⟨hs', hkeeps.trans hnext⟩
    obtain ⟨hrow, hload⟩ := hkeeps.2 b row root hsealed
    exact ⟨hrow, hload, hlast.intact b row root ⟨hrow, hsealed.2⟩⟩

end Registry

end Requests

/-! ## A late commit -/

namespace Sample

/-- The hash is a checksum. -/
def checksum (bytes : Bytes) : Bytes := List.replicate 64 (bytes.foldl (· * 3 + ·) 0)

def checksumSuite : Suite 3 (ZMod 3) := suiteOf checksum

def commitmentOf (n : Nat) : Bytes := UInt8.ofNat n :: List.replicate 31 0

/-- The statements of a registration before its commit. -/
def insertion (i n : Nat) : List BucketStep :=
  [.register i ⟨"e1", "vip", 0, hexEncode (commitmentOf n)⟩, .selectSealed i, .countExisting i,
    .insertCommitment i, .insertBucket i, .countSize i]

/-- Four tickets of a bucket. -/
def four : List BucketStep := [1, 2, 3, 4].flatMap fun n => insertion n n ++ [.commit n]

def sealing : List BucketStep :=
  [.sealBucket 9 ⟨"e1", "vip", 0⟩, .selectBucket 9, .load 9, .update 9 100]

def vipBucket : Bucket := ⟨"e1", .vip, 0⟩

end Sample

namespace Registry

open Sample

/-- A bucket is filled, then sealed. -/
theorem sealed_sets_frozen_four :
    ∃ commitments, rootOfRows checksumSuite (loadBucketCommitments
        (run (Registry.step checksumSuite) .new (four ++ sealing)).commitments vipBucket) =
      .ok (commitments, .replicate 32 4) := by
  have hsealed : (run (Registry.step checksumSuite) .new (four ++ sealing)).Sealed vipBucket
      ⟨4, some (.replicate 32 4), some 100⟩ (.replicate 32 4) := by
    unfold Registry.Sealed
    decide +kernel
  exact ((sealed_sets_frozen (by decide +kernel)).2 _ List.prefix_rfl _ _ _ hsealed).2.2

/-- A registration whose checks came before the seal commits after it: the bucket holds a fifth
commitment, and its commitments no longer hash to its root. -/
theorem sealed_sets_late :
    let s := run (Registry.step checksumSuite) .new (four ++ insertion 5 5 ++ sealing)
    let t := run (Registry.step checksumSuite) .new (four ++ insertion 5 5 ++ sealing ++ [.commit 5])
    s.Sealed vipBucket ⟨4, some (.replicate 32 4), some 100⟩ (.replicate 32 4) ∧
      t.Sealed vipBucket ⟨4, some (.replicate 32 4), some 100⟩ (.replicate 32 4) ∧
      loadBucketCommitments s.commitments vipBucket = [1, 2, 3, 4].map commitmentOf ∧
      loadBucketCommitments t.commitments vipBucket = [1, 2, 3, 4, 5].map commitmentOf ∧
      (rootOfRows checksumSuite (loadBucketCommitments t.commitments vipBucket)).toOption.map
        Prod.snd ≠ some (.replicate 32 4) := by
  unfold Registry.Sealed
  decide +kernel

end Registry

end Agora.Zk
