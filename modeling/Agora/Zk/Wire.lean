import Agora.Zk.RingProof

/-!
# One wire encoding for each proof

`from_bytes` walks over three groups of scalars behind a header. What it
accepts is what `to_bytes` writes, so a replayed proof is recognized by its
bytes. `fromBytesIndexed` is the function with its indices and slices as the
source has them, each of which panics if it is out of bounds.
-/

namespace Agora.Zk

open Lib

/-! ## Indices -/

/-- The result of code that may panic. -/
abbrev Panics (α : Type) := ExceptT ZkpError Option α

/-- Code that does not. -/
def safe {α : Type} (x : Except ZkpError α) : Panics α := ExceptT.mk (some x)

/-- `bytes[i]`. -/
def byteAt (bytes : Bytes) (i : Nat) : Panics UInt8 := ExceptT.lift bytes[i]?

/-- `&bytes[i..j]`. -/
def slice (bytes : Bytes) (i j : Nat) : Panics Bytes :=
  ExceptT.lift (if i ≤ j ∧ j ≤ bytes.length then some ((bytes.take j).drop i) else none)

section Suite

variable {p : ℕ} [Fact p.Prime] {P : Type} (S : Suite p P)

/-- `n` scalars from the cursor on. -/
def readGroup (bytes : Bytes) : Nat → Nat → Panics (List (ZMod p))
  | 0, _ => return []
  | n + 1, cursor => do
    let raw ← slice bytes cursor (cursor + 32)
    let scalar ← safe (okOr .nonCanonicalEncoding (S.fromCanonicalBytes raw))
    let group ← readGroup bytes n (cursor + 32)
    return scalar :: group

def RingProof.fromBytesIndexed (bytes : Bytes) : Panics (RingProof p) := do
  safe (ensure (proofHeaderBytes ≤ bytes.length) .malformedProof)
  let version ← byteAt bytes 0
  safe (ensure (version = proofVersion) (.unsupportedVersion version))
  let tierByte ← byteAt bytes 1
  let tier ← safe (okOr .malformedProof (AttestationTier.fromByte tierByte))
  let high ← byteAt bytes 2
  let low ← byteAt bytes 3
  let n := 256 * high.toNat + low.toNat
  safe (ensure (n ≠ 0 ∧ n ≤ maxRingSize) (.ringSize n 1 maxRingSize))
  safe (ensure (bytes.length = proofHeaderBytes + n * proofBytesPerMember) .malformedProof)
  let nullifier ← slice bytes 4 proofHeaderBytes
  let challenges ← readGroup S bytes n proofHeaderBytes
  let zTicket ← readGroup S bytes n (proofHeaderBytes + 32 * n)
  let zSecret ← readGroup S bytes n (proofHeaderBytes + 32 * n + 32 * n)
  return ⟨version, tier, nullifier, challenges, zTicket, zSecret⟩

end Suite

section Safe

variable {α β : Type} {x : Except ZkpError α}

theorem safe_ok_bind (a : α) (f : α → Panics β) : safe (.ok a) >>= f = f a := rfl

theorem safe_bind (x : Except ZkpError α) (f : α → Except ZkpError β) :
    safe (x >>= f) = safe x >>= fun a => safe (f a) := by
  cases x <;> rfl

/-- What follows may use that the code before succeeded. -/
theorem safe_bind_congr {f g : α → Panics β} (h : ∀ a, x = .ok a → f a = g a) :
    safe x >>= f = safe x >>= g := by
  cases x with
  | error e => rfl
  | ok a => exact h a rfl

theorem byteAt_eq {bytes : Bytes} {i : Nat} (h : i < bytes.length) :
    byteAt bytes i = safe (.ok (bytes.getD i 0)) := by
  unfold byteAt
  rw [List.getD_eq_getElem?_getD, List.getElem?_eq_getElem h]
  rfl

theorem slice_eq {bytes : Bytes} {i j : Nat} (hij : i ≤ j) (hj : j ≤ bytes.length) :
    slice bytes i j = safe (.ok ((bytes.take j).drop i)) := by
  unfold slice
  rw [if_pos ⟨hij, hj⟩]
  rfl

end Safe

section Wire

variable {p : ℕ} [Fact p.Prime] {P : Type} (S : Suite p P)

theorem readScalars_rest {n : Nat} {bytes rest : Bytes} {scalars : List (ZMod p)}
    (h : readScalars S n bytes = .ok (scalars, rest)) : rest = bytes.drop (32 * n) := by
  induction n generalizing bytes scalars with
  | zero =>
    cases h
    rfl
  | succ n ih =>
    simp only [readScalars, bind_eq_ok, Prod.exists] at h
    obtain ⟨scalar, -, scalars', rest', htail, heq⟩ := h
    cases heq
    rw [ih htail, List.drop_drop, Nat.mul_succ, Nat.add_comm]

theorem readGroup_eq {bytes : Bytes} {n cursor : Nat} (h : cursor + 32 * n ≤ bytes.length) :
    readGroup S bytes n cursor = safe ((readScalars S n (bytes.drop cursor)).map (·.1)) := by
  induction n generalizing cursor with
  | zero => rfl
  | succ n ih =>
    have hraw : (bytes.take (cursor + 32)).drop cursor = (bytes.drop cursor).take 32 := by
      rw [List.drop_take]
      congr 1
      omega
    rw [readGroup, slice_eq (by omega) (by omega), safe_ok_bind, hraw, ih (by omega),
      ← List.drop_drop]
    rw [readScalars]
    cases S.fromCanonicalBytes ((bytes.drop cursor).take 32) with
    | none => rfl
    | some scalar =>
      cases readScalars S n ((bytes.drop cursor).drop 32) <;> rfl

/-- **No index is out of bounds.** -/
theorem RingProof.fromBytesIndexed_eq (bytes : Bytes) :
    RingProof.fromBytesIndexed S bytes = safe (RingProof.fromBytes S bytes) := by
  unfold fromBytesIndexed fromBytes
  rw [safe_bind]
  refine safe_bind_congr fun _ hheader => ?_
  rw [ensure_eq_ok] at hheader
  have hbyte (i : Nat) (hi : i < 4) : byteAt bytes i = safe (.ok (bytes.getD i 0)) := by
    refine byteAt_eq (lt_of_lt_of_le hi ?_)
    unfold proofHeaderBytes at hheader
    omega
  simp only [hbyte 0 (by omega), hbyte 1 (by omega), hbyte 2 (by omega), hbyte 3 (by omega),
    safe_ok_bind]
  rw [safe_bind]
  refine safe_bind_congr fun _ _ => ?_
  rw [safe_bind]
  refine safe_bind_congr fun tier _ => ?_
  rw [safe_bind]
  refine safe_bind_congr fun _ _ => ?_
  rw [safe_bind]
  refine safe_bind_congr fun _ hlength => ?_
  rw [ensure_eq_ok] at hlength
  -- from here on all offsets are below the length
  generalize 256 * (bytes.getD 2 0).toNat + (bytes.getD 3 0).toNat = n at hlength ⊢
  have hfit : proofHeaderBytes + 32 * n + 32 * n + 32 * n ≤ bytes.length := by
    rw [hlength]
    unfold proofBytesPerMember
    omega
  rw [slice_eq (by decide) (by omega), safe_ok_bind, readGroup_eq S (by omega),
    readGroup_eq S (by omega), readGroup_eq S hfit]
  cases hchallenges : readScalars S n (bytes.drop proofHeaderBytes) with
  | error e => rfl
  | ok first =>
    obtain ⟨challenges, rest⟩ := first
    obtain rfl := readScalars_rest S hchallenges
    rw [List.drop_drop]
    cases hticket : readScalars S n (bytes.drop (proofHeaderBytes + 32 * n)) with
    | error e =>
      simp only [ok_bind, hticket]
      rfl
    | ok second =>
      obtain ⟨zTicket, rest⟩ := second
      obtain rfl := readScalars_rest S hticket
      simp only [ok_bind, hticket, List.drop_drop]
      cases readScalars S n (bytes.drop (proofHeaderBytes + 32 * n + 32 * n)) <;> rfl

/-! ## Canonical encodings -/

/-- What a proof of the current version is like. -/
structure RingProof.WellFormed (proof : RingProof p) : Prop where
  version : proof.version = proofVersion
  nullifier : proof.nullifier.length = 32
  pos : 1 ≤ proof.challenges.length
  le_max : proof.challenges.length ≤ maxRingSize
  zTicket : proof.zTicket.length = proof.challenges.length
  zSecret : proof.zSecret.length = proof.challenges.length

/-- A scalar has one encoding. -/
def Canonical : Prop :=
  ∀ bytes x, bytes.length = 32 → S.fromCanonicalBytes bytes = some x → S.scalarBytes x = bytes

variable {S}

theorem readScalars_eq_ok (hcanon : Canonical S) {n : Nat} {bytes rest : Bytes}
    {scalars : List (ZMod p)} (hlen : 32 * n ≤ bytes.length)
    (h : readScalars S n bytes = .ok (scalars, rest)) :
    scalars.length = n ∧ bytes = scalars.flatMap S.scalarBytes ++ rest := by
  induction n generalizing bytes scalars with
  | zero =>
    cases h
    exact ⟨rfl, rfl⟩
  | succ n ih =>
    simp only [readScalars, bind_eq_ok, okOr_eq_ok, Prod.exists] at h
    obtain ⟨scalar, hscalar, scalars', rest', htail, heq⟩ := h
    cases heq
    have hhead := hcanon _ _ (by rw [List.length_take]; omega) hscalar
    obtain ⟨hn, hbytes⟩ := ih (by rw [List.length_drop]; omega) htail
    refine ⟨by rw [List.length_cons, hn], ?_⟩
    rw [List.flatMap_cons, hhead, List.append_assoc, ← hbytes, List.take_append_drop]

theorem AttestationTier.asByte_of_fromByte {b : UInt8} {tier : AttestationTier}
    (h : fromByte b = some tier) : tier.asByte = b := by
  unfold fromByte at h
  split at h <;> cases h <;> rfl

theorem toBeBytes_of_bytes (high low : UInt8) :
    toBeBytes 2 (256 * high.toNat + low.toNat) = [high, low] := by
  have hlow := low.toNat_lt
  have hmod : UInt8.ofNat (256 * high.toNat + low.toNat) = low := by
    apply UInt8.toNat_inj.mp
    rw [UInt8.toNat_ofNat']
    omega
  rw [toBeBytes_two, Nat.mul_add_div (by omega), Nat.div_eq_of_lt hlow, Nat.add_zero,
    UInt8.ofNat_toNat, hmod]

/-- **What is accepted is well formed, and is its own encoding.** -/
theorem RingProof.fromBytes_eq_ok (hcanon : Canonical S) {bytes : Bytes} {proof : RingProof p}
    (h : RingProof.fromBytes S bytes = .ok proof) : proof.WellFormed ∧ proof.toBytes S = bytes := by
  simp only [fromBytes, bind_eq_ok, ensure_eq_ok, okOr_eq_ok, Prod.exists] at h
  obtain ⟨-, hheader, -, hversion, tier, htier, -, ⟨hzero, hmax⟩, -, hlength, challenges, rest,
    hchallenges, zTicket, rest', hticket, zSecret, rest'', hsecret, heq⟩ := h
  cases heq
  -- the four bytes of the header
  obtain ⟨version, tierByte, high, low, tail, rfl⟩ :
      ∃ a b c d tail, bytes = a :: b :: c :: d :: tail := by
    rcases bytes with _ | ⟨a, _ | ⟨b, _ | ⟨c, _ | ⟨d, tail⟩⟩⟩⟩
    iterate 4 simp [proofHeaderBytes] at hheader
    exact ⟨a, b, c, d, tail, rfl⟩
  simp only [List.getD_cons_zero, List.getD_cons_succ] at *
  generalize hn : 256 * high.toNat + low.toNat = n at *
  have htail : tail.length = 32 + 32 * n + 32 * n + 32 * n := by
    simp only [List.length_cons, proofHeaderBytes, proofBytesPerMember] at hlength
    omega
  have hdrop : (version :: tierByte :: high :: low :: tail).drop proofHeaderBytes =
      tail.drop 32 := rfl
  have htake : ((version :: tierByte :: high :: low :: tail).take proofHeaderBytes).drop 4 =
      tail.take 32 := rfl
  rw [hdrop] at hchallenges
  -- the three groups
  obtain rfl := readScalars_rest S hchallenges
  obtain rfl := readScalars_rest S hticket
  obtain rfl := readScalars_rest S hsecret
  simp only [List.drop_drop] at hchallenges hticket hsecret
  obtain ⟨hc, hcbytes⟩ := readScalars_eq_ok hcanon (by rw [List.length_drop]; omega) hchallenges
  obtain ⟨ht, htbytes⟩ := readScalars_eq_ok hcanon (by rw [List.length_drop]; omega) hticket
  obtain ⟨hs, hsbytes⟩ := readScalars_eq_ok hcanon (by rw [List.length_drop]; omega) hsecret
  have hend : tail.drop (32 + 32 * n + 32 * n + 32 * n) = [] := List.drop_eq_nil_of_le htail.le
  rw [hend, List.append_nil] at hsbytes
  rw [hsbytes] at htbytes
  rw [htbytes] at hcbytes
  rw [htake]
  constructor
  · have hnull : (tail.take 32).length = 32 := by
      rw [List.length_take]
      omega
    exact ⟨hversion, hnull, hc ▸ Nat.one_le_iff_ne_zero.mpr hzero, hc ▸ hmax, ht.trans hc.symm,
      hs.trans hc.symm⟩
  · have hgroups : [challenges, zTicket, zSecret].flatMap (fun group =>
        group.flatMap S.scalarBytes) = tail.drop 32 := by
      rw [hcbytes]
      simp
    rw [toBytes, AttestationTier.asByte_of_fromByte htier, hc, ← hn, toBeBytes_of_bytes, hgroups,
      List.append_assoc, List.take_append_drop]
    rfl

/-- **The wire format is canonical.** -/
theorem wire_canonical (S : Suite p P) (hcanon : Canonical S) :
    (∀ proof : RingProof p, proof.WellFormed →
        RingProof.fromBytes S (proof.toBytes S) = .ok proof) ∧
      (∀ bytes proof, RingProof.fromBytes S bytes = .ok proof → proof.toBytes S = bytes) ∧
      (∀ bytes bytes' proof, RingProof.fromBytes S bytes = .ok proof →
        RingProof.fromBytes S bytes' = .ok proof → bytes = bytes') ∧
      ∀ bytes, (RingProof.fromBytesIndexed S bytes).run = some (RingProof.fromBytes S bytes) := by
  refine ⟨fun proof h => ?_, fun bytes proof h => (RingProof.fromBytes_eq_ok hcanon h).2,
    fun bytes bytes' proof h h' => ?_, fun bytes => ?_⟩
  · exact RingProof.fromBytes_toBytes S h.version h.nullifier (List.length_pos_iff.mp h.pos)
      h.le_max h.zTicket h.zSecret
  · rw [← (RingProof.fromBytes_eq_ok hcanon h).2, (RingProof.fromBytes_eq_ok hcanon h').2]
  · rw [RingProof.fromBytesIndexed_eq]
    rfl

end Wire

namespace Sample

/-- An encoding that is refused unless it is the one that is written. -/
def decodeCanonical (bytes : Bytes) : Option (ZMod 3) :=
  (decode bytes).filter fun x => encode x = bytes

theorem decodeCanonical_encode : ∀ x, decodeCanonical (encode x) = some x := by decide

/-- The integers modulo 3 with canonical scalars. -/
def canonicalSuite : Suite 3 (ZMod 3) :=
  { suite with
    fromCanonicalBytes := decodeCanonical
    compress_length := encode_length
    decompress_compress := decode_encode
    scalarBytes_length := encode_length
    fromCanonicalBytes_scalarBytes := decodeCanonical_encode }

theorem canonicalSuite_canonical : Canonical canonicalSuite := by
  intro bytes x _ h
  have hx : decodeCanonical bytes = some x := h
  unfold decodeCanonical at hx
  exact of_decide_eq_true (Option.filter_eq_some_iff.mp hx).2

end Sample

open Sample in
/-- A proof with four members is read back. -/
theorem wire_canonical_second :
    RingProof.fromBytes canonicalSuite ((secondProof 0 1 2).toBytes canonicalSuite) =
      .ok (secondProof 0 1 2) :=
  (wire_canonical canonicalSuite canonicalSuite_canonical).1 _
    ⟨rfl, rfl, by decide, by decide, rfl, rfl⟩

end Agora.Zk
