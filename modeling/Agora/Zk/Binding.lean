import Agora.Lib.Framing
import Agora.Lib.HashTree
import Agora.Zk.Buckets

/-!
# What the hashes bind

Every hash of the module is of fields behind their lengths, so the bytes that
are hashed tell the fields. The root of a list of commitments is that of a hash
tree with the commitments as leaves, and the domains keep leaves and nodes
apart. As long as SHA-512, cut to 32 bytes, has no collision among the strings
hashed for two lists, and is not zero there, their roots are equal only if the
lists are.
-/

namespace Agora.Zk

open Lib

/-! ## Framing -/

theorem toBeBytes_length (width n : Nat) : (toBeBytes width n).length = width := by
  simp [toBeBytes]

theorem toBeBytes_injective {width n m : Nat} (hn : n < 256 ^ width) (hm : m < 256 ^ width)
    (h : toBeBytes width n = toBeBytes width m) : n = m := by
  refine eq_of_digits_eq hn hm fun i hi => ?_
  have hdigit : (toBeBytes width n)[width - 1 - i]? = (toBeBytes width m)[width - 1 - i]? := by
    rw [h]
  have hlt : width - 1 - i < width := by omega
  have hsub : width - 1 - (width - 1 - i) = i := by omega
  simp only [toBeBytes, List.getElem?_map, List.getElem?_range hlt, Option.map_some,
    Option.some.injEq, hsub] at hdigit
  simpa using congrArg UInt8.toNat hdigit

theorem toList_loop (bytes : ByteArray) (i : Nat) (acc : Bytes) :
    ByteArray.toList.loop bytes i acc = acc.reverse ++ bytes.data.toList.drop i := by
  induction i, acc using ByteArray.toList.loop.induct bytes with
  | case1 i acc h ih =>
    have hdata : i < bytes.data.toList.length := h
    have hget : bytes.get! i = bytes.data.toList[i] := by
      change bytes.data[i]! = _
      rw [getElem!_pos bytes.data i h, Array.getElem_toList]
    rw [ByteArray.toList.loop, if_pos h, ih, List.drop_eq_getElem_cons hdata, List.reverse_cons,
      List.append_assoc, List.singleton_append, hget]
  | case2 i acc h =>
    have hdata : bytes.data.toList.length ≤ i := not_lt.mp h
    rw [ByteArray.toList.loop, if_neg h, List.drop_eq_nil_of_le hdata, List.append_nil]

theorem utf8_injective : Function.Injective utf8 := by
  intro s t h
  have hdata (u : String) : utf8 u = u.toUTF8.data.toList := toList_loop _ 0 []
  rw [hdata, hdata, Array.toList_inj] at h
  exact String.toByteArray_inj.mp (ByteArray.ext h)

/-- A field that fits into memory. -/
def Sized (field : Bytes) : Prop := field.length < 256 ^ 8

theorem foldl_absorb (fields : List Bytes) (hasher : Bytes) :
    fields.foldl absorb hasher = hasher ++ frames (toBeBytes 8) fields := by
  induction fields generalizing hasher with
  | nil => simp [frames]
  | cons field fields ih =>
    rw [List.foldl_cons, ih]
    simp [absorb, frames]

theorem Sized.of_length {field : Bytes} {n : Nat} (h : field.length = n) (hn : n < 256 ^ 8) :
    Sized field :=
  lt_of_eq_of_lt h hn

theorem sized_frames_injective {fields fields' : List Bytes} (hfields : ∀ f ∈ fields, Sized f)
    (hfields' : ∀ f ∈ fields', Sized f)
    (h : frames (toBeBytes 8) fields = frames (toBeBytes 8) fields') : fields = fields' :=
  frames_injective (by omega) (toBeBytes_length 8)
    (fun _ hn _ hm => toBeBytes_injective hn hm) hfields hfields' h

theorem transcript_eq (domain : Bytes) (parts : List Bytes) :
    transcript domain parts = frames (toBeBytes 8) (domain :: parts) := by
  rw [transcript, foldl_absorb, List.nil_append]

/-- **The bytes that are hashed tell the domain and the fields.** -/
theorem transcript_injective {domain domain' : Bytes} {parts parts' : List Bytes}
    (hfields : ∀ f ∈ domain :: parts, Sized f) (hfields' : ∀ f ∈ domain' :: parts', Sized f)
    (h : transcript domain parts = transcript domain' parts') :
    domain = domain' ∧ parts = parts' := by
  rw [transcript_eq, transcript_eq] at h
  exact List.cons.inj (sized_frames_injective hfields hfields' h)

/-! ## Trees -/

section Tree

variable {p : ℕ} [Fact p.Prime] {P : Type} (S : Suite p P)

/-- What is hashed for the next level. -/
def levelInputs : List Bytes → List Bytes
  | left :: right :: rest => transcript domainMerkleNode [left, right] :: levelInputs rest
  | _ => []

/-- What is hashed for the levels above this one. -/
def merkleInputs : List Bytes → List Bytes
  | left :: right :: rest =>
    levelInputs (left :: right :: rest) ++ merkleInputs (nextLevel S (left :: right :: rest))
  | _ => []
termination_by level => level.length
decreasing_by
  have := length_nextLevel_le S rest
  simp only [nextLevel, List.length_cons]
  omega

def leafInput (commitment : Bytes) : Bytes := transcript domainMerkleLeaf [commitment]

def nodeInput (left right : Bytes) : Bytes := transcript domainMerkleNode [left, right]

/-- What is hashed for the root of the commitments. -/
def rootInputs (commitments : List Bytes) : List Bytes :=
  commitments.map leafInput ++ merkleInputs S (commitments.map (leafHash S))

/-- The hash, cut to 32 bytes, has no collision among the strings and is not zero on them. -/
structure Suite.Separates (inputs : List Bytes) : Prop where
  injective : ∀ a ∈ inputs, ∀ b ∈ inputs, (S.sha512 a).take 32 = (S.sha512 b).take 32 → a = b
  nonzero : ∀ a ∈ inputs, (S.sha512 a).take 32 ≠ List.replicate 32 0

/-- The root of a tree of commitments. -/
def treeRoot (t : HashTree Bytes) : Bytes :=
  t.root (fun bytes => (S.sha512 bytes).take 32) leafInput nodeInput

def treeInputs (t : HashTree Bytes) : List Bytes :=
  t.inputs (fun bytes => (S.sha512 bytes).take 32) leafInput nodeInput

variable {S}

theorem nextLevel_treeRoot (ts : List (HashTree Bytes)) :
    nextLevel S (ts.map (treeRoot S)) = (HashTree.pairs ts).map (treeRoot S) := by
  induction ts using HashTree.pairs.induct with
  | case1 left right rest ih =>
    simp only [List.map_cons, nextLevel, HashTree.pairs, ih]
    rfl
  | case2 ts h =>
    rw [HashTree.pairs]
    · rcases ts with _ | ⟨a, _ | ⟨b, rest⟩⟩
      · rfl
      · rfl
      · exact absurd rfl (h a b rest)
    · exact h

theorem merkleLevels_treeRoot (ts : List (HashTree Bytes)) :
    merkleLevels S (ts.map (treeRoot S)) = (HashTree.build ts).map (treeRoot S) := by
  induction ts using HashTree.build.induct with
  | case1 left right rest ih =>
    rw [HashTree.build, ← ih, ← nextLevel_treeRoot, List.map_cons, List.map_cons, merkleLevels]
  | case2 ts h =>
    rw [HashTree.build]
    · rcases ts with _ | ⟨a, _ | ⟨b, rest⟩⟩
      · simp [merkleLevels]
      · simp [merkleLevels]
      · exact absurd rfl (h a b rest)
    · exact h

theorem pairs_inputs (ts : List (HashTree Bytes)) :
    (HashTree.pairs ts).flatMap (treeInputs S) ⊆
      ts.flatMap (treeInputs S) ++ levelInputs (ts.map (treeRoot S)) := by
  induction ts using HashTree.pairs.induct with
  | case1 left right rest ih =>
    intro x hx
    simp only [HashTree.pairs, List.flatMap_cons, List.mem_append] at hx
    simp only [List.flatMap_cons, List.map_cons, levelInputs, List.mem_append, List.mem_cons]
    rcases hx with hx | hx
    · rcases List.mem_cons.mp hx with rfl | hx
      · exact .inr (.inl rfl)
      · rcases List.mem_append.mp hx with hx | hx
        · exact .inl (.inl hx)
        · exact .inl (.inr (.inl hx))
    · rcases List.mem_append.mp (ih hx) with hx | hx
      · exact .inl (.inr (.inr hx))
      · exact .inr (.inr hx)
  | case2 ts h =>
    rw [HashTree.pairs]
    · exact List.subset_append_left _ _
    · exact h

theorem build_inputs (ts : List (HashTree Bytes)) :
    (HashTree.build ts).flatMap (treeInputs S) ⊆
      ts.flatMap (treeInputs S) ++ merkleInputs S (ts.map (treeRoot S)) := by
  induction ts using HashTree.build.induct with
  | case1 left right rest ih =>
    intro x hx
    rw [HashTree.build] at hx
    have hinputs := ih hx
    rw [← nextLevel_treeRoot] at hinputs
    rw [List.map_cons, List.map_cons, merkleInputs]
    rcases List.mem_append.mp hinputs with hx | hx
    · rcases List.mem_append.mp (pairs_inputs _ hx) with hx | hx
      · exact List.mem_append_left _ hx
      · exact List.mem_append_right _ (List.mem_append_left _ hx)
    · exact List.mem_append_right _ (List.mem_append_right _ hx)
  | case2 ts h =>
    rw [HashTree.build]
    · exact List.subset_append_left _ _
    · exact h

theorem treeRoot_leaf (commitments : List Bytes) :
    (commitments.map HashTree.leaf).map (treeRoot S) = commitments.map (leafHash S) := by
  rw [List.map_map]
  rfl

/-- **The tree of a list.** Its leaves are the commitments, and its root is the one that the code
computes. -/
theorem exists_tree {commitments : List Bytes} (hne : commitments ≠ []) :
    ∃ t : HashTree Bytes, t.leaves = commitments ∧
      merkleRootOfCommitments S commitments = treeRoot S t ∧
      treeInputs S t ⊆ rootInputs S commitments := by
  obtain ⟨t, ht⟩ : ∃ t, HashTree.build (commitments.map HashTree.leaf) = [t] := by
    obtain ⟨c, cs, rfl⟩ := List.exists_cons_of_ne_nil hne
    exact HashTree.exists_build_eq (HashTree.leaf c) (cs.map HashTree.leaf)
  have hleaves := HashTree.leaves_build (commitments.map HashTree.leaf)
  have hlevels := merkleLevels_treeRoot (S := S) (commitments.map HashTree.leaf)
  have hinputs := build_inputs (S := S) (commitments.map HashTree.leaf)
  rw [treeRoot_leaf] at hlevels hinputs
  rw [ht] at hleaves hlevels hinputs
  rw [List.flatMap_singleton, List.flatMap_map] at hleaves hinputs
  refine ⟨t, by simpa [HashTree.leaves] using hleaves, ?_, fun x hx => ?_⟩
  · rw [merkleRootOfCommitments, merkleRoot, hlevels]
    rfl
  · unfold rootInputs
    rcases List.mem_append.mp (hinputs hx) with hx | hx
    · refine List.mem_append_left _ ?_
      simpa [treeInputs, HashTree.inputs, eq_comm] using hx
    · exact List.mem_append_right _ hx

/-- What is hashed for a commitment is not what is hashed for a node. -/
theorem leafInput_ne_nodeInput (c l r : Bytes) : leafInput c ≠ nodeInput l r := by
  intro h
  rw [leafInput, nodeInput, transcript_eq, transcript_eq, frames, frames, List.flatMap_cons,
    List.flatMap_cons] at h
  have hlen : (toBeBytes 8 domainMerkleLeaf.length ++ domainMerkleLeaf).length =
      (toBeBytes 8 domainMerkleNode.length ++ domainMerkleNode).length := by decide +kernel
  exact absurd (List.append_inj h hlen).1 (by decide +kernel)

theorem leafInput_injective {c d : Bytes} (hc : Sized c) (hd : Sized d)
    (h : leafInput c = leafInput d) : c = d := by
  have hdomain : Sized domainMerkleLeaf := by
    unfold Sized
    decide +kernel
  have hparts := (transcript_injective (by simp [hdomain, hc]) (by simp [hdomain, hd]) h).2
  exact List.head_eq_of_cons_eq hparts

theorem nodeInput_injective {l r l' r' : Bytes} (hsized : ∀ f ∈ [l, r, l', r'], Sized f)
    (h : nodeInput l r = nodeInput l' r') : l = l' ∧ r = r' := by
  have hdomain : Sized domainMerkleNode := by
    unfold Sized
    decide +kernel
  simp only [List.mem_cons, List.not_mem_nil, or_false, forall_eq_or_imp, forall_eq] at hsized
  have hparts := (transcript_injective (by simp [hdomain, hsized]) (by simp [hdomain, hsized]) h).2
  simpa using hparts

/-- **The root binds the commitments.** -/
theorem root_eq_iff {xs ys : List Bytes} (hxs : ∀ c ∈ xs, c.length = 32)
    (hys : ∀ c ∈ ys, c.length = 32) (hhash : S.Separates (rootInputs S xs ++ rootInputs S ys)) :
    merkleRootOfCommitments S xs = merkleRootOfCommitments S ys ↔ xs = ys := by
  refine ⟨fun h => ?_, fun h => by rw [h]⟩
  have hempty : merkleRootOfCommitments S [] = List.replicate 32 0 := by
    simp [merkleRootOfCommitments, merkleRoot, merkleLevels]
  -- no list has the root of the empty list
  have hzero {zs : List Bytes} (hne : zs ≠ [])
      (hsub : rootInputs S zs ⊆ rootInputs S xs ++ rootInputs S ys) :
      merkleRootOfCommitments S zs ≠ List.replicate 32 0 := by
    obtain ⟨t, -, hroot, hinputs⟩ := exists_tree (S := S) hne
    obtain ⟨x, hx, heq⟩ := t.exists_root_eq (fun bytes => (S.sha512 bytes).take 32) leafInput
      nodeInput
    rw [hroot, treeRoot, heq]
    exact hhash.nonzero x (hsub (hinputs hx))
  by_cases hx : xs = []
  · by_contra hne
    subst hx
    rw [hempty] at h
    exact hzero (Ne.symm hne) (List.subset_append_right _ _) h.symm
  by_cases hy : ys = []
  · subst hy
    rw [hempty] at h
    exact absurd h (hzero hx (List.subset_append_left _ _))
  obtain ⟨t, rfl, hroot, hinputs⟩ := exists_tree (S := S) hx
  obtain ⟨u, rfl, hroot', hinputs'⟩ := exists_tree (S := S) hy
  rw [hroot, hroot'] at h
  refine congrArg HashTree.leaves (HashTree.root_injective ?_ ?_ leafInput_ne_nodeInput ?_ h)
  · intro a ha b hb heq
    exact leafInput_injective (.of_length (hxs a ha) (by decide)) (.of_length (hys b hb) (by decide))
      heq
  · intro x y x' y' heq
    have hsized (z : Bytes) : Sized ((S.sha512 z).take 32) :=
      lt_of_le_of_lt (List.length_take_le _ _) (by decide)
    exact nodeInput_injective (by simp [hsized]) heq
  · intro a ha b hb heq
    exact hhash.injective a (List.mem_append_left _ (hinputs ha)) b
      (List.mem_append_right _ (hinputs' hb)) heq

/-! ## The transcript of a proof -/

/-- A context as the types of the source have it. -/
structure VerificationContext.Sized (ctx : VerificationContext S) : Prop where
  eventId : Zk.Sized (utf8 ctx.eventId)
  epoch : Zk.Sized (utf8 ctx.epoch)
  merkleRoot : ctx.merkleRoot.length = 32
  ring : ctx.ring.length < 256 ^ 8
  compressed : ∀ m ∈ ctx.ring, m.compressed.length = 32

variable {ctx ctx' : VerificationContext S}

/-- The fields of the transcript, in order. -/
def baseFields (ctx : VerificationContext S) (version : UInt8) (omega nullifier : Bytes) :
    List Bytes :=
  [domainTranscript, [version, ctx.tier.asByte], utf8 ctx.eventId, utf8 ctx.epoch, ctx.merkleRoot,
    omega, nullifier, toBeBytes 8 ctx.ring.length] ++ ctx.ring.map (·.compressed)

variable (S) in
def pointFields (points : List (P × P)) : List Bytes :=
  points.flatMap fun x => [S.compress x.1, S.compress x.2]

theorem baseTranscript_eq (version : UInt8) (omega nullifier : Bytes) :
    baseTranscript ctx version omega nullifier =
      frames (toBeBytes 8) (baseFields ctx version omega nullifier) := by
  have hfold := foldl_absorb (baseFields ctx version omega nullifier) []
  rw [List.nil_append] at hfold
  rw [← hfold, baseFields, List.foldl_append]
  rfl

theorem absorbPoints_eq (hasher : Bytes) (points : List (P × P)) :
    absorbPoints (S := S) hasher points =
      hasher ++ frames (toBeBytes 8) (pointFields S points) := by
  rw [← foldl_absorb, absorbPoints, pointFields]
  induction points generalizing hasher with
  | nil => rfl
  | cons x points ih => exact ih _

theorem compress_injective : Function.Injective S.compress := by
  intro x y h
  exact Option.some.inj (by rw [← S.decompress_compress x, h, S.decompress_compress])

theorem pointFields_injective {points points' : List (P × P)}
    (h : pointFields S points = pointFields S points') : points = points' := by
  induction points generalizing points' with
  | nil =>
    cases points' with
    | nil => rfl
    | cons x points' => cases h
  | cons x points ih =>
    cases points' with
    | nil => cases h
    | cons y points' =>
      obtain ⟨hfirst, hrest⟩ := List.cons.inj h
      obtain ⟨hsecond, htail⟩ := List.cons.inj hrest
      rw [ih htail, Prod.ext (compress_injective hfirst) (compress_injective hsecond)]

theorem RingMember.eq_of_compressed {m m' : RingMember S} (h : m.compressed = m'.compressed) :
    m = m' := by
  obtain ⟨point, compressed, hdec⟩ := m
  obtain ⟨point', compressed', hdec'⟩ := m'
  obtain rfl : compressed = compressed' := h
  obtain rfl := Option.some.inj (hdec.symm.trans hdec')
  rfl

theorem AttestationTier.asByte_injective : Function.Injective AttestationTier.asByte := by
  intro t t' h
  exact Option.some.inj (by rw [← fromByte_asByte t, h, fromByte_asByte])

theorem sized_fields (hctx : ctx.Sized) (version : UInt8) {omega nullifier : Bytes}
    (homega : omega.length = 32) (hnull : nullifier.length = 32) (points : List (P × P)) :
    ∀ f ∈ baseFields ctx version omega nullifier ++ pointFields S points, Sized f := by
  intro f hf
  have hdomain : Sized domainTranscript := by
    unfold Sized
    decide +kernel
  simp only [baseFields, pointFields, List.mem_append, List.mem_cons, List.not_mem_nil, or_false,
    List.mem_map, List.mem_flatMap] at hf
  rcases hf with ((rfl | rfl | rfl | rfl | rfl | rfl | rfl | rfl) | ⟨m, hm, rfl⟩) | ⟨x, -, rfl | rfl⟩
  · exact hdomain
  · exact .of_length (n := 2) rfl (by decide)
  · exact hctx.eventId
  · exact hctx.epoch
  · exact .of_length hctx.merkleRoot (by decide)
  · exact .of_length homega (by decide)
  · exact .of_length hnull (by decide)
  · exact .of_length (toBeBytes_length 8 _) (by decide)
  · exact .of_length (hctx.compressed m hm) (by decide)
  · exact .of_length (S.compress_length _) (by decide)
  · exact .of_length (S.compress_length _) (by decide)

/-- **The transcript binds the context and the points.** -/
theorem base_transcript_injective (hctx : ctx.Sized) (hctx' : ctx'.Sized) {version version' : UInt8}
    {omega omega' nullifier nullifier' : Bytes} {points points' : List (P × P)}
    (homega : omega.length = 32) (homega' : omega'.length = 32) (hnull : nullifier.length = 32)
    (hnull' : nullifier'.length = 32)
    (h : absorbPoints (S := S) (baseTranscript ctx version omega nullifier) points =
      absorbPoints (S := S) (baseTranscript ctx' version' omega' nullifier') points') :
    ctx = ctx' ∧ version = version' ∧ omega = omega' ∧ nullifier = nullifier' ∧
      points = points' := by
  rw [absorbPoints_eq, absorbPoints_eq, baseTranscript_eq, baseTranscript_eq] at h
  simp only [frames, ← List.flatMap_append] at h
  have heq := sized_frames_injective (sized_fields hctx version homega hnull points)
    (sized_fields hctx' version' homega' hnull' points') h
  obtain ⟨eventId, epoch, tier, root, ring⟩ := ctx
  obtain ⟨eventId', epoch', tier', root', ring'⟩ := ctx'
  simp only [baseFields, List.cons_append, List.nil_append, List.cons.injEq] at heq
  obtain ⟨-, ⟨hversion, htier, -⟩, hevent, hepoch, rfl, rfl, rfl, hlength, hrest⟩ := heq
  -- the length of the ring says where the points begin
  have hring := toBeBytes_injective hctx.ring hctx'.ring hlength
  obtain ⟨hcompressed, hpoints⟩ := List.append_inj hrest (by simpa using hring)
  obtain rfl := utf8_injective hevent
  obtain rfl := utf8_injective hepoch
  obtain rfl := AttestationTier.asByte_injective htier
  obtain rfl := List.map_injective_iff.mpr (fun _ _ => RingMember.eq_of_compressed) hcompressed
  exact ⟨rfl, hversion, rfl, rfl, pointFields_injective hpoints⟩

/-- **What the hashes bind.** The root binds the commitments, the bytes of a transcript its domain
and fields, and those of a proof's transcript the whole context and all points. -/
theorem hashes_bind (S : Suite p P) :
    (∀ xs ys : List Bytes, (∀ c ∈ xs ++ ys, c.length = 32) →
        S.Separates (rootInputs S xs ++ rootInputs S ys) →
        (merkleRootOfCommitments S xs = merkleRootOfCommitments S ys ↔ xs = ys)) ∧
      (∀ (domain domain' : Bytes) (parts parts' : List Bytes),
        (∀ f ∈ domain :: parts ++ domain' :: parts', Sized f) →
        (transcript domain parts = transcript domain' parts' ↔
          domain = domain' ∧ parts = parts')) ∧
      ∀ (ctx ctx' : VerificationContext S) (version version' : UInt8)
        (omega omega' nullifier nullifier' : Bytes) (points points' : List (P × P)),
        ctx.Sized → ctx'.Sized → (∀ f ∈ [omega, omega', nullifier, nullifier'], f.length = 32) →
        (absorbPoints (S := S) (baseTranscript ctx version omega nullifier) points =
            absorbPoints (S := S) (baseTranscript ctx' version' omega' nullifier') points' ↔
          ctx = ctx' ∧ version = version' ∧ omega = omega' ∧ nullifier = nullifier' ∧
            points = points') := by
  refine ⟨fun xs ys hlen hhash => ?_, fun domain domain' parts parts' hsized => ?_, ?_⟩
  · exact root_eq_iff (fun c hc => hlen c (List.mem_append_left _ hc))
      (fun c hc => hlen c (List.mem_append_right _ hc)) hhash
  · refine ⟨transcript_injective (fun f hf => hsized f (List.mem_append_left _ hf))
      fun f hf => hsized f (List.mem_append_right _ hf), ?_⟩
    rintro ⟨rfl, rfl⟩
    rfl
  · intro ctx ctx' version version' omega omega' nullifier nullifier' points points' hctx hctx' hlen
    simp only [List.mem_cons, List.not_mem_nil, or_false, forall_eq_or_imp, forall_eq] at hlen
    obtain ⟨homega, homega', hnull, hnull'⟩ := hlen
    refine ⟨base_transcript_injective hctx hctx' homega homega' hnull hnull', ?_⟩
    rintro ⟨rfl, rfl, rfl, rfl, rfl⟩
    rfl

end Tree

namespace Sample

/-- A third commitment makes another tree. -/
theorem checksum_separates : checksumSuite.Separates
    (rootInputs checksumSuite ([1, 2].map commitmentOf) ++
      rootInputs checksumSuite ([1, 2, 4].map commitmentOf)) := by
  constructor
  · decide +kernel
  · decide +kernel

/-- A ring of one member, at an event and an epoch. -/
def eventContext (eventId epoch : String) : VerificationContext checksumSuite where
  eventId := eventId
  epoch := epoch
  tier := .vip
  merkleRoot := List.replicate 32 0
  ring := [⟨1, encode 1, decode_encode 1⟩]

theorem eventContext_sized {eventId epoch : String} (hevent : Sized (utf8 eventId))
    (hepoch : Sized (utf8 epoch)) : (eventContext eventId epoch).Sized :=
  ⟨hevent, hepoch, rfl, by simp [eventContext], by simp [eventContext, encode_length]⟩

end Sample

open Sample in
/-- A commitment cannot be added, nor a byte moved from the event id to the epoch. -/
theorem hashes_bind_distinct :
    merkleRootOfCommitments checksumSuite ([1, 2].map commitmentOf) ≠
        merkleRootOfCommitments checksumSuite ([1, 2, 4].map commitmentOf) ∧
      transcript [] [[1, 2], [3]] ≠ transcript [] [[1], [2, 3]] ∧
      absorbPoints (S := checksumSuite)
          (baseTranscript (eventContext "ab" "c") 1 (encode 1) (encode 1)) [] ≠
        absorbPoints (S := checksumSuite)
          (baseTranscript (eventContext "a" "bc") 1 (encode 1) (encode 1)) [] := by
  obtain ⟨hroot, htranscript, hbase⟩ := hashes_bind checksumSuite
  refine ⟨fun h => ?_, fun h => ?_, fun h => ?_⟩
  · exact absurd ((hroot _ _ (by decide) checksum_separates).mp h) (by decide)
  · exact absurd ((htranscript _ _ _ _ (by unfold Sized; decide)).mp h) (by decide)
  · have hab : (eventContext "ab" "c").Sized :=
      eventContext_sized (by unfold Sized; decide +kernel) (by unfold Sized; decide +kernel)
    have ha : (eventContext "a" "bc").Sized :=
      eventContext_sized (by unfold Sized; decide +kernel) (by unfold Sized; decide +kernel)
    have heq := ((hbase _ _ _ _ _ _ _ _ _ _ hab ha (by simp [encode_length])).mp h).1
    have hevent : "ab" = "a" := congrArg VerificationContext.eventId heq
    exact absurd hevent (by decide)

end Agora.Zk
