import Agora.Host
import Agora.Lib.Binary64
import Agora.Lib.Unicode
import Mathlib.Data.List.DropRight
import Mathlib.Tactic.NormNum
import Mathlib.Tactic.Ring

/-!
# Rotating QR payloads

`lib/crypto.ts` of the mobile app. A payload is 105 bytes in base64url: a
version, the start of a window of 15 seconds, the ticket id in a field of 16
bytes, a nonce, and the Ed25519 signature of all that. Strings are UTF-16
units, numbers are doubles, and `tweetnacl` is a parameter.
-/

namespace Agora.Mobile

open Lib

/-- The string of a literal. -/
def js (s : String) : Units := units s.toList

/-- What is used of `tweetnacl`. `verifyDetached` throws for a key or a signature of the wrong size. -/
structure Nacl where
  publicKeyFromSeed : Bytes → Bytes
  secretKeyFromSeed : Bytes → Bytes
  signDetached : Bytes → Bytes → Bytes
  verifyDetached : Bytes → Bytes → Bytes → Option Bool

/-- Ed25519: the sizes, and that a signature verifies under the key of its seed. -/
structure Nacl.Correct (nacl : Nacl) : Prop where
  publicKey_length : ∀ seed, seed.length = 32 → (nacl.publicKeyFromSeed seed).length = 32
  secretKey_length : ∀ seed, seed.length = 32 → (nacl.secretKeyFromSeed seed).length = 64
  signature_length : ∀ message secretKey, secretKey.length = 64 →
    (nacl.signDetached message secretKey).length = 64
  verify_sign : ∀ seed message, seed.length = 32 → nacl.verifyDetached message
    (nacl.signDetached message (nacl.secretKeyFromSeed seed)) (nacl.publicKeyFromSeed seed) =
      some true

def payloadVersion : ℕ := 1
def payloadWindowS : ℕ := 15
def scannerClockDriftS : ℕ := 60
def ticketIdFieldBytes : ℕ := 16
def nonceBytes : ℕ := 16

namespace PayloadOffsets

def version : ℕ := 0
def timestamp : ℕ := 1
def ticketId : ℕ := 9
def nonce : ℕ := 25
def signature : ℕ := 41
def total : ℕ := 105

end PayloadOffsets

structure TicketKeyPair where
  publicKey : Bytes
  secretKey : Bytes
  deriving DecidableEq

def deriveTicketKeyPair (nacl : Nacl) (secretBytes : Bytes) : Except String TicketKeyPair :=
  if secretBytes.length ≠ 32 then
    .error s!"deriveTicketKeyPair: seed must be 32 bytes, got {secretBytes.length}."
  else .ok ⟨nacl.publicKeyFromSeed secretBytes, nacl.secretKeyFromSeed secretBytes⟩

/-! ## Fields -/

/-- UTF-8, cut or filled with zeros to `length` bytes. -/
def encodeFixedString (s : Units) (length : ℕ) : Bytes :=
  let encoded := (encode (scalars s)).take length
  encoded ++ List.replicate (length - encoded.length) 0

/-- The bytes without the zeros at the end. -/
def stripZeros (bytes : Bytes) : Bytes := bytes.rdropWhile (· == 0)

def decodeFixedString (bytes : Bytes) : Units := units (decode (stripZeros bytes))

/-- `ToUint32`. -/
def toUint32 (x : ℚ) : ℕ := ((if 0 ≤ x then ⌊x⌋ else ⌈x⌉) % 2 ^ 32).toNat

/-- `DataView.setUint32`. -/
def setUint32 (value : ℚ) : Bytes :=
  let n := toUint32 value
  [.ofNat (n / 0x1000000), .ofNat (n / 0x10000), .ofNat (n / 0x100), .ofNat n]

/-- `DataView.getUint32`. -/
def getUint32 (bytes : Bytes) (offset : ℕ) : ℕ :=
  ((bytes.drop offset).take 4).foldl (fun n b => n * 0x100 + b.toNat) 0

def writeUint64BE (value : ℚ) : Bytes :=
  let hi := ⌊toDouble (value / 0x100000000)⌋
  let lo := toUint32 value
  setUint32 hi ++ setUint32 lo

def readUint64BE (bytes : Bytes) (offset : ℕ) : ℚ :=
  let hi := getUint32 bytes offset
  let lo := getUint32 bytes (offset + 4)
  toDouble (toDouble (hi * 0x100000000) + lo)

/-! ## Base64url -/

def base64UrlChars : Units :=
  js "ABCDEFGHIJKLMNOPQRSTUVWXYZabcdefghijklmnopqrstuvwxyz0123456789-_"

def base64UrlChar (i : ℕ) : UInt16 := base64UrlChars.getD i 0

def padding : UInt16 := 0x3D

/-- `BASE64URL_LOOKUP[c] ?? 0`, where the character may be missing. -/
def base64UrlLookup (c : Option UInt16) : ℕ :=
  match c with
  | none => 0
  | some u => ((base64UrlChars.findIdx? (· == u)).getD 0)

/-- One round of the loop; a missing byte is 0. -/
def encodeGroup (b0 : UInt8) (b1 b2 : Option UInt8) : Units :=
  let x0 := b0.toNat
  let x1 := (b1.getD 0).toNat
  let x2 := (b2.getD 0).toNat
  [base64UrlChar (x0 >>> 2), base64UrlChar ((x0 &&& 3) <<< 4 ||| x1 >>> 4),
    if b1.isSome then base64UrlChar ((x1 &&& 15) <<< 2 ||| x2 >>> 6) else padding,
    if b2.isSome then base64UrlChar (x2 &&& 63) else padding]

def encodeGroups : Bytes → Units
  | [] => []
  | [b0] => encodeGroup b0 none none
  | [b0, b1] => encodeGroup b0 (some b1) none
  | b0 :: b1 :: b2 :: rest => encodeGroup b0 (some b1) (some b2) ++ encodeGroups rest

def toBase64Url (bytes : Bytes) : Units := (encodeGroups bytes).rdropWhile (· == padding)

/-- One round of the loop; the last characters may be missing. -/
def decodeGroup (u0 u1 u2 u3 : Option UInt16) : Bytes :=
  let c0 := base64UrlLookup u0
  let c1 := base64UrlLookup u1
  let c2 := base64UrlLookup u2
  let c3 := base64UrlLookup u3
  .ofNat (c0 <<< 2 ||| c1 >>> 4) ::
    ((if u2 = some padding then [] else [.ofNat ((c1 &&& 15) <<< 4 ||| c2 >>> 2)]) ++
      if u3 = some padding then [] else [.ofNat ((c2 &&& 3) <<< 6 ||| c3)])

def decodeGroups : Units → Bytes
  | [] => []
  | [u0] => decodeGroup (some u0) none none none
  | [u0, u1] => decodeGroup (some u0) (some u1) none none
  | [u0, u1, u2] => decodeGroup (some u0) (some u1) (some u2) none
  | u0 :: u1 :: u2 :: u3 :: rest =>
    decodeGroup (some u0) (some u1) (some u2) (some u3) ++ decodeGroups rest

def fromBase64Url (s : Units) : Bytes :=
  decodeGroups (s ++ [padding, padding].take ((4 - s.length % 4) % 4))

/-! ### Round trip -/

theorem lookup_base64UrlChar : ∀ i < 64, base64UrlLookup (some (base64UrlChar i)) = i := by
  decide

theorem base64UrlChar_ne_padding : ∀ i < 64, base64UrlChar i ≠ padding := by
  decide +kernel

section Bits

variable {x y : ℕ}

/-- Two low bits of one byte and four high bits of the next. -/
theorem joinBits_eq {k n m : ℕ} (hk : 2 ^ k = n + 1) (hy : y < 2 ^ m) :
    (x &&& n) <<< m ||| y = x % 2 ^ k * 2 ^ m + y := by
  obtain rfl : n = 2 ^ k - 1 := by omega
  rw [Nat.and_two_pow_sub_one_eq_mod, ← Nat.shiftLeft_add_eq_or_of_lt hy, Nat.shiftLeft_eq]

theorem joinByte_eq {m : ℕ} (hy : y < 2 ^ m) : x <<< m ||| y = x * 2 ^ m + y := by
  rw [← Nat.shiftLeft_add_eq_or_of_lt hy, Nat.shiftLeft_eq]

end Bits

theorem encodeGroup_eq (b0 : UInt8) (b1 b2 : Option UInt8) :
    encodeGroup b0 b1 b2 =
      [base64UrlChar (b0.toNat / 4),
        base64UrlChar (b0.toNat % 4 * 16 + (b1.getD 0).toNat / 16),
        if b1.isSome then base64UrlChar ((b1.getD 0).toNat % 16 * 4 + (b2.getD 0).toNat / 64)
          else padding,
        if b2.isSome then base64UrlChar ((b2.getD 0).toNat % 64) else padding] := by
  have h1 := (b1.getD 0).toNat_lt
  have h2 := (b2.getD 0).toNat_lt
  simp only [encodeGroup, Nat.shiftRight_eq_div_pow]
  rw [joinBits_eq (k := 2) rfl (by omega), joinBits_eq (k := 4) rfl (by omega),
    show (63 : ℕ) = 2 ^ 6 - 1 from rfl, Nat.and_two_pow_sub_one_eq_mod]
  rfl

theorem decodeGroup_eq {i0 i1 i2 i3 : ℕ} (h0 : i0 < 64) (h1 : i1 < 64) (h2 : i2 < 64)
    (h3 : i3 < 64) :
    decodeGroup (some (base64UrlChar i0)) (some (base64UrlChar i1)) (some (base64UrlChar i2))
        (some (base64UrlChar i3)) =
      [.ofNat (i0 * 4 + i1 / 16), .ofNat (i1 % 16 * 16 + i2 / 4), .ofNat (i2 % 4 * 64 + i3)] := by
  simp only [decodeGroup, lookup_base64UrlChar _ h0, lookup_base64UrlChar _ h1,
    lookup_base64UrlChar _ h2, lookup_base64UrlChar _ h3, Option.some.injEq,
    base64UrlChar_ne_padding _ h2, base64UrlChar_ne_padding _ h3, if_false,
    Nat.shiftRight_eq_div_pow]
  rw [joinByte_eq (by omega), joinBits_eq (k := 4) rfl (by omega), joinBits_eq (k := 2) rfl (by omega)]
  rfl

theorem decodeGroup_encodeGroup (b0 b1 b2 : UInt8) :
    ∃ u0 u1 u2 u3, encodeGroup b0 (some b1) (some b2) = [u0, u1, u2, u3] ∧
      decodeGroup (some u0) (some u1) (some u2) (some u3) = [b0, b1, b2] := by
  have h0 := b0.toNat_lt
  have h1 := b1.toNat_lt
  have h2 := b2.toNat_lt
  refine ⟨_, _, _, _, encodeGroup_eq b0 (some b1) (some b2), ?_⟩
  simp only [Option.getD_some, Option.isSome_some, if_true]
  rw [decodeGroup_eq (by omega) (by omega) (by omega) (by omega),
    show b0.toNat / 4 * 4 + (b0.toNat % 4 * 16 + b1.toNat / 16) / 16 = b0.toNat by omega,
    show (b0.toNat % 4 * 16 + b1.toNat / 16) % 16 * 16 +
      (b1.toNat % 16 * 4 + b2.toNat / 64) / 4 = b1.toNat by omega,
    show (b1.toNat % 16 * 4 + b2.toNat / 64) % 4 * 64 + b2.toNat % 64 = b2.toNat by omega]
  simp

theorem toBase64Url_cons (b0 b1 b2 : UInt8) (rest : Bytes) :
    toBase64Url (b0 :: b1 :: b2 :: rest) =
      encodeGroup b0 (some b1) (some b2) ++ toBase64Url rest := by
  have hlast : base64UrlChar (b2.toNat % 64) ≠ padding :=
    base64UrlChar_ne_padding _ (Nat.mod_lt _ (by omega))
  simp only [toBase64Url, encodeGroups, List.rdropWhile, List.reverse_append, List.dropWhile_append]
  split
  · next hnil =>
    rw [List.isEmpty_iff] at hnil
    rw [hnil, encodeGroup_eq]
    simp [hlast]
  · rw [List.reverse_append, List.reverse_reverse]

theorem fromBase64Url_cons (u0 u1 u2 u3 : UInt16) (rest : Units) :
    fromBase64Url (u0 :: u1 :: u2 :: u3 :: rest) =
      decodeGroup (some u0) (some u1) (some u2) (some u3) ++ fromBase64Url rest := by
  have hlen : (u0 :: u1 :: u2 :: u3 :: rest).length % 4 = rest.length % 4 := by
    simp only [List.length_cons]
    omega
  rw [fromBase64Url, hlen]
  rfl

/-- **Base64url.** Every byte sequence is read back. -/
theorem fromBase64Url_toBase64Url : ∀ bytes : Bytes, fromBase64Url (toBase64Url bytes) = bytes
  | [] => rfl
  | [b0] => by
    have h0 := b0.toNat_lt
    have hne : base64UrlChar (b0.toNat % 4 * 16) ≠ padding := base64UrlChar_ne_padding _ (by omega)
    have hchars : toBase64Url [b0] =
        [base64UrlChar (b0.toNat / 4), base64UrlChar (b0.toNat % 4 * 16)] := by
      simp [toBase64Url, encodeGroups, encodeGroup_eq, List.rdropWhile, hne]
    have hbyte : b0.toNat / 4 * 2 ^ 2 + b0.toNat % 4 * 16 / 2 ^ 4 = b0.toNat := by omega
    rw [hchars]
    simp only [fromBase64Url, List.length_cons, List.length_nil, Nat.reduceAdd, Nat.reduceMod,
      Nat.reduceSub, List.take_succ_cons, List.take_zero, List.cons_append, List.nil_append,
      decodeGroups, decodeGroup, lookup_base64UrlChar (b0.toNat / 4) (by omega),
      lookup_base64UrlChar (b0.toNat % 4 * 16) (by omega), if_true, List.append_nil,
      Nat.shiftRight_eq_div_pow]
    rw [joinByte_eq (m := 2) (by omega), hbyte, UInt8.ofNat_toNat]
  | [b0, b1] => by
    have h0 := b0.toNat_lt
    have h1 := b1.toNat_lt
    have hne : base64UrlChar (b1.toNat % 16 * 4) ≠ padding := base64UrlChar_ne_padding _ (by omega)
    have hchars : toBase64Url [b0, b1] = [base64UrlChar (b0.toNat / 4),
        base64UrlChar (b0.toNat % 4 * 16 + b1.toNat / 16), base64UrlChar (b1.toNat % 16 * 4)] := by
      simp [toBase64Url, encodeGroups, encodeGroup_eq, List.rdropWhile, hne]
    have hbyte0 : b0.toNat / 4 * 2 ^ 2 + (b0.toNat % 4 * 16 + b1.toNat / 16) / 2 ^ 4 =
        b0.toNat := by omega
    have hbyte1 : (b0.toNat % 4 * 16 + b1.toNat / 16) % 2 ^ 4 * 2 ^ 4 + b1.toNat % 16 * 4 / 2 ^ 2 =
        b1.toNat := by omega
    rw [hchars]
    simp only [fromBase64Url, List.length_cons, List.length_nil, Nat.reduceAdd, Nat.reduceMod,
      Nat.reduceSub, List.take_succ_cons, List.take_zero, List.cons_append, List.nil_append,
      decodeGroups, decodeGroup, lookup_base64UrlChar (b0.toNat / 4) (by omega),
      lookup_base64UrlChar (b0.toNat % 4 * 16 + b1.toNat / 16) (by omega),
      lookup_base64UrlChar (b1.toNat % 16 * 4) (by omega), Option.some.injEq, hne, if_false, if_true,
      List.append_nil, Nat.shiftRight_eq_div_pow]
    rw [joinByte_eq (m := 2) (by omega), joinBits_eq (k := 4) (m := 4) rfl (by omega), hbyte0,
      hbyte1, UInt8.ofNat_toNat, UInt8.ofNat_toNat]
  | b0 :: b1 :: b2 :: rest => by
    obtain ⟨u0, u1, u2, u3, hencode, hdecode⟩ := decodeGroup_encodeGroup b0 b1 b2
    rw [toBase64Url_cons, hencode]
    change fromBase64Url (u0 :: u1 :: u2 :: u3 :: toBase64Url rest) = _
    rw [fromBase64Url_cons, hdecode, fromBase64Url_toBase64Url rest]
    rfl

/-! ## Payloads -/

/-- The start of the window of a time in milliseconds, in seconds. -/
def windowStart (nowMs : ℚ) : ℚ :=
  toDouble (⌊toDouble (toDouble (nowMs / 1000) / payloadWindowS)⌋ * payloadWindowS)

/-- What is signed. -/
def payloadMessage (ticketId : Units) (timestampS : ℚ) (nonce : Vector UInt8 16) : Bytes :=
  .ofNat payloadVersion :: (writeUint64BE timestampS ++
    encodeFixedString ticketId ticketIdFieldBytes ++ nonce.toList)

def generateRotatingPayload (nacl : Nacl) (ticketId : Units) (secretKey : Bytes) (nowMs : ℚ)
    (nonce : Vector UInt8 16) : Except String Units :=
  if secretKey.length ≠ 64 then
    .error s!"generateRotatingPayload: secretKey must be 64 bytes, got {secretKey.length}."
  else
    let message := payloadMessage ticketId (windowStart nowMs) nonce
    .ok (toBase64Url (message ++ nacl.signDetached message secretKey))

structure ParsedPayload where
  version : ℕ
  timestampS : ℚ
  ticketId : Units
  nonce : Bytes
  signature : Bytes
  signedMessage : Bytes
  deriving DecidableEq

def parsePayload (encoded : Units) : Except String ParsedPayload :=
  let buf := fromBase64Url encoded
  if buf.length ≠ PayloadOffsets.total then
    .error s!"parsePayload: expected {PayloadOffsets.total} bytes, got {buf.length}."
  else
    let version := (buf.getD PayloadOffsets.version 0).toNat
    if version ≠ payloadVersion then .error s!"parsePayload: unsupported version {version}."
    else .ok
      { version
        timestampS := readUint64BE buf PayloadOffsets.timestamp
        ticketId := decodeFixedString ((buf.drop PayloadOffsets.ticketId).take
          (PayloadOffsets.nonce - PayloadOffsets.ticketId))
        nonce := (buf.drop PayloadOffsets.nonce).take
          (PayloadOffsets.signature - PayloadOffsets.nonce)
        signature := buf.drop PayloadOffsets.signature
        signedMessage := buf.take PayloadOffsets.signature }

inductive VerifyReason where
  | invalidSignature
  | expiredTimestamp
  | badPayload
  deriving DecidableEq, Repr

/-- `none` when `tweetnacl` throws. -/
def verifyPayload (nacl : Nacl) (encoded : Units) (publicKey : Bytes) (nowMs : ℚ) :
    Option (Except VerifyReason (Units × ℚ)) :=
  match parsePayload encoded with
  | .error _ => some (.error .badPayload)
  | .ok parsed =>
    match nacl.verifyDetached parsed.signedMessage parsed.signature publicKey with
    | none => none
    | some false => some (.error .invalidSignature)
    | some true =>
      let nowS : ℚ := ⌊toDouble (nowMs / 1000)⌋
      let delta := |toDouble (nowS - parsed.timestampS)|
      if ((payloadWindowS + scannerClockDriftS : ℕ) : ℚ) < delta then
        some (.error .expiredTimestamp)
      else some (.ok (parsed.ticketId, parsed.timestampS))

/-! ### Fields -/

theorem toUint32_natCast (n : ℕ) : toUint32 n = n % 2 ^ 32 := by
  rw [toUint32, if_pos (Nat.cast_nonneg n), Int.floor_natCast]
  omega

theorem setUint32_length (x : ℚ) : (setUint32 x).length = 4 := rfl

theorem getUint32_setUint32 {n : ℕ} (hn : n < 2 ^ 32) (pre rest : Bytes) :
    getUint32 (pre ++ (setUint32 n ++ rest)) pre.length = n := by
  have htake : (setUint32 n ++ rest).take 4 = setUint32 n := List.take_left' (setUint32_length n)
  rw [getUint32, List.drop_left, htake, setUint32, toUint32_natCast, Nat.mod_eq_of_lt hn]
  simp only [List.foldl_cons, List.foldl_nil, UInt8.toNat_ofNat']
  omega

theorem writeUint64BE_length (x : ℚ) : (writeUint64BE x).length = 8 := rfl

theorem readUint64BE_writeUint64BE {t : ℕ} (ht : t < 2 ^ 53) (pre rest : Bytes) :
    readUint64BE (pre ++ (writeUint64BE t ++ rest)) pre.length = t := by
  have hpow : (0x100000000 : ℚ) = 2 ^ 32 := by norm_num
  have hhi : ⌊toDouble ((t : ℚ) / 0x100000000)⌋ = (t / 2 ^ 32 : ℕ) := by
    have habs : |((t : ℤ) : ℚ)| < 2 ^ 53 := by
      rw [Int.cast_natCast, abs_of_nonneg (Nat.cast_nonneg t)]
      exact_mod_cast ht
    have hexact := toDouble_div_two_pow (j := 32) (by omega) habs
    have hfloor := Rat.floor_natCast_div_natCast t (2 ^ 32)
    rw [Int.cast_natCast] at hexact
    rw [Nat.cast_pow, Nat.cast_ofNat] at hfloor
    rw [hpow, hexact, hfloor]
    rfl
  have hwrite : writeUint64BE t = setUint32 (t / 2 ^ 32 : ℕ) ++ setUint32 (t % 2 ^ 32 : ℕ) := by
    rw [writeUint64BE, hhi, toUint32_natCast, Int.cast_natCast]
  -- the two words and what they are together
  have hq : t / 2 ^ 32 < 2 ^ 32 := by omega
  have hr : t % 2 ^ 32 < 2 ^ 32 := by omega
  have hsplit : t / 2 ^ 32 * 2 ^ 32 + t % 2 ^ 32 = t := by omega
  generalize t / 2 ^ 32 = q at *
  generalize t % 2 ^ 32 = r at *
  have hgethi := getUint32_setUint32 hq pre (setUint32 r ++ rest)
  have hgetlo := getUint32_setUint32 hr (pre ++ setUint32 q) rest
  rw [List.length_append, setUint32_length, List.append_assoc] at hgetlo
  have hmul := toDouble_natCast (n := q * 2 ^ 32) (by omega)
  have hsum := toDouble_natCast (n := q * 2 ^ 32 + r) (by omega)
  rw [readUint64BE, hwrite, List.append_assoc, hgethi, hgetlo, ← hsplit]
  push_cast at hmul hsum ⊢
  rw [hmul, hsum]

/-! ### Windows -/

/-- The window that a device takes for the current one is at most one off. -/
theorem windowStart_eq {d : ℚ} (h0 : 0 ≤ d) (h : d < 2 ^ 53) :
    ∃ k : ℕ, windowStart d = (k * payloadWindowS : ℕ) ∧ k * payloadWindowS < 2 ^ 53 ∧
      15 * ((k : ℚ) - 1) < d / 1000 ∧ d / 1000 < 15 * ((k : ℚ) + 1) := by
  have hseconds : |d / 1000| < 2 ^ 53 := by
    rw [abs_of_nonneg (by positivity)]
    linarith
  have ha0 : 0 ≤ toDouble (d / 1000) := by
    have := le_toDouble (m := 0) hseconds (by rw [Int.cast_zero]; positivity)
    exact_mod_cast this
  have ha1 : toDouble (d / 1000) ≤ 2 ^ 52 := by
    have := toDouble_le (m := 2 ^ 52) hseconds (by push_cast; linarith)
    exact_mod_cast this
  have hwindows : |toDouble (d / 1000) / 15| < 2 ^ 53 := by
    rw [abs_of_nonneg (by positivity)]
    linarith
  have hb0 : 0 ≤ ⌊toDouble (toDouble (d / 1000) / 15)⌋ := by
    refine Int.floor_nonneg.mpr ?_
    have := le_toDouble (m := 0) hwindows (by rw [Int.cast_zero]; positivity)
    exact_mod_cast this
  obtain ⟨k, hk⟩ := Int.eq_ofNat_of_zero_le hb0
  have hle : (k : ℚ) ≤ toDouble (toDouble (d / 1000) / 15) := by
    have := Int.floor_le (toDouble (toDouble (d / 1000) / 15))
    rwa [hk] at this
  have hlt : toDouble (toDouble (d / 1000) / 15) < k + 1 := by
    have := Int.lt_floor_add_one (toDouble (toDouble (d / 1000) / 15))
    rwa [hk] at this
  have hlower : 15 * ((k : ℚ) - 1) < d / 1000 := by
    by_contra hno
    have ha := toDouble_le (m := 15 * (k - 1)) hseconds (by push_cast; linarith)
    push_cast at ha
    have hb := toDouble_le (m := k - 1) hwindows (by push_cast; linarith)
    push_cast at hb
    linarith
  have hupper : d / 1000 < 15 * ((k : ℚ) + 1) := by
    by_contra hno
    have ha := le_toDouble (m := 15 * (k + 1)) hseconds (by push_cast; linarith)
    push_cast at ha
    have hb := le_toDouble (m := k + 1) hwindows (by push_cast; linarith)
    push_cast at hb
    linarith
  have hbound : k * payloadWindowS < 2 ^ 53 := by
    have hq : (k : ℚ) * 15 < 2 ^ 53 := by linarith
    exact_mod_cast hq
  refine ⟨k, ?_, hbound, hlower, hupper⟩
  rw [windowStart, show ((payloadWindowS : ℕ) : ℚ) = 15 by norm_num [payloadWindowS], hk]
  have hexact := toDouble_natCast hbound
  rw [Nat.cast_mul, show ((payloadWindowS : ℕ) : ℚ) = 15 by norm_num [payloadWindowS]] at hexact ⊢
  exact hexact

/-- Within a minute, the scanner is within the window and the drift. -/
theorem delta_le {d n : ℚ} {k : ℕ} (hn0 : 0 ≤ n) (hn : n < 2 ^ 53) (hdn : |n - d| ≤ 60000)
    (hlower : 15 * ((k : ℚ) - 1) < d / 1000) (hupper : d / 1000 < 15 * ((k : ℚ) + 1)) :
    |toDouble ((⌊toDouble (n / 1000)⌋ : ℚ) - (k * payloadWindowS : ℕ))| ≤
      ((payloadWindowS + scannerClockDriftS : ℕ) : ℚ) := by
  have hseconds : |n / 1000| < 2 ^ 53 := by
    rw [abs_of_nonneg (by positivity)]
    linarith
  obtain ⟨hd1, hd2⟩ := abs_le.mp hdn
  have h1 : 15 * (k : ℤ) - 75 ≤ ⌊toDouble (n / 1000)⌋ := by
    refine Int.le_floor.mpr (le_toDouble hseconds ?_)
    push_cast
    linarith
  have h2 : ⌊toDouble (n / 1000)⌋ ≤ 15 * (k : ℤ) + 75 := by
    have hle := toDouble_le (m := 15 * (k : ℤ) + 75) hseconds (by push_cast; linarith)
    exact_mod_cast (Int.floor_le _).trans hle
  have hint : (⌊toDouble (n / 1000)⌋ : ℚ) - (k * payloadWindowS : ℕ) =
      ((⌊toDouble (n / 1000)⌋ - 15 * (k : ℤ) : ℤ) : ℚ) := by
    push_cast [payloadWindowS]
    ring
  have habs : |(⌊toDouble (n / 1000)⌋ - 15 * (k : ℤ) : ℤ)| ≤ 75 := abs_le.mpr ⟨by omega, by omega⟩
  have hcast : |((⌊toDouble (n / 1000)⌋ - 15 * (k : ℤ) : ℤ) : ℚ)| ≤ 75 := by exact_mod_cast habs
  rw [hint, toDouble_intCast (hcast.trans_lt (by norm_num))]
  exact hcast.trans (by norm_num [payloadWindowS, scannerClockDriftS])

/-! ### Payloads -/

/-- What comes back of an id that went through the field. -/
def carriedId (ticketId : Units) : Units :=
  decodeFixedString (encodeFixedString ticketId ticketIdFieldBytes)

theorem encodeFixedString_length (s : Units) (n : ℕ) : (encodeFixedString s n).length = n := by
  simp only [encodeFixedString, List.length_append, List.length_take, List.length_replicate]
  omega

variable {nacl : Nacl} {ticketId : Units} {nonce : Vector UInt8 16} {signature : Bytes} {t : ℕ}

theorem payloadMessage_length (ticketId : Units) (x : ℚ) (nonce : Vector UInt8 16) :
    (payloadMessage ticketId x nonce).length = PayloadOffsets.signature := by
  simp [payloadMessage, writeUint64BE_length, encodeFixedString_length, ticketIdFieldBytes,
    PayloadOffsets.signature]

variable (ticketId nonce) in
/-- **Payloads.** The fields are read back, the id as far as its field carries it. -/
theorem parsePayload_toBase64Url (ht : t < 2 ^ 53) (hs : signature.length = 64) :
    parsePayload (toBase64Url (payloadMessage ticketId t nonce ++ signature)) = .ok
      { version := payloadVersion
        timestampS := t
        ticketId := carriedId ticketId
        nonce := nonce.toList
        signature := signature
        signedMessage := payloadMessage ticketId t nonce } := by
  have hlen := payloadMessage_length ticketId t nonce
  have htotal : (payloadMessage ticketId t nonce ++ signature).length = PayloadOffsets.total := by
    rw [List.length_append, hlen, hs]
    rfl
  have hread := readUint64BE_writeUint64BE ht [.ofNat payloadVersion]
    (encodeFixedString ticketId ticketIdFieldBytes ++ nonce.toList ++ signature)
  have hid := encodeFixedString_length ticketId ticketIdFieldBytes
  have hnonce : nonce.toList.length = 16 := by simp
  -- the buffer, field by field
  have hbuf : payloadMessage ticketId t nonce ++ signature =
      [.ofNat payloadVersion] ++ (writeUint64BE t ++
        (encodeFixedString ticketId ticketIdFieldBytes ++ (nonce.toList ++ signature))) := by
    simp [payloadMessage]
  have hdropId : (payloadMessage ticketId t nonce ++ signature).drop PayloadOffsets.ticketId =
      encodeFixedString ticketId ticketIdFieldBytes ++ (nonce.toList ++ signature) := by
    rw [hbuf, ← List.append_assoc]
    exact List.drop_left' (by simp [writeUint64BE_length, PayloadOffsets.ticketId])
  have hdropNonce : (payloadMessage ticketId t nonce ++ signature).drop PayloadOffsets.nonce =
      nonce.toList ++ signature := by
    rw [hbuf, ← List.append_assoc, ← List.append_assoc]
    exact List.drop_left' (by simp [writeUint64BE_length, PayloadOffsets.nonce,
      encodeFixedString_length, ticketIdFieldBytes])
  have hversion : ((payloadMessage ticketId t nonce ++ signature).getD PayloadOffsets.version
      0).toNat = payloadVersion := by
    rw [hbuf]
    rfl
  have hstamp : readUint64BE (payloadMessage ticketId t nonce ++ signature)
      PayloadOffsets.timestamp = t := by
    rw [List.append_assoc] at hread
    rw [hbuf]
    exact hread
  have htakeId : (encodeFixedString ticketId ticketIdFieldBytes ++ (nonce.toList ++ signature)).take
      (PayloadOffsets.nonce - PayloadOffsets.ticketId) =
        encodeFixedString ticketId ticketIdFieldBytes := List.take_left' hid
  have htakeNonce : (nonce.toList ++ signature).take
      (PayloadOffsets.signature - PayloadOffsets.nonce) = nonce.toList := List.take_left' hnonce
  simp only [parsePayload, fromBase64Url_toBase64Url, htotal, ne_eq, not_true_eq_false, if_false,
    hversion, hstamp, hdropId, hdropNonce, htakeId, htakeNonce, List.take_left' hlen,
    List.drop_left' hlen]
  rfl

variable (ticketId nonce) in
/-- A payload that was generated parses and verifies, within a minute. -/
theorem verifyPayload_generated {seed : Bytes} {d n : ℚ} (hnacl : nacl.Correct)
    (hseed : seed.length = 32) (hd0 : 0 ≤ d) (hd : d < 2 ^ 53) (hn0 : 0 ≤ n) (hn : n < 2 ^ 53)
    (hdn : |n - d| ≤ 60000) :
    ∃ encoded parsed, generateRotatingPayload nacl ticketId (nacl.secretKeyFromSeed seed) d nonce =
        .ok encoded ∧
      parsePayload encoded = .ok parsed ∧ parsed.ticketId = carriedId ticketId ∧
      parsed.timestampS = windowStart d ∧
      verifyPayload nacl encoded (nacl.publicKeyFromSeed seed) n =
        some (.ok (carriedId ticketId, windowStart d)) := by
  obtain ⟨k, hk, hbound, hlower, hupper⟩ := windowStart_eq hd0 hd
  have hkey := hnacl.secretKey_length seed hseed
  have hparse := parsePayload_toBase64Url ticketId nonce hbound
    (hnacl.signature_length (payloadMessage ticketId (k * payloadWindowS : ℕ) nonce) _ hkey)
  refine ⟨_, _, ?_, hparse, rfl, hk.symm, ?_⟩
  · rw [generateRotatingPayload, if_neg (not_not.mpr hkey), hk]
  · have hdelta := delta_le hn0 hn hdn hlower hupper
    simp only [verifyPayload, hparse, hnacl.verify_sign seed _ hseed, hk]
    rw [if_neg (not_lt.mpr hdelta)]

end Agora.Mobile
