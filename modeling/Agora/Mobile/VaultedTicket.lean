import Agora.Mobile.OfflineScanner
import Mathlib.Data.Bool.AllAny
import Mathlib.Data.Nat.Digits.Defs

/-!
# Tickets of the vault at the gate

`generatePaymentId` of `services/ticketPaymentContract.ts`, the keys that
`services/ticketVault.ts` exports, and the first scan of the payload that the
ticket screen shows. The id of a purchase goes through the field of 16 bytes
of the payload: a ticket scans as itself exactly where its id fits the field.
-/

namespace Agora.Mobile

open Lib

/-! ## Payment ids -/

def base36Digits : Units := js "0123456789abcdefghijklmnopqrstuvwxyz"

/-- `Number.toString(36)` of an integer. -/
def toString36 (n : ℤ) : Units :=
  (if n < 0 then js "-" else []) ++
    if n = 0 then js "0" else
      ((Nat.digits 36 n.natAbs).reverse.map fun i => base36Digits.getD i 0)

/-- What `generatePaymentId` takes: its arguments, `Date.now()`, and what is left of
`Math.random()`, which may be nothing. -/
structure Checkout where
  eventId : Units
  buyerPublicKey : Units
  now : ℤ
  random : Units
  random_length : random.length ≤ 6
  random_digits : ∀ u ∈ random, u ∈ base36Digits

def maxPaymentId : ℕ := 64

def generatePaymentId (c : Checkout) : Units :=
  let shortBuyer := c.buyerPublicKey.take 6
  (js "pay-" ++ c.eventId ++ js "-" ++ shortBuyer ++ js "-" ++ toString36 c.now ++ js "-" ++
    c.random).take maxPaymentId

/-- The id fits the field of the payload. -/
def Fits (ticketId : Units) : Prop :=
  WellFormed ticketId ∧ (encode (scalars ticketId)).length ≤ ticketIdFieldBytes

instance (ticketId : Units) : Decidable (Fits ticketId) := inferInstanceAs (Decidable (_ ∧ _))

theorem generatePaymentId_head (c : Checkout) :
    ∃ rest, scalars (generatePaymentId c) = 'p' :: rest := by
  refine ⟨scalars ((js "ay-" ++ c.eventId ++ js "-" ++ c.buyerPublicKey.take 6 ++ js "-" ++
    toString36 c.now ++ js "-" ++ c.random).take 63), ?_⟩
  exact scalars_utf16_append 'p' _

/-- An id that was not cut ends in a digit or in the last separator. -/
theorem generatePaymentId_concat (c : Checkout) (h : (generatePaymentId c).length < maxPaymentId) :
    ∃ s, ∃ u ∈ js "-" ++ base36Digits, generatePaymentId c = s ++ [u] := by
  have hwhole : generatePaymentId c = js "pay-" ++ c.eventId ++ js "-" ++
      c.buyerPublicKey.take 6 ++ js "-" ++ toString36 c.now ++ js "-" ++ c.random := by
    refine List.take_of_length_le ?_
    rw [generatePaymentId, List.length_take] at h
    omega
  rw [hwhole]
  rcases List.eq_nil_or_concat c.random with hnil | ⟨s, u, hlast⟩
  · rw [hnil, List.append_nil]
    exact ⟨_, _, by decide, rfl⟩
  · have hdigit := c.random_digits u (by simp [hlast])
    rw [hlast, List.concat_eq_append, ← List.append_assoc]
    exact ⟨_, u, List.mem_append_right _ hdigit, rfl⟩

/-- The units at the end are characters of one byte, which is not zero. -/
theorem last_unit : ∀ u ∈ js "-" ++ base36Digits, isLowSurrogate u = false ∧
    loneUnit u ≠ replacement ∧ String.utf8EncodeChar (loneUnit u) = [.ofNat u.toNat] ∧
      UInt8.ofNat u.toNat ≠ 0 :=
  List.all_iff_forall_prop.mp (by decide)

/-! ## The field of the payload -/

theorem stripZeros_append_zeros (bytes : Bytes) (n : ℕ) :
    stripZeros (bytes ++ List.replicate n 0) = stripZeros bytes := by
  induction n with
  | zero => rw [List.replicate_zero, List.append_nil]
  | succ n ih =>
    rw [List.replicate_succ', ← List.append_assoc, stripZeros, List.rdropWhile_concat_pos _ _ _ rfl]
    exact ih

/-- The decoder sees a cut of the encoding. -/
theorem stripZeros_encodeFixedString (s : Units) (n : ℕ) :
    ∃ m ≤ n, stripZeros (encodeFixedString s n) = (encode (scalars s)).take m := by
  rw [encodeFixedString, stripZeros_append_zeros]
  have hprefix := (List.rdropWhile_prefix (· == 0) ((encode (scalars s)).take n)).trans
    (List.take_prefix n _)
  refine ⟨_, ?_, List.prefix_iff_eq_take.mp hprefix⟩
  exact ((List.rdropWhile_prefix _ _).length_le).trans (List.length_take_le ..)

/-- An encoding that fits and has no zero at the end is what the decoder sees. -/
theorem stripZeros_of_fits {s : Units} {n : ℕ} {bytes : Bytes} {b : UInt8} (hb : b ≠ 0)
    (hbytes : encode (scalars s) = bytes ++ [b]) (hn : (encode (scalars s)).length ≤ n) :
    stripZeros (encodeFixedString s n) = encode (scalars s) := by
  rw [encodeFixedString, stripZeros_append_zeros, List.take_of_length_le hn, hbytes, stripZeros,
    List.rdropWhile_concat_neg _ _ _ (by simpa using hb)]

/-- **The field.** An id that `generatePaymentId` returned comes back exactly when it fits. -/
theorem carriedId_eq_iff (c : Checkout) :
    carriedId (generatePaymentId c) = generatePaymentId c ↔ Fits (generatePaymentId c) := by
  obtain ⟨rest, hhead⟩ := generatePaymentId_head c
  constructor
  · intro h
    have hwell : WellFormed (generatePaymentId c) := by
      rw [← h]
      exact wellFormed_units _
    refine ⟨hwell, ?_⟩
    by_contra hlong
    obtain ⟨m, hm, hcut⟩ := stripZeros_encodeFixedString (generatePaymentId c) ticketIdFieldBytes
    -- what was decoded is the text itself, of which the field holds a part
    have hdecode : decode ((encode (scalars (generatePaymentId c))).take m) =
        scalars (generatePaymentId c) := by
      have hscalars := congrArg scalars h
      rwa [carriedId, decodeFixedString, hcut, scalars_units] at hscalars
    rw [hhead, decode_encode_take rest (by decide), ← hhead] at hdecode
    obtain ⟨ds, hreplaced, hshort⟩ := Decoder.eq_concat_of_decode_take (by omega) hdecode
    -- so short an id was not cut, and its last character is none that U+FFFD stands for
    have hlen := length_le_encode hwell
    have h16 : ticketIdFieldBytes = 16 := rfl
    have h64 : maxPaymentId = 64 := rfl
    obtain ⟨s, u, hu, hlast⟩ := generatePaymentId_concat c (by omega)
    obtain ⟨hlow, hne, -, -⟩ := last_unit u hu
    rw [hlast, scalars_concat hlow] at hreplaced
    exact hne (List.cons.inj (List.append_inj' hreplaced rfl).2).1
  · rintro ⟨hwell, hfits⟩
    have hlen := length_le_encode hwell
    have h16 : ticketIdFieldBytes = 16 := rfl
    have h64 : maxPaymentId = 64 := rfl
    obtain ⟨s, u, hu, hlast⟩ := generatePaymentId_concat c (by omega)
    obtain ⟨hlow, -, hbyte, hne⟩ := last_unit u hu
    have hbytes : encode (scalars (generatePaymentId c)) = encode (scalars s) ++ [.ofNat u.toNat] := by
      rw [hlast, scalars_concat hlow, encode_append, ← hbyte]
      simp [encode]
    have hdecode : decode (encode (scalars (generatePaymentId c))) =
        scalars (generatePaymentId c) := by
      have hmark := decode_encode_take rest (c := 'p') (by decide)
        (encode (scalars (generatePaymentId c))).length
      rw [← hhead, List.take_length, Decoder.decode_encode] at hmark
      exact hmark
    rw [carriedId, decodeFixedString, stripZeros_of_fits hne hbytes hfits, hdecode]
    exact hwell


/-! ## The gate -/

/-- A ticket of the vault with its keys, the gate that was given the public one, and the times of
the two devices in milliseconds. -/
structure GateScan (nacl : Nacl) where
  checkout : Checkout
  secretBytes : Bytes
  pair : TicketKeyPair
  nonce : Vector UInt8 16
  publicKeyMap : Units → Option Units
  records : Units → Option ScanRecord
  deviceMs : ℚ
  scannerMs : ℚ
  derived : deriveTicketKeyPair nacl secretBytes = .ok pair
  exported : publicKeyMap (generatePaymentId checkout) = some (toBase64Url pair.publicKey)
  first : records (generatePaymentId checkout) = none
  device_nonneg : 0 ≤ deviceMs
  device_lt : deviceMs < 2 ^ 53
  scanner_nonneg : 0 ≤ scannerMs
  scanner_lt : scannerMs < 2 ^ 53
  near : |scannerMs - deviceMs| ≤ 60000

namespace GateScan

variable {device : Device}

def paymentId (g : GateScan device.nacl) : Units := generatePaymentId g.checkout

/-- The payload on the screen. -/
def payload (g : GateScan device.nacl) : Except String Units :=
  generateRotatingPayload device.nacl g.paymentId g.pair.secretKey g.deviceMs g.nonce

/-- The scanner after the scan. -/
def scanned (g : GateScan device.nacl) (encoded : Units) : Scanner :=
  run (Scanner.step device) (.new g.publicKeyMap g.records)
    [.scan 0 encoded g.scannerMs, .get 0, .set 0]

/-- The scan of the payload is an admission under the id of the ticket. -/
def ScansAsItself (g : GateScan device.nacl) : Prop :=
  ∃ encoded record, g.payload = .ok encoded ∧ (g.scanned encoded).Admits 0 g.paymentId record

/-- The payload carries the id. -/
def Carries (g : GateScan device.nacl) (ticketId : Units) : Prop :=
  ∃ encoded parsed, g.payload = .ok encoded ∧ parsePayload encoded = .ok parsed ∧
    parsed.ticketId = ticketId

end GateScan

namespace Scanner

variable {device : Device} {publicKeyMap : Units → Option Units}
  {records : Units → Option ScanRecord} {encoded ticketId : Units} {nowMs : ℚ}
  {record : ScanRecord} {parsed : ParsedPayload}

theorem ticketId_of_get {publicKeys : Units → Option Bytes}
    (hparse : parsePayload encoded = .ok parsed)
    (h : scanPayload device publicKeys encoded nowMs = .get record) :
    record.ticketId = parsed.ticketId := by
  simp only [scanPayload, hparse] at h
  split at h
  · cases h
  · split at h
    · cases h
    · cases h
    · cases h
    · cases h
    · cases h
      rfl

/-- What the log makes of a phase when nothing comes between its calls. -/
def settle (device : Device) (records : Units → Option ScanRecord) (phase : ScanPhase) : ScanPhase :=
  let asked := match phase with
    | .get record => afterGet device record (records record.ticketId)
    | phase => phase
  match asked with
  | .set record => .done (admitted record)
  | phase => phase

theorem scans_run : (run (step device) (new publicKeyMap records)
      [.scan 0 encoded nowMs, .get 0, .set 0]).scans 0 =
    some (settle device records
      (scanPayload device (new publicKeyMap records).publicKeys encoded nowMs)) := by
  have hstart : commit (step device) (new publicKeyMap records) (.scan 0 encoded nowMs) =
      ⟨(new publicKeyMap records).publicKeys, records, Function.update (fun _ => none) 0
        (some (scanPayload device (new publicKeyMap records).publicKeys encoded nowMs))⟩ := rfl
  rw [run_cons, run_cons, run_cons, run_nil, hstart]
  generalize scanPayload device (new publicKeyMap records).publicKeys encoded nowMs = phase
  cases phase with
  | get record => cases hrecord : records record.ticketId <;>
      simp [commit, step, settle, afterGet, hrecord]
  | set record => simp [commit, step, settle]
  | done outcome => simp [commit, step, settle]
  | thrown => simp [commit, step, settle]

/-- A scan that verified, of a ticket without a record. -/
theorem admits_of_get (hrecord : records record.ticketId = none)
    (hscan : scanPayload device (new publicKeyMap records).publicKeys encoded nowMs =
      .get record) :
    (run (step device) (new publicKeyMap records) [.scan 0 encoded nowMs, .get 0, .set 0]).Admits 0
      record.ticketId record := by
  refine ⟨admitted record, ?_, rfl, rfl, rfl⟩
  rw [scans_run, hscan, settle]
  simp only [hrecord, afterGet]

theorem ticketId_of_admits (hparse : parsePayload encoded = .ok parsed)
    (h : (run (step device) (new publicKeyMap records)
      [.scan 0 encoded nowMs, .get 0, .set 0]).Admits 0 ticketId record) :
    ticketId = parsed.ticketId := by
  obtain ⟨outcome, hdone, hvalid, hid, -⟩ := h
  rw [scans_run, Option.some.injEq] at hdone
  obtain ⟨hdenies, hset⟩ := scanPayload_cases device
    (new publicKeyMap records).publicKeys encoded nowMs
  cases hphase : scanPayload device (new publicKeyMap records).publicKeys encoded nowMs with
  | get r =>
    have hr := ticketId_of_get hparse hphase
    rw [hphase, settle] at hdone
    cases hrecord : records r.ticketId with
    | none =>
      simp only [hrecord, afterGet, ScanPhase.done.injEq] at hdone
      subst hdone
      rw [← hr]
      exact (Option.some.inj hid).symm
    | some existing =>
      simp only [hrecord, afterGet, ScanPhase.done.injEq] at hdone
      subst hdone
      cases hvalid
  | set r => exact absurd hphase (hset r)
  | done _ =>
    rw [hphase] at hdone
    cases hdone
    exact absurd hvalid (hdenies _ hphase)
  | thrown =>
    rw [hphase] at hdone
    cases hdone

end Scanner

namespace GateScan

variable {device : Device}

theorem payload_verifies (hnacl : device.nacl.Correct) (g : GateScan device.nacl) :
    ∃ encoded parsed, g.payload = .ok encoded ∧ parsePayload encoded = .ok parsed ∧
      parsed.ticketId = carriedId g.paymentId ∧
      verifyPayload device.nacl encoded g.pair.publicKey g.scannerMs =
        some (.ok (carriedId g.paymentId, windowStart g.deviceMs)) := by
  have hderived := g.derived
  unfold deriveTicketKeyPair at hderived
  split at hderived
  · cases hderived
  · next hlen =>
    have hpair := (Except.ok.inj hderived).symm
    obtain ⟨encoded, parsed, hgenerate, hparse, hid, -, hverify⟩ :=
      verifyPayload_generated g.paymentId g.nonce hnacl
        (not_not.mp hlen) g.device_nonneg g.device_lt g.scanner_nonneg g.scanner_lt g.near
    refine ⟨encoded, parsed, ?_, hparse, hid, ?_⟩
    · rw [payload, hpair]
      exact hgenerate
    · rw [hpair]
      exact hverify

theorem carries_iff (hnacl : device.nacl.Correct) (g : GateScan device.nacl) (ticketId : Units) :
    g.Carries ticketId ↔ ticketId = carriedId g.paymentId := by
  obtain ⟨encoded, parsed, hpayload, hparse, hid, -⟩ := g.payload_verifies hnacl
  constructor
  · rintro ⟨encoded', parsed', hpayload', hparse', rfl⟩
    obtain rfl := Except.ok.inj (hpayload.symm.trans hpayload')
    obtain rfl := Except.ok.inj (hparse.symm.trans hparse')
    exact hid
  · intro h
    rw [h]
    exact ⟨encoded, parsed, hpayload, hparse, hid⟩

theorem scansAsItself_iff (hnacl : device.nacl.Correct) (g : GateScan device.nacl) :
    g.ScansAsItself ↔ Fits g.paymentId := by
  obtain ⟨encoded, parsed, hpayload, hparse, hid, hverify⟩ := g.payload_verifies hnacl
  rw [paymentId, ← carriedId_eq_iff, ← paymentId]
  constructor
  · rintro ⟨encoded', record, hpayload', hadmits⟩
    obtain rfl := Except.ok.inj (hpayload.symm.trans hpayload')
    exact hid.symm.trans (Scanner.ticketId_of_admits hparse hadmits).symm
  · intro hcarried
    rw [hcarried] at hid hverify
    have hkey : (Scanner.new g.publicKeyMap g.records).publicKeys g.paymentId =
        some g.pair.publicKey := by
      have hexported : g.publicKeyMap g.paymentId = some (toBase64Url g.pair.publicKey) := g.exported
      simp only [Scanner.new, hexported, Option.map_some, fromBase64Url_toBase64Url]
    have hscan : scanPayload device (Scanner.new g.publicKeyMap g.records).publicKeys encoded
        g.scannerMs = .get ⟨g.paymentId, ⌊toDouble (g.scannerMs / 1000)⌋, parsed.timestampS⟩ := by
      simp only [scanPayload, hparse, hid, hkey, hverify]
    exact ⟨encoded, _, hpayload, Scanner.admits_of_get g.first hscan⟩

namespace Sample

open Scanner.Sample

/-- The first scan of a purchase at a gate that knows every ticket. -/
def gate (checkout : Checkout) : GateScan phone.nacl where
  checkout := checkout
  secretBytes := seed
  pair := ⟨seed, seed ++ seed⟩
  nonce := Vector.replicate 16 1
  publicKeyMap _ := some (toBase64Url seed)
  records _ := none
  deviceMs := 0
  scannerMs := 0
  derived := rfl
  exported := rfl
  first := rfl
  device_nonneg := le_rfl
  device_lt := by norm_num
  scanner_nonneg := le_rfl
  scanner_lt := by norm_num
  near := by norm_num

/-- A purchase of a test, with a short id. -/
def short (eventId : String) : Checkout :=
  ⟨js eventId, js "G", 0, js "ab", by decide, List.all_iff_forall_prop.mp (by decide)⟩

/-- A purchase as they are made. -/
def bought (now : ℤ) : Checkout :=
  ⟨js "42", js "GBRPYHIL2CI3FNQ4BXLFMNDLFJUNPU2HY3ZMFSHONUCEOASW7QC7OX2H", now, js "k3x9qz",
    by decide, List.all_iff_forall_prop.mp (by decide)⟩

end Sample

/-- **Tickets at the gate.** The first scans of two tickets admit each as itself, and their
payloads carry different ids when they have different ids, exactly when both ids fit the field of
the payload. -/
theorem vaulted_tickets_scan_iff (hnacl : device.nacl.Correct) (g g' : GateScan device.nacl) :
    (g.ScansAsItself ∧ g'.ScansAsItself ∧
        ∀ ticketId, g.Carries ticketId → g'.Carries ticketId → g.paymentId = g'.paymentId) ↔
      Fits g.paymentId ∧ Fits g'.paymentId := by
  rw [scansAsItself_iff hnacl, scansAsItself_iff hnacl]
  constructor
  · rintro ⟨hg, hg', -⟩
    exact ⟨hg, hg'⟩
  · rintro ⟨hg, hg'⟩
    refine ⟨hg, hg', fun ticketId h h' => ?_⟩
    rw [carries_iff hnacl] at h h'
    calc g.paymentId = carriedId g.paymentId := ((carriedId_eq_iff g.checkout).mpr hg).symm
      _ = carriedId g'.paymentId := h.symm.trans h'
      _ = g'.paymentId := (carriedId_eq_iff g'.checkout).mpr hg'

theorem vaulted_tickets_scan_short :
    (Sample.gate (Sample.short "1")).ScansAsItself ∧ (Sample.gate (Sample.short "2")).ScansAsItself ∧
      ∀ ticketId, (Sample.gate (Sample.short "1")).Carries ticketId →
        (Sample.gate (Sample.short "2")).Carries ticketId →
          (Sample.gate (Sample.short "1")).paymentId = (Sample.gate (Sample.short "2")).paymentId :=
  (vaulted_tickets_scan_iff Scanner.Sample.nacl_correct _ _).mpr
    ⟨by decide, by decide +kernel⟩

/-- Two purchases of one buyer in one month: neither ticket scans as itself, and both payloads carry
one id. -/
theorem vaulted_tickets_cut :
    ¬ (Sample.gate (Sample.bought 1767225600000)).ScansAsItself ∧
      (Sample.gate (Sample.bought 1767225600000)).paymentId ≠
        (Sample.gate (Sample.bought 1767312000000)).paymentId ∧
      (Sample.gate (Sample.bought 1767225600000)).Carries (js "pay-42-GBRPYH-mj") ∧
      (Sample.gate (Sample.bought 1767312000000)).Carries (js "pay-42-GBRPYH-mj") := by
  refine ⟨fun h => ?_, by decide, ?_, ?_⟩
  · have hfits := (scansAsItself_iff Scanner.Sample.nacl_correct _).mp h
    revert hfits
    decide
  · rw [carries_iff Scanner.Sample.nacl_correct]
    decide
  · rw [carries_iff Scanner.Sample.nacl_correct]
    decide

end GateScan

end Agora.Mobile
