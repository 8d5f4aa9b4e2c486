import Agora.Lib.Machine
import Agora.Mobile.Crypto
import Mathlib.Logic.Function.Basic

/-!
# The offline scanner

`services/offlineScanner.ts`. A scan parses and verifies a payload, asks the
scan log for the ticket and, when the log has no record, writes one and
admits. The two calls to the log are awaited, so scans overlap between them: a
ticket is admitted once exactly where every scan that writes a record finds
none in its place (`RecordsFresh`).
-/

namespace Agora.Mobile

open Lib Function

inductive ScanResult where
  | valid
  | invalidSignature
  | expiredTimestamp
  | alreadyScanned
  | badPayload
  | unknownTicket
  deriving DecidableEq, Repr

structure ScanRecord where
  ticketId : Units
  scannedAtS : ℚ
  payloadTimestampS : ℚ
  deriving DecidableEq

structure ScanOutcome where
  result : ScanResult
  ticketId : Option Units
  record : Option ScanRecord
  message : Units
  deriving DecidableEq

/-- Where a scan stands: before its `get`, before its `set`, or settled. A scan throws when
`tweetnacl` does. -/
inductive ScanPhase where
  | get (record : ScanRecord)
  | set (record : ScanRecord)
  | done (outcome : ScanOutcome)
  | thrown
  deriving DecidableEq

/-- The `tweetnacl` of the app and the time format of its locale. -/
structure Device where
  nacl : Nacl
  formatTime : ℚ → Units

/-- The key map, the scan log, and the scans. -/
structure Scanner where
  publicKeys : Units → Option Bytes
  records : Units → Option ScanRecord
  scans : ℕ → Option ScanPhase

variable (device : Device)

/-- A scan up to its first `await`. -/
def scanPayload (publicKeys : Units → Option Bytes) (encoded : Units) (nowMs : ℚ) : ScanPhase :=
  match parsePayload encoded with
  | .error _ => .done
      ⟨.badPayload, none, none, js "This QR code is not a valid Agora ticket payload."⟩
  | .ok parsed =>
    let ticketId := parsed.ticketId
    match publicKeys ticketId with
    | none => .done ⟨.unknownTicket, some ticketId, none,
        js "Ticket " ++ ticketId ++
          js " is not registered for this event. Sync the scanner before the event."⟩
    | some publicKey =>
      match verifyPayload device.nacl encoded publicKey nowMs with
      | none => .thrown
      | some (.error .invalidSignature) => .done ⟨.invalidSignature, some ticketId, none,
          js "INVALID TICKET: The signature on ticket " ++ ticketId ++
            js " could not be verified. Do not admit."⟩
      | some (.error .expiredTimestamp) => .done ⟨.expiredTimestamp, some ticketId, none,
          js "EXPIRED QR CODE: The QR code for ticket " ++ ticketId ++
            js " has expired. Ask the attendee to refresh their ticket screen."⟩
      | some (.error .badPayload) => .done
          ⟨.badPayload, some ticketId, none, js "This QR code could not be verified."⟩
      | some (.ok _) => .get ⟨ticketId, ⌊toDouble (nowMs / 1000)⌋, parsed.timestampS⟩

/-- After the `get`, which found `existing`. -/
def afterGet (record : ScanRecord) (existing : Option ScanRecord) : ScanPhase :=
  match existing with
  | some existing => .done ⟨.alreadyScanned, some record.ticketId, some existing,
      js "DUPLICATE SCAN: Ticket " ++ record.ticketId ++ js " was already admitted at " ++
        device.formatTime existing.scannedAtS ++ js ". Do not admit again."⟩
  | none => .set record

/-- After the `set`. -/
def admitted (record : ScanRecord) : ScanOutcome :=
  ⟨.valid, some record.ticketId, some record,
    js "✓ ADMIT: Ticket " ++ record.ticketId ++ js " is valid."⟩

/-- The phase is no admission. -/
def ScanPhase.Denies (phase : ScanPhase) : Prop :=
  ∀ outcome, phase = .done outcome → outcome.result ≠ .valid

namespace Scanner

/-- A scanner with the exported keys and a log. -/
def new (publicKeyMap : Units → Option Units) (records : Units → Option ScanRecord) : Scanner :=
  ⟨fun ticketId => (publicKeyMap ticketId).map fromBase64Url, records, fun _ => none⟩

inductive Step where
  | scan (i : ℕ) (encoded : Units) (nowMs : ℚ)
  | get (i : ℕ)
  | set (i : ℕ)
  | addPublicKey (ticketId pubKeyB64 : Units)

/-- The error is for a step that is not the next one of a scan. -/
def step (s : Scanner) : Step → Except Unit Scanner
  | .scan i encoded nowMs =>
    match s.scans i with
    | none => .ok { s with
        scans := update s.scans i (some (scanPayload device s.publicKeys encoded nowMs)) }
    | some _ => .error ()
  | .get i =>
    match s.scans i with
    | some (.get record) => .ok { s with
        scans := update s.scans i (some (afterGet device record (s.records record.ticketId))) }
    | _ => .error ()
  | .set i =>
    match s.scans i with
    | some (.set record) => .ok { s with
        records := update s.records record.ticketId (some record)
        scans := update s.scans i (some (.done (admitted record))) }
    | _ => .error ()
  | .addPublicKey ticketId pubKeyB64 =>
    .ok { s with publicKeys := update s.publicKeys ticketId (some (fromBase64Url pubKeyB64)) }

/-- The scan admitted the ticket and returned the record. -/
def Admits (s : Scanner) (i : ℕ) (ticketId : Units) (record : ScanRecord) : Prop :=
  ∃ outcome, s.scans i = some (.done outcome) ∧ outcome.result = .valid ∧
    outcome.ticketId = some ticketId ∧ outcome.record = some record

/-- Each ticket was admitted once at most, and the log keeps the record of the admission. -/
structure AdmitsOnce (s : Scanner) : Prop where
  once : ∀ i j t r r', s.Admits i t r → s.Admits j t r' → i = j
  kept : ∀ i t r, s.Admits i t r → s.records t = some r

/-- A scan that writes a record finds none in its place. -/
def RecordsFresh (s : Scanner) : Step → Prop
  | .set i => ∀ record, s.scans i = some (.set record) → s.records record.ticketId = none
  | _ => True

variable {device} {s s' : Scanner} {a : Step} {i j : ℕ} {t : Units} {r record : ScanRecord}
  {phase : ScanPhase} {log : Units → Option ScanRecord}

/-! ## Steps -/

theorem scans_update_of_ne {scans : ℕ → Option ScanPhase} (hj : j ≠ i) :
    update scans i (some phase) j = scans j := update_of_ne hj ..

/-- A scan that goes on without admitting leaves the admissions as they are. -/
theorem admits_update {publicKeys : Units → Option Bytes} {records : Units → Option ScanRecord}
    (hdenies : phase.Denies) (hopen : ∀ outcome, s.scans i ≠ some (.done outcome)) :
    Admits ⟨publicKeys, records, update s.scans i (some phase)⟩ j t r ↔ s.Admits j t r := by
  by_cases hj : j = i
  · subst hj
    constructor
    · rintro ⟨outcome, hdone, hvalid, -⟩
      dsimp only at hdone
      rw [update_self] at hdone
      exact absurd hvalid (hdenies outcome (Option.some.inj hdone))
    · rintro ⟨outcome, hdone, -⟩
      exact absurd hdone (hopen outcome)
  · simp only [Admits, scans_update_of_ne hj]

/-- The log against the admissions, from a scanner that had the log `log`. -/
structure Logged (log : Units → Option ScanRecord) (s : Scanner) : Prop where
  admits : s.AdmitsOnce
  source : ∀ t r, s.records t = some r → log t ≠ none ∨ ∃ i, s.Admits i t r
  pending : ∀ i r, s.scans i = some (.set r) → log r.ticketId = none
  old : ∀ t, log t ≠ none → s.records t ≠ none

namespace Logged

theorem new (publicKeyMap : Units → Option Units) (log : Units → Option ScanRecord) :
    Logged log (Scanner.new publicKeyMap log) where
  admits := by
    constructor
    · rintro _ _ _ _ _ ⟨_, h, -⟩
      cases h
    · rintro _ _ _ ⟨_, h, -⟩
      cases h
  source _ r h := .inl fun hnone => Option.some_ne_none r (h.symm.trans hnone)
  pending _ _ h := by cases h
  old _ h := h

theorem go (h : Logged log s) {publicKeys : Units → Option Bytes} (hdenies : phase.Denies)
    (hopen : ∀ outcome, s.scans i ≠ some (.done outcome))
    (hset : ∀ r, phase = .set r → log r.ticketId = none) :
    Logged log ⟨publicKeys, s.records, update s.scans i (some phase)⟩ where
  admits := by
    refine ⟨fun j k t r r' hj hk => ?_, fun j t r hj => ?_⟩
    · exact h.admits.once j k t r r' ((admits_update hdenies hopen).mp hj)
        ((admits_update hdenies hopen).mp hk)
    · exact h.admits.kept j t r ((admits_update hdenies hopen).mp hj)
  source t r hr := (h.source t r hr).imp_right fun ⟨j, hj⟩ =>
    ⟨j, (admits_update hdenies hopen).mpr hj⟩
  pending j r hj := by
    dsimp only at hj
    by_cases hji : j = i
    · rw [hji, update_self] at hj
      exact hset r (Option.some.inj hj)
    · rw [scans_update_of_ne hji] at hj
      exact h.pending j r hj
  old := h.old

theorem admits_set {scans : ℕ → Option ScanPhase} {publicKeys : Units → Option Bytes}
    {records : Units → Option ScanRecord} :
    Admits ⟨publicKeys, records, update scans i (some (.done (admitted record)))⟩ j t r ↔
      (j = i ∧ t = record.ticketId ∧ r = record) ∨
        (j ≠ i ∧ Admits ⟨publicKeys, records, scans⟩ j t r) := by
  by_cases hj : j = i
  · subst hj
    simp [Admits, admitted, eq_comm]
  · simp [Admits, hj]

theorem set (h : Logged log s) (hi : s.scans i = some (.set record))
    (hfree : s.records record.ticketId = none) :
    Logged log ⟨s.publicKeys, update s.records record.ticketId (some record),
      update s.scans i (some (.done (admitted record)))⟩ := by
  -- nobody admitted the ticket before, or the log would have his record
  have hnone : ∀ j r, ¬ s.Admits j record.ticketId r := by
    intro j r hj
    rw [h.admits.kept j _ r hj] at hfree
    cases hfree
  refine ⟨⟨fun j k t r r' hj hk => ?_, fun j t r hj => ?_⟩, fun t r hr => ?_, fun j r hj => ?_,
    fun t ht => ?_⟩
  · rcases admits_set.mp hj with ⟨rfl, rfl, -⟩ | ⟨-, hj⟩
    · rcases admits_set.mp hk with ⟨rfl, -, -⟩ | ⟨-, hk⟩
      · rfl
      · exact absurd hk (hnone k r')
    · rcases admits_set.mp hk with ⟨-, rfl, -⟩ | ⟨-, hk⟩
      · exact absurd hj (hnone j r)
      · exact h.admits.once j k t r r' hj hk
  · rcases admits_set.mp hj with ⟨-, rfl, rfl⟩ | ⟨-, hj⟩
    · exact update_self ..
    · have hne : t ≠ record.ticketId := fun heq => hnone j r (heq ▸ hj)
      exact (update_of_ne hne ..).trans (h.admits.kept j t r hj)
  · dsimp only at hr
    by_cases ht : t = record.ticketId
    · subst ht
      obtain rfl : record = r := by simpa using hr
      exact .inr ⟨i, admits_set.mpr (.inl ⟨rfl, rfl, rfl⟩)⟩
    · rw [update_of_ne ht] at hr
      refine (h.source t r hr).imp_right fun ⟨j, hj⟩ => ⟨j, admits_set.mpr (.inr ⟨?_, hj⟩)⟩
      rintro rfl
      obtain ⟨outcome, hdone, -⟩ := hj
      cases hi.symm.trans hdone
  · dsimp only at hj
    by_cases hji : j = i
    · rw [hji, update_self] at hj
      cases hj
    · rw [scans_update_of_ne hji] at hj
      exact h.pending j r hj
  · dsimp only
    by_cases hr : t = record.ticketId
    · rw [hr, update_self]
      exact Option.some_ne_none _
    · rw [update_of_ne hr]
      exact h.old t ht

end Logged

theorem ScanPhase.denies_done {outcome : ScanOutcome} (h : outcome.result ≠ .valid) :
    ScanPhase.Denies (.done outcome) := by
  rintro _ ⟨⟩
  exact h

variable (device) in
/-- The first part of a scan does not admit, and it does not write next. -/
theorem scanPayload_cases (publicKeys : Units → Option Bytes) (encoded : Units) (nowMs : ℚ) :
    (scanPayload device publicKeys encoded nowMs).Denies ∧
      ∀ r, scanPayload device publicKeys encoded nowMs ≠ .set r := by
  have denied : ∀ outcome : ScanOutcome, outcome.result ≠ .valid →
      ScanPhase.Denies (.done outcome) ∧ ∀ r, ScanPhase.done outcome ≠ .set r :=
    fun outcome h => ⟨ScanPhase.denies_done h, nofun⟩
  unfold scanPayload
  split
  · exact denied _ nofun
  · dsimp only
    split
    · exact denied _ nofun
    · split
      · exact ⟨nofun, nofun⟩
      · exact denied _ nofun
      · exact denied _ nofun
      · exact denied _ nofun
      · exact ⟨nofun, nofun⟩

variable (device) in
theorem afterGet_cases (record : ScanRecord) (existing : Option ScanRecord) :
    (afterGet device record existing).Denies ∧
      ∀ r, afterGet device record existing = .set r → r = record ∧ existing = none := by
  cases existing with
  | none =>
    refine ⟨nofun, fun r h => ?_⟩
    cases h
    exact ⟨rfl, rfl⟩
  | some existing => exact ⟨ScanPhase.denies_done nofun, nofun⟩

variable (device) in
/-- A generated payload, under the key of the id that it carries. -/
theorem scanPayload_generated {publicKeys : Units → Option Bytes} {ticketId : Units}
    (nonce : Vector UInt8 16) {seed : Bytes} {d n : ℚ} (hnacl : device.nacl.Correct)
    (hseed : seed.length = 32)
    (hkey : publicKeys (carriedId ticketId) = some (device.nacl.publicKeyFromSeed seed))
    (hd0 : 0 ≤ d) (hd : d < 2 ^ 53) (hn0 : 0 ≤ n) (hn : n < 2 ^ 53) (hdn : |n - d| ≤ 60000) :
    ∃ encoded, generateRotatingPayload device.nacl ticketId (device.nacl.secretKeyFromSeed seed) d
        nonce = .ok encoded ∧
      scanPayload device publicKeys encoded n =
        .get ⟨carriedId ticketId, ⌊toDouble (n / 1000)⌋, windowStart d⟩ := by
  obtain ⟨encoded, parsed, hgenerate, hparse, hid, hstamp, hverify⟩ :=
    verifyPayload_generated ticketId nonce hnacl hseed hd0 hd hn0 hn hdn
  refine ⟨encoded, hgenerate, ?_⟩
  simp only [scanPayload, hparse, hid, hkey, hverify, hstamp]

theorem Logged.step (h : Logged log s) (hC : RecordsFresh s a)
    (hok : Scanner.step device s a = .ok s') : Logged log s' := by
  cases a with
  | scan i encoded nowMs =>
    simp only [Scanner.step] at hok
    split at hok
    · next hi =>
      obtain rfl := Except.ok.inj hok
      obtain ⟨hdenies, hset⟩ := scanPayload_cases device s.publicKeys encoded nowMs
      exact h.go hdenies (fun _ hdone => by cases hi.symm.trans hdone)
        fun r hr => absurd hr (hset r)
    · cases hok
  | get i =>
    simp only [Scanner.step] at hok
    split at hok
    · next record hi =>
      obtain rfl := Except.ok.inj hok
      obtain ⟨hdenies, hset⟩ := afterGet_cases device record
        (s.records record.ticketId)
      refine h.go hdenies (fun _ hdone => by cases hi.symm.trans hdone) fun r hr => ?_
      -- the log never loses what it had at the start
      obtain ⟨rfl, hnone⟩ := hset r hr
      by_contra hlog
      exact h.old _ hlog hnone
    · cases hok
  | set i =>
    simp only [Scanner.step] at hok
    split at hok
    · next record hi =>
      obtain rfl := Except.ok.inj hok
      exact h.set hi (hC record hi)
    · cases hok
  | addPublicKey ticketId pubKeyB64 =>
    obtain rfl := Except.ok.inj hok
    exact ⟨⟨h.admits.once, h.admits.kept⟩, h.source, h.pending, h.old⟩

/-- And a step after which tickets are admitted once met it. -/
theorem Logged.needs (h : Logged log s) (hok : Scanner.step device s a = .ok s')
    (hs' : s'.AdmitsOnce) : RecordsFresh s a := by
  cases a with
  | set i =>
    intro record hi
    simp only [Scanner.step, hi] at hok
    obtain rfl := Except.ok.inj hok
    by_contra hrecord
    obtain ⟨r, hr⟩ := Option.ne_none_iff_exists'.mp hrecord
    rcases h.source _ r hr with hlog | ⟨j, hj⟩
    · exact hlog (h.pending i record hi)
    · have hji : j ≠ i := by
        rintro rfl
        obtain ⟨outcome, hdone, -⟩ := hj
        cases hi.symm.trans hdone
      exact hji (hs'.once j i _ r record (admits_set.mpr (.inr ⟨hji, hj⟩))
        (admits_set.mpr (.inl ⟨rfl, rfl, rfl⟩)))
  | _ => exact True.intro

/-- **Overlapping scans.** Whatever the log held at the start, in every state of a run each ticket
was admitted once at most and the log keeps the record of the admission, exactly when each scan
that wrote a record found none in its place. -/
theorem admits_once_iff (device : Device) (publicKeyMap : Units → Option Units)
    (log : Units → Option ScanRecord) (steps : List Step) :
    (∀ pre, pre <+: steps → (run (step device) (new publicKeyMap log) pre).AdmitsOnce) ↔
      Along (step device) RecordsFresh (new publicKeyMap log) steps :=
  Along.iff_forall_prefix (I := Logged log) (fun _ _ _ h hC hok => h.step hC hok)
    (fun _ h => h.admits) (fun _ _ _ h hok => h.needs hok) (.new publicKeyMap log)

namespace Sample

def nacl : Nacl where
  publicKeyFromSeed seed := seed
  secretKeyFromSeed seed := seed ++ seed
  signDetached message secretKey := secretKey.take 32 ++ (message ++ List.replicate 32 0).take 32
  verifyDetached message signature publicKey :=
    if signature.length ≠ 64 ∨ publicKey.length ≠ 32 then none
    else some (signature == publicKey ++ (message ++ List.replicate 32 0).take 32)

theorem nacl_correct : nacl.Correct where
  publicKey_length _ h := h
  secretKey_length seed h := by simp [nacl, h]
  signature_length message secretKey h := by simp [nacl, h]
  verify_sign seed message h := by simp [nacl, h]

def phone : Device := ⟨nacl, fun _ => []⟩

def seed : Bytes := List.replicate 32 7

def ticketId : Units := js "pay-1"

def publicKeyMap (ticketId : Units) : Option Units :=
  if ticketId = Sample.ticketId then some (toBase64Url seed) else none

theorem both_admit {keys : Units → Option Units} {payload : Units} {record : ScanRecord}
    (hscan : scanPayload phone (new keys fun _ => none).publicKeys payload 0 = .get record) :
    ∀ i ∈ [0, 1], (run (step phone) (new keys fun _ => none) [.scan 0 payload 0, .scan 1 payload 0,
      .get 0, .get 1, .set 0, .set 1]).Admits i record.ticketId record := by
  have hscan0 : commit (step phone) (new keys fun _ => none) (.scan 0 payload 0) =
      ⟨(new keys fun _ => none).publicKeys, fun _ => none, update (fun _ => none) 0
        (some (.get record))⟩ := by
    rw [← hscan]
    rfl
  have hscan1 : commit (step phone) ⟨(new keys fun _ => none).publicKeys, fun _ => none,
      update (fun _ => none) 0 (some (.get record))⟩ (.scan 1 payload 0) =
      ⟨(new keys fun _ => none).publicKeys, fun _ => none, update (update (fun _ => none) 0
        (some (.get record))) 1 (some (.get record))⟩ := by
    rw [← hscan]
    rfl
  simp only [run_cons, run_nil, hscan0, hscan1]
  intro i hi
  rcases List.mem_pair.mp hi with rfl | rfl
  · exact ⟨admitted record, rfl, rfl, rfl, rfl⟩
  · exact ⟨admitted record, rfl, rfl, rfl, rfl⟩

end Sample

/-- One payload before two cameras: each scan asks the log before the other writes, and both
admit. -/
theorem admits_once_overlapping :
    ∃ payload, generateRotatingPayload Sample.nacl Sample.ticketId
        (Sample.nacl.secretKeyFromSeed Sample.seed) 0 (Vector.replicate 16 1) = .ok payload ∧
      ¬ (run (step Sample.phone) (new Sample.publicKeyMap fun _ => none)
        [.scan 0 payload 0, .scan 1 payload 0, .get 0, .get 1, .set 0, .set 1]).AdmitsOnce := by
  have hkey : (new Sample.publicKeyMap fun _ => none).publicKeys (carriedId Sample.ticketId) =
      some (Sample.nacl.publicKeyFromSeed Sample.seed) := by
    have hid : carriedId Sample.ticketId = Sample.ticketId := by decide
    simp [new, Sample.publicKeyMap, hid, fromBase64Url_toBase64Url, Sample.nacl]
  obtain ⟨payload, hgenerate, hscan⟩ := scanPayload_generated Sample.phone (d := 0) (n := 0)
    (Vector.replicate 16 1) Sample.nacl_correct (rfl : Sample.seed.length = 32) hkey
    le_rfl (by norm_num) le_rfl (by norm_num) (by norm_num)
  refine ⟨payload, hgenerate, fun h => ?_⟩
  have hboth := Sample.both_admit hscan
  exact Nat.zero_ne_one (h.once 0 1 _ _ _ (hboth 0 (by simp)) (hboth 1 (by simp)))

end Scanner

end Agora.Mobile
