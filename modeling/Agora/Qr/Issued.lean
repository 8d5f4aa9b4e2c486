import Agora.Lib.Machine
import Agora.Qr.Payload
import Mathlib.Logic.Function.Basic

/-!
# Issued payloads

`generate_qr_payload` signs a payload with a key of its own and stores a row
with the public key; `scan_ticket` verifies the signature under the key that
the request names. Where each request that succeeds names the key of the row
(`NamesStoredKey`), what is scanned was issued, given that signatures cannot be
forged (`Unforged`).
-/

namespace Agora.Qr

open Lib Server Function
open Indexer (Uuid)

structure GenerateQrRequest (V : Type) where
  qrType : String
  data : V
  expiresInSeconds : Option Int
  ticketId : Option Uuid
  deriving DecidableEq

structure GenerateQrResponse (V : Type) where
  qrId : String
  payload : QrPayload V
  signature : String
  publicKey : String
  expiresAt : DateTime
  deriving DecidableEq

/-- A payload that was signed and stored, with its ticket and its key. -/
structure Issue (V : Type) where
  payload : QrPayload V
  ticketId : Option Uuid
  verifyingKey : Bytes32
  deriving DecidableEq

/-- The tables, and what was issued. -/
structure Office (V : Type) where
  payloads : String → Option (QrRow V)
  tickets : Uuid → Option TicketRow
  issued : List (Issue V)

/-- How a request ends without success. -/
inductive Failure where
  | refused (error : AppError)
  | panicked
  deriving DecidableEq

section Requests

variable {V : Type} (crates : Crates V)

/-- The constraints of `qr_payloads`: the primary key, the order of the times, the ticket. -/
def Office.Accepts (s : Office V) (id : String) (row : QrRow V) : Prop :=
  s.payloads id = none ∧ row.createdAt < row.expiresAt ∧
    ∀ ticketId, row.ticketId = some ticketId → s.tickets ticketId ≠ none

instance (s : Office V) (id : String) (row : QrRow V) : Decidable (s.Accepts id row) :=
  haveI : Decidable (∀ ticketId, row.ticketId = some ticketId → s.tickets ticketId ≠ none) :=
    match h : row.ticketId with
    | none => isTrue nofun
    | some ticketId => decidable_of_iff (s.tickets ticketId ≠ none) (by simp)
  inferInstanceAs (Decidable (_ ∧ _ ∧ _))

/-- The id and the nonce are new UUIDs, the signing key is a new one. -/
def generateQrPayload (s : Office V) (request : GenerateQrRequest V) (qrId nonce : String)
    (now : DateTime) (signingKey : Bytes32) :
    Except Failure (GenerateQrResponse V × Office V) := do
  ensure (request.qrType ≠ "") (.refused (.validationError "qr_type cannot be empty"))
  let expiresIn := request.expiresInSeconds.getD 3600
  let expiresAt ← okOr .panicked (crates.addSeconds now expiresIn)
  let payload : QrPayload V :=
    ⟨qrId, request.qrType, request.data, now, expiresAt, nonce⟩
  let payloadJson ← (crates.toJson payload).mapError fun e =>
    Failure.refused (.internalServerError s!"Failed to serialize payload: {e}")
  let verifyingKey := crates.verifyingKey signingKey
  let signatureBase64 := crates.base64Encode (crates.sign signingKey (signedBytes payloadJson))
  let publicKeyHex := Zk.hexEncode verifyingKey.toList
  let row : QrRow V :=
    { qrType := request.qrType
      payloadData := request.data
      signature := signatureBase64
      publicKey := publicKeyHex
      createdAt := crates.timestamptz now
      expiresAt := crates.timestamptz expiresAt
      isUsed := false
      usedAt := none
      ticketId := request.ticketId }
  ensure (s.Accepts qrId row) (.refused .databaseError)
  return (⟨qrId, payload, signatureBase64, publicKeyHex, expiresAt⟩,
    { s with
      payloads := update s.payloads qrId (some row)
      issued := s.issued ++ [⟨payload, request.ticketId, verifyingKey⟩] })

/-- The times are those of the three calls of `Utc::now`. -/
def scanTicket (s : Office V) (ticketId : Uuid) (request : ScanTicketRequest V)
    (now now' now'' : DateTime) : Except AppError (ScanTicketResponse × Office V) := do
  let walletAddress ← checkRequest crates ticketId request now
  let ticket ← checkTicket crates ticketId walletAddress (s.tickets ticketId)
  checkPayload ticketId ticket.status now' (s.payloads request.payload.id)
  return (scanResponse ticketId now'',
    { s with
      payloads := update s.payloads request.payload.id
        ((s.payloads request.payload.id).map (·.use now''))
      tickets := update s.tickets ticketId ((s.tickets ticketId).map (·.scan now'')) })

inductive Request (V : Type) where
  | generate (request : GenerateQrRequest V) (qrId nonce : String) (now : DateTime)
      (signingKey : Bytes32)
  | scan (ticketId : Uuid) (request : ScanTicketRequest V) (now now' now'' : DateTime)

namespace Office

def new (tickets : Uuid → Option TicketRow) : Office V := ⟨fun _ => none, tickets, []⟩

def step (s : Office V) : Request V → Except Failure (Office V)
  | .generate request qrId nonce now signingKey =>
    Prod.snd <$> generateQrPayload crates s request qrId nonce now signingKey
  | .scan ticketId request now now' now'' =>
    Prod.snd <$> (scanTicket crates s ticketId request now now' now'').mapError .refused

/-! ## Conditions -/

/-- A payload that verifies under the key of an issue has the text of one that was signed with
this key. -/
def Unforged (s : Office V) : Request V → Prop
  | .scan _ request _ _ _ => ∀ x ∈ s.issued, readKey crates request.publicKey = .ok x.verifyingKey →
      verifyPayloadSignature crates request.payload request.signature request.publicKey = .ok () →
        ∃ y ∈ s.issued, y.verifyingKey = x.verifyingKey ∧
          crates.toJson y.payload = crates.toJson request.payload
  | .generate .. => True

/-- A scan names the key that is stored with its payload. -/
def NamesStoredKey (s : Office V) : Request V → Prop
  | .scan _ request _ _ _ => ∀ row, s.payloads request.payload.id = some row →
      Zk.hexDecode request.publicKey = Zk.hexDecode row.publicKey
  | .generate .. => True

/-- The scanned payload is one that was signed and stored for the ticket. -/
def Genuine (s : Office V) : Request V → Prop
  | .scan ticketId request _ _ _ =>
    ∃ x ∈ s.issued, x.payload = request.payload ∧ x.ticketId = some ticketId
  | .generate .. => True

/-! ## Runs -/

/-- Every row is that of an issue, every issue has its row, and no two issues have one id. -/
structure Filed (s : Office V) : Prop where
  row : ∀ id row, s.payloads id = some row → ∃ x ∈ s.issued, x.payload.id = id ∧
    row.publicKey = Zk.hexEncode x.verifyingKey.toList ∧ row.ticketId = x.ticketId
  kept : ∀ x ∈ s.issued, s.payloads x.payload.id ≠ none
  id : ∀ x ∈ s.issued, ∀ y ∈ s.issued, x.payload.id = y.payload.id → x = y

theorem Filed.new (tickets : Uuid → Option TicketRow) : Filed (Office.new (V := V) tickets) where
  row := nofun
  kept := nofun
  id := nofun

variable {crates} {s s' : Office V} {a : Request V}

theorem generateQrPayload_eq_ok {request : GenerateQrRequest V} {qrId nonce : String}
    {now : DateTime} {signingKey : Bytes32} {response : GenerateQrResponse V}
    (h : generateQrPayload crates s request qrId nonce now signingKey = .ok (response, s')) :
    ∃ row x, row.publicKey = Zk.hexEncode x.verifyingKey.toList ∧ row.ticketId = x.ticketId ∧
      x.payload.id = qrId ∧ s.payloads qrId = none ∧
      s' = { s with payloads := update s.payloads qrId (some row), issued := s.issued ++ [x] } := by
  simp only [generateQrPayload, bind_eq_ok, ensure_eq_ok, pure_eq_ok, Prod.mk.injEq] at h
  obtain ⟨_, -, _, -, _, -, _, haccepts, -, rfl⟩ := h
  exact ⟨_, _, rfl, rfl, rfl, haccepts.1, rfl⟩

theorem scanTicket_eq_ok {ticketId : Uuid} {request : ScanTicketRequest V}
    {now now' now'' : DateTime} {response : ScanTicketResponse}
    (h : scanTicket crates s ticketId request now now' now'' = .ok (response, s')) :
    verifyPayloadSignature crates request.payload request.signature request.publicKey = .ok () ∧
      (∃ row, s.payloads request.payload.id = some row ∧ row.ticketId = some ticketId) ∧
      s' = { s with
        payloads := update s.payloads request.payload.id
          ((s.payloads request.payload.id).map (·.use now''))
        tickets := update s.tickets ticketId ((s.tickets ticketId).map (·.scan now'')) } := by
  simp only [scanTicket, bind_eq_ok, pure_eq_ok, Prod.mk.injEq] at h
  obtain ⟨_, hrequest, _, -, _, hpayload, -, rfl⟩ := h
  obtain ⟨⟨row, hrow, hticket, -⟩, -⟩ := checkPayload_eq_ok hpayload
  exact ⟨checkRequest_eq_ok hrequest, ⟨row, hrow, hticket⟩, rfl⟩

theorem step_scan_eq_ok {ticketId : Uuid} {request : ScanTicketRequest V}
    {now now' now'' : DateTime} (h : step crates s (.scan ticketId request now now' now'') = .ok s') :
    verifyPayloadSignature crates request.payload request.signature request.publicKey = .ok () ∧
      (∃ row, s.payloads request.payload.id = some row ∧ row.ticketId = some ticketId) ∧
      s' = { s with
        payloads := update s.payloads request.payload.id
          ((s.payloads request.payload.id).map (·.use now''))
        tickets := update s.tickets ticketId ((s.tickets ticketId).map (·.scan now'')) } := by
  simp only [step, snd_map_eq_ok] at h
  obtain ⟨response, hscan⟩ := h
  cases hresult : scanTicket crates s ticketId request now now' now'' with
  | error e =>
    rw [hresult] at hscan
    cases hscan
  | ok r =>
    rw [hresult] at hscan
    obtain rfl := Except.ok.inj hscan
    exact scanTicket_eq_ok hresult

theorem Filed.step (h : Filed s) (hok : Office.step crates s a = .ok s') : Filed s' := by
  cases a with
  | generate request qrId nonce now signingKey =>
    simp only [Office.step, snd_map_eq_ok] at hok
    obtain ⟨response, hgenerate⟩ := hok
    obtain ⟨row, x, hkey, hticket, hid, hnew, rfl⟩ := generateQrPayload_eq_ok hgenerate
    have hne : ∀ y ∈ s.issued, y.payload.id ≠ x.payload.id := by
      intro y hy heq
      exact h.kept y hy (heq.trans hid ▸ hnew)
    refine ⟨fun id r hr => ?_, fun y hy => ?_, fun y hy z hz heq => ?_⟩
    · by_cases hqr : id = qrId
      · subst hqr
        obtain rfl : row = r := by simpa using hr
        exact ⟨x, by simp, hid, hkey, hticket⟩
      · obtain ⟨y, hy, hrest⟩ := h.row id r (by simpa [hqr] using hr)
        exact ⟨y, List.mem_append_left _ hy, hrest⟩
    · rcases List.mem_append.mp hy with hold | hx
      · have hother : y.payload.id ≠ qrId := hid ▸ hne y hold
        simpa [hother] using h.kept y hold
      · rw [List.mem_singleton.mp hx, hid]
        simp
    · rcases List.mem_append.mp hy with hold | hx
      · rcases List.mem_append.mp hz with hold' | hx
        · exact h.id y hold z hold' heq
        · exact absurd (List.mem_singleton.mp hx ▸ heq) (hne y hold)
      · rcases List.mem_append.mp hz with hold' | hx'
        · exact absurd (List.mem_singleton.mp hx ▸ heq).symm (hne z hold')
        · rw [List.mem_singleton.mp hx, List.mem_singleton.mp hx']
  | scan ticketId request now now' now'' =>
    obtain ⟨-, -, rfl⟩ := step_scan_eq_ok hok
    refine ⟨fun id r hr => ?_, fun x hx => ?_, h.id⟩
    · by_cases hqr : id = request.payload.id
      · subst hqr
        obtain ⟨row, hrow, rfl⟩ : ∃ row, s.payloads request.payload.id = some row ∧
            row.use now'' = r := by simpa using hr
        exact h.row _ row hrow
      · exact h.row id r (by simpa [hqr] using hr)
    · have hkept := h.kept x hx
      by_cases hqr : x.payload.id = request.payload.id
      · rw [hqr] at hkept ⊢
        simpa using hkept
      · simpa [hqr] using hkept

theorem Filed.genuine (h : Filed s)
    (hjson : ∀ p q text, crates.toJson p = .ok text → crates.toJson q = .ok text → p = q)
    (hunforged : Unforged crates s a) (hstored : NamesStoredKey s a)
    (hok : Office.step crates s a = .ok s') : Genuine s a := by
  cases a with
  | generate request qrId nonce now signingKey => exact True.intro
  | scan ticketId request now now' now'' =>
    obtain ⟨hverify, ⟨row, hrow, hticket⟩, -⟩ := step_scan_eq_ok hok
    obtain ⟨x, hx, hid, hkey, hxticket⟩ := h.row _ row hrow
    -- the key of the request is the one that signed the stored payload, and nothing else
    have hread : readKey crates request.publicKey = .ok x.verifyingKey := by
      obtain ⟨key, hread⟩ := readKey_of_verify hverify
      have hdecode : Zk.hexDecode request.publicKey = some x.verifyingKey.toList := by
        rw [hstored row hrow, hkey, Zk.hexDecode_hexEncode]
      rw [hread, readKey_eq hdecode hread]
    obtain ⟨y, hy, -, htext⟩ := hunforged x hx hread hverify
    obtain ⟨text, hrequest⟩ := toJson_of_verify hverify
    have hpayload := hjson _ _ text (htext.trans hrequest) hrequest
    obtain rfl := h.id y hy x hx (hpayload ▸ hid.symm)
    exact ⟨y, hx, hpayload, hxticket ▸ hticket⟩

/-- **Only issued payloads scan.** In a run of requests by any clients in which each successful
scan names the key that is stored with its payload, every payload that scans is one that was
signed and stored for the ticket. -/
theorem scans_genuine
    (hjson : ∀ p q text, crates.toJson p = .ok text → crates.toJson q = .ok text → p = q)
    {tickets : Uuid → Option TicketRow} {requests : List (Request V)}
    (hunforged : Along (step crates) (Unforged crates) (new tickets) requests)
    (hstored : Along (step crates) NamesStoredKey (new tickets) requests) :
    Along (step crates) Genuine (new tickets) requests :=
  (hunforged.and hstored).imp (I := Filed) (fun _ _ _ h _ hok => h.step hok)
    (fun _ _ _ h hC hok => h.genuine hjson hC.1 hC.2 hok) (.new tickets)

end Office

end Requests

/-! ## A payload and its forgery -/

namespace Sample

def ticketRows (_ : Uuid) : Option TicketRow := some ticket

def generate : Request (List (String × String)) :=
  .generate ⟨"ticket", payload.data, none, some ticketId⟩ "q1" "n1" 0 key

def scan (payload : QrPayload (List (String × String))) (text : String) (key : Bytes32) :
    Request (List (String × String)) :=
  .scan ticketId (requestOf payload text key) 60 61 62

def issue : Issue (List (String × String)) := ⟨payload, some ticketId, key⟩

def attackerKey : Bytes32 := .replicate 32 9

theorem issued_generate :
    (run (Office.step crates) (.new ticketRows) [generate]).issued = [issue] := by
  decide

theorem payloadText_ne : payloadText ≠ forgedText := by decide +kernel

theorem toJson_inj (p q : QrPayload (List (String × String))) (text : String)
    (hp : crates.toJson p = .ok text) (hq : crates.toJson q = .ok text) : p = q := by
  have hcases : ∀ p, crates.toJson p = .ok text →
      (p = payload ∧ text = payloadText) ∨ (p = forged ∧ text = forgedText) := by
    intro p hp
    simp only [crates] at hp
    split at hp
    · exact .inl ⟨‹_›, (Except.ok.inj hp).symm⟩
    · split at hp
      · exact .inr ⟨‹_›, (Except.ok.inj hp).symm⟩
      · cases hp
  rcases hcases p hp with ⟨rfl, rfl⟩ | ⟨rfl, rfl⟩ <;>
    rcases hcases q hq with ⟨rfl, htext⟩ | ⟨rfl, htext⟩
  · rfl
  · exact absurd htext payloadText_ne
  · exact absurd htext payloadText_ne.symm
  · rfl

/-- Either scan is that of the payload, or its key is none that was issued. -/
theorem unforged_scan {p : QrPayload (List (String × String))} {text : String} {k : Bytes32}
    (h : p = payload ∨ readKey crates (Zk.hexEncode k.toList) ≠ .ok key) :
    Along (Office.step crates) (Office.Unforged crates) (.new ticketRows)
      [generate, scan p text k] := by
  refine ⟨fun _ _ => True.intro, fun _ _ x hx hread _ => ?_, True.intro⟩
  obtain rfl : x = issue := by
    change x ∈ (run (Office.step crates) (.new ticketRows) [generate]).issued at hx
    rw [issued_generate] at hx
    exact List.mem_singleton.mp hx
  rcases h with rfl | hkey
  · exact ⟨issue, hx, rfl, rfl⟩
  · exact absurd hread hkey

end Sample

namespace Office

open Sample

/-- The ticket is shown as it was issued. -/
theorem scans_genuine_issued : Along (step crates) Genuine (.new ticketRows)
    [generate, scan payload payloadText key] := by
  refine scans_genuine ?_ (unforged_scan (.inl rfl)) ?_
  · exact toJson_inj
  · refine ⟨fun _ _ => True.intro, fun _ _ row hrow => ?_, True.intro⟩
    have hkey : ((run (step crates) (.new ticketRows) [generate]).payloads "q1").map (·.publicKey) =
        some (requestOf payload payloadText key).publicKey := by
      decide
    change (run (step crates) (.new ticketRows) [generate]).payloads "q1" = some row at hrow
    rw [hrow] at hkey
    exact congrArg Zk.hexDecode (Option.some.inj hkey).symm

/-- Somebody who knows the id of the payload signs one of his own with a key of his own. -/
theorem scans_forged :
    Along (step crates) (Unforged crates) (.new ticketRows)
        [generate, scan forged forgedText attackerKey] ∧
      (step crates (run (step crates) (.new ticketRows) [generate])
        (scan forged forgedText attackerKey)).isOk ∧
      ¬ Along (step crates) Genuine (.new ticketRows)
        [generate, scan forged forgedText attackerKey] := by
  have hcheck : checkRequest crates ticketId (requestOf forged forgedText attackerKey) 60 =
      .ok "GA" := checkRequest_requestOf rfl attackerKey (by decide) rfl rfl
  have hok : (step crates (run (step crates) (.new ticketRows) [generate])
      (scan forged forgedText attackerKey)).isOk := by
    simp only [step, scan, scanTicket, hcheck, ok_bind]
    decide
  refine ⟨unforged_scan (.inr (by decide)), hok, fun h => ?_⟩
  obtain ⟨s', hs'⟩ := exists_of_isOk hok
  obtain ⟨x, hx, hpayload, -⟩ := h.2.1 s' hs'
  change x ∈ (run (Office.step crates) (.new ticketRows) [generate]).issued at hx
  rw [issued_generate, List.mem_singleton] at hx
  subst hx
  revert hpayload
  decide

end Office

end Agora.Qr
