import Agora.Indexer.Tables
import Agora.Lib.Unicode
import Agora.Server.Error
import Agora.Zk.Hex

/-!
# QR payloads and their checks

The data of `handlers/qr_payload.rs`, the rows of `qr_payloads` and `tickets`,
and what `scan_ticket` and `mark_qr_used` check: the request on its own, then
the row of the ticket, then the row of the payload. The crates for JSON, UUIDs,
base64 and Ed25519 are parameters.
-/

namespace Agora.Qr

open Lib Server
open Indexer (Uuid)

/-- In nanoseconds. -/
abbrev DateTime := Int

/-- The payload, with its JSON data in `V`. -/
structure QrPayload (V : Type) where
  id : String
  qrType : String
  data : V
  createdAt : DateTime
  expiresAt : DateTime
  nonce : String
  deriving DecidableEq

structure ScanTicketRequest (V : Type) where
  payload : QrPayload V
  signature : String
  publicKey : String
  deriving DecidableEq

structure ScanTicketResponse where
  valid : Bool
  scanned : Bool
  ticketId : Uuid
  ticketStatus : String
  scannedAt : Option DateTime
  message : String
  deriving DecidableEq, Repr

/-- A row of `qr_payloads`, without its id. -/
structure QrRow (V : Type) where
  qrType : String
  payloadData : V
  signature : String
  publicKey : String
  createdAt : DateTime
  expiresAt : DateTime
  isUsed : Bool
  usedAt : Option DateTime
  ticketId : Option Uuid
  deriving DecidableEq

/-- The columns of `tickets` that a scan reads and writes. -/
structure TicketRow where
  status : String
  ownerWallet : Option String
  buyerWallet : Option String
  scannedAt : Option DateTime
  deriving DecidableEq, Repr

/-- What is used of `serde_json`, `uuid`, `base64`, `hex`, `chrono`, `sqlx` and `ed25519_dalek`. The
texts are those of their errors. -/
structure Crates (V : Type) where
  /-- `value.get(key).and_then(|value| value.as_str())` -/
  text : V → String → Option String
  toJson : QrPayload V → Except String String
  parseUuid : String → Option Uuid
  uuidText : Uuid → String
  /-- `created_at + Duration::seconds(n)`, which panics out of range. -/
  addSeconds : DateTime → Int → Option DateTime
  /-- What a column of type `TIMESTAMPTZ` keeps. -/
  timestamptz : DateTime → DateTime
  base64Encode : Bytes → String
  base64Decode : String → Except String Bytes
  hexError : String → String
  signatureFromSlice : Bytes → Except String Bytes
  verifyingKeyFromBytes : Bytes32 → Except String Unit
  verifyingKey : Bytes32 → Bytes32
  sign : Bytes32 → Bytes → Bytes
  verify : Bytes32 → Bytes → Bytes → Bool

section Checks

variable {V : Type} (crates : Crates V)

/-! ## Signatures -/

/-- The bytes that are signed. -/
def signedBytes (payloadJson : String) : Bytes := payloadJson.toUTF8.toList

def toArray32 (bytes : Bytes) : Option Bytes32 :=
  if h : bytes.length = 32 then some ⟨bytes.toArray, by simpa using h⟩ else none

/-- The key that a request names. -/
def readKey (publicKey : String) : Except AppError Bytes32 := do
  let publicKeyBytes ← okOr
    (.validationError s!"Invalid public key encoding: {crates.hexError publicKey}")
    (Zk.hexDecode publicKey)
  let publicKeyArray ← okOr (.validationError "Public key must be 32 bytes")
    (toArray32 publicKeyBytes)
  (crates.verifyingKeyFromBytes publicKeyArray).mapError fun e =>
    AppError.validationError s!"Invalid public key: {e}"
  return publicKeyArray

def verifyPayloadSignature (payload : QrPayload V) (signature publicKey : String) :
    Except AppError Unit := do
  let payloadJson ← (crates.toJson payload).mapError fun e =>
    .validationError s!"Invalid payload format: {e}"
  let signatureBytes ← (crates.base64Decode signature).mapError fun e =>
    .validationError s!"Invalid signature encoding: {e}"
  let signature ← (crates.signatureFromSlice signatureBytes).mapError fun e =>
    .validationError s!"Invalid signature format: {e}"
  let verifyingKey ← readKey crates publicKey
  ensure (crates.verify verifyingKey (signedBytes payloadJson) signature = true)
    (.validationError "Invalid signature")

/-! ## The checks of a scan -/

/-- The request, before the first statement. It gives the wallet of the payload. -/
def checkRequest (ticketId : Uuid) (request : ScanTicketRequest V) (now : DateTime) :
    Except AppError String := do
  ensure (request.payload.qrType = "ticket")
    (.validationError "Payload qr_type must be 'ticket'")
  let id ← okOr (.validationError "Payload must include a ticket_id")
    (crates.text request.payload.data "ticket_id")
  let payloadTicketId ← okOr (.validationError "Payload ticket_id must be a valid UUID")
    (crates.parseUuid id)
  ensure (payloadTicketId = ticketId)
    (.validationError "Payload ticket_id does not match requested ticket")
  let address ← okOr (.validationError "Payload must include wallet_address")
    (crates.text request.payload.data "wallet_address")
  let walletAddress := trim address
  ensure (walletAddress ≠ "") (.validationError "Payload must include wallet_address")
  verifyPayloadSignature crates request.payload request.signature request.publicKey
  ensure (now ≤ request.payload.expiresAt) (.validationError "Payload has expired")
  return walletAddress

/-- The row of the ticket. -/
def checkTicket (ticketId : Uuid) (walletAddress : String) (row : Option TicketRow) :
    Except AppError TicketRow := do
  let ticket ← okOr (.notFound s!"Ticket with id '{crates.uuidText ticketId}' not found") row
  ensure (ticket.status ≠ "Revoked") (.conflict "Ticket has been revoked")
  ensure (ticket.ownerWallet = some walletAddress ∨ ticket.buyerWallet = some walletAddress)
    (.forbidden "Payload wallet_address does not match ticket ownership")
  return ticket

/-- The row of the payload with this ticket, and the status that was read. -/
def checkPayload (ticketId : Uuid) (ticketStatus : String) (now : DateTime)
    (row : Option (QrRow V)) : Except AppError Unit := do
  let row ← okOr (.notFound "QR payload not found or not associated with this ticket")
    (row.filter fun row => row.ticketId = some ticketId)
  ensure (row.isUsed = false) (.conflict "QR payload has already been used")
  ensure (now ≤ row.expiresAt) (.validationError "QR payload has expired")
  ensure (ticketStatus ≠ "Scanned" ∧ ticketStatus ≠ "used")
    (.conflict "Ticket has already been scanned")

/-- The check of `mark_qr_used`. -/
def checkMark (qrId : String) (now : DateTime) (row : Option (QrRow V)) :
    Except AppError Unit := do
  let row ← okOr (.notFound s!"QR payload with id '{qrId}' not found") row
  ensure (row.isUsed = false) (.validationError "QR code has already been used")
  ensure (now ≤ row.expiresAt) (.validationError "QR code has expired")

/-! ## The updates -/

/-- `SET is_used = TRUE, used_at = now`. -/
def QrRow.use (row : QrRow V) (now : DateTime) : QrRow V :=
  { row with isUsed := true, usedAt := some now }

/-- `SET status = 'Scanned', scanned_at = now`. -/
def TicketRow.scan (row : TicketRow) (now : DateTime) : TicketRow :=
  { row with status := "Scanned", scannedAt := some now }

/-- The answer to a scan. -/
def scanResponse (ticketId : Uuid) (now : DateTime) : ScanTicketResponse where
  valid := true
  scanned := true
  ticketId := ticketId
  ticketStatus := "Scanned"
  scannedAt := some now
  message := "Ticket scan verified successfully"

/-! ## What passed -/

variable {crates} {ticketId : Uuid} {walletAddress ticketStatus qrId : String} {now : DateTime}

theorem checkRequest_eq_ok {request : ScanTicketRequest V}
    (h : checkRequest crates ticketId request now = .ok walletAddress) :
    verifyPayloadSignature crates request.payload request.signature request.publicKey =
      .ok () := by
  simp only [checkRequest, bind_eq_ok, okOr_eq_ok, ensure_eq_ok, pure_eq_ok] at h
  obtain ⟨_, -, _, -, _, -, _, -, _, -, _, -, _, hverify, -⟩ := h
  exact hverify

/-- A signature that verifies does so under a key that can be read. -/
theorem readKey_of_verify {payload : QrPayload V} {signature publicKey : String}
    (h : verifyPayloadSignature crates payload signature publicKey = .ok ()) :
    ∃ key, readKey crates publicKey = .ok key := by
  simp only [verifyPayloadSignature, bind_eq_ok] at h
  obtain ⟨_, -, _, -, _, -, key, hkey, -⟩ := h
  exact ⟨key, hkey⟩

theorem toJson_of_verify {payload : QrPayload V} {signature publicKey : String}
    (h : verifyPayloadSignature crates payload signature publicKey = .ok ()) :
    ∃ text, crates.toJson payload = .ok text := by
  cases htext : crates.toJson payload with
  | ok text => exact ⟨text, rfl⟩
  | error e =>
    rw [verifyPayloadSignature, htext] at h
    cases h

theorem toArray32_toList (key : Bytes32) : toArray32 key.toList = some key := by
  have harray : key.toList.toArray = key.toArray := Vector.toArray_toList ..
  simp [toArray32, harray]

theorem readKey_eq {publicKey : String} {key key' : Bytes32}
    (hdecode : Zk.hexDecode publicKey = some key.toList) (h : readKey crates publicKey = .ok key') :
    key' = key := by
  simp only [readKey, hdecode, bind_eq_ok, okOr_eq_ok, pure_eq_ok] at h
  obtain ⟨bytes, hbytes, key'', harray, _, -, rfl⟩ := h
  rw [← Option.some.inj hbytes, toArray32_toList] at harray
  exact (Option.some.inj harray).symm

theorem checkTicket_eq_ok {row : Option TicketRow} {ticket : TicketRow}
    (h : checkTicket crates ticketId walletAddress row = .ok ticket) : row = some ticket := by
  simp only [checkTicket, bind_eq_ok, okOr_eq_ok, pure_eq_ok] at h
  obtain ⟨_, hrow, _, -, _, -, rfl⟩ := h
  exact hrow

theorem checkPayload_eq_ok {row : Option (QrRow V)}
    (h : checkPayload ticketId ticketStatus now row = .ok ()) :
    (∃ r, row = some r ∧ r.ticketId = some ticketId ∧ r.isUsed = false) ∧
      ticketStatus ≠ "Scanned" ∧ ticketStatus ≠ "used" := by
  simp only [checkPayload, bind_eq_ok, okOr_eq_ok, ensure_eq_ok, Option.filter_eq_some_iff,
    decide_eq_true_eq] at h
  obtain ⟨r, ⟨hrow, hticket⟩, _, hused, _, -, hstatus⟩ := h
  exact ⟨⟨r, hrow, hticket, hused⟩, hstatus⟩

theorem checkMark_eq_ok {row : Option (QrRow V)} (h : checkMark qrId now row = .ok ()) :
    ∃ r, row = some r ∧ r.isUsed = false := by
  simp only [checkMark, bind_eq_ok, okOr_eq_ok, ensure_eq_ok] at h
  obtain ⟨r, hrow, _, hused, -⟩ := h
  exact ⟨r, hrow, hused⟩

end Checks

/-! ## A ticket with its payload -/

namespace Sample

def ticketId : Uuid := ⟨7⟩

def ticketText : String := "00000000-0000-0000-0000-000000000007"

def payload : QrPayload (List (String × String)) where
  id := "q1"
  qrType := "ticket"
  data := [("ticket_id", ticketText), ("wallet_address", "GA")]
  createdAt := 0
  expiresAt := 3600000000000
  nonce := "n1"

/-- The payload as somebody else would have it. -/
def forged : QrPayload (List (String × String)) :=
  { payload with expiresAt := 7200000000000, nonce := "n2" }

/-- The JSON of the payload, which is in force until `expiresAt`. -/
def jsonText (expiresAt nonce : String) : String :=
  "\x7b\"id\":\"q1\",\"qr_type\":\"ticket\",\"data\":\x7b\"ticket_id\":\"" ++ ticketText ++
    "\",\"wallet_address\":\"GA\"\x7d,\"created_at\":\"1970-01-01T00:00:00Z\"," ++
    "\"expires_at\":\"" ++ expiresAt ++ "\",\"nonce\":\"" ++ nonce ++ "\"\x7d"

def payloadText : String := jsonText "1970-01-01T01:00:00Z" "n1"

def forgedText : String := jsonText "1970-01-01T02:00:00Z" "n2"

/-- A checksum of 32 bytes. -/
def checksum (message : Bytes) : Bytes :=
  let sum := message.foldl (fun sum b => (257 * sum + b.toNat) % 2 ^ 256) 0
  (List.range 32).map fun i => UInt8.ofNat (sum / 256 ^ i)

/-- The crates as far as the payloads need them; a signature is its key with a checksum. -/
def crates : Crates (List (String × String)) where
  text data key := data.lookup key
  toJson p := if p = payload then .ok payloadText else if p = forged then .ok forgedText
    else .error "unknown"
  parseUuid text := if text = ticketText then some ticketId else none
  uuidText _ := ticketText
  addSeconds t n := some (t + n * 1000000000)
  timestamptz t := t / 1000 * 1000
  base64Encode := Zk.hexEncode
  base64Decode text := okOr "Invalid padding" (Zk.hexDecode text)
  hexError _ := "Odd number of digits"
  signatureFromSlice bytes := if bytes.length = 64 then .ok bytes else .error "signature error"
  verifyingKeyFromBytes _ := .ok ()
  verifyingKey secret := secret
  sign secret message := secret.toList ++ checksum message
  verify key message signature := signature == key.toList ++ checksum message

def key : Bytes32 := .replicate 32 7

/-- A scan of a payload whose text was signed with the key. -/
def requestOf (payload : QrPayload (List (String × String))) (text : String) (key : Bytes32) :
    ScanTicketRequest (List (String × String)) where
  payload := payload
  signature := crates.base64Encode (crates.sign key (signedBytes text))
  publicKey := Zk.hexEncode key.toList

theorem verify_requestOf {p : QrPayload (List (String × String))} {text : String}
    (h : crates.toJson p = .ok text) (key : Bytes32) :
    verifyPayloadSignature crates p (requestOf p text key).signature
      (requestOf p text key).publicKey = .ok () := by
  have hsignature : crates.base64Decode (requestOf p text key).signature =
      .ok (key.toList ++ checksum (signedBytes text)) := by
    simp only [crates, requestOf, Zk.hexDecode_hexEncode]
    rfl
  have hslice : crates.signatureFromSlice (key.toList ++ checksum (signedBytes text)) =
      .ok (key.toList ++ checksum (signedBytes text)) := by
    simp [crates, checksum]
  have hkey : readKey crates (requestOf p text key).publicKey = .ok key := by
    simp only [readKey, requestOf, Zk.hexDecode_hexEncode, okOr, ok_bind, toArray32_toList]
    rfl
  have hverify : crates.verify key (signedBytes text)
      (key.toList ++ checksum (signedBytes text)) = true := by
    simp [crates]
  simp only [verifyPayloadSignature, h, hsignature, hslice, hkey, hverify, Except.mapError, ok_bind,
    ensure, if_true]

/-- What is signed with any key passes the checks of the request. -/
theorem checkRequest_requestOf {p : QrPayload (List (String × String))} {text : String}
    (h : crates.toJson p = .ok text) (key : Bytes32) {now : DateTime} (hnow : now ≤ p.expiresAt)
    (htype : p.qrType = "ticket") (hdata : p.data = payload.data) :
    checkRequest crates ticketId (requestOf p text key) now = .ok "GA" := by
  have hid : crates.text p.data "ticket_id" = some ticketText := by rw [hdata]; rfl
  have hwallet : crates.text p.data "wallet_address" = some "GA" := by rw [hdata]; rfl
  have huuid : crates.parseUuid ticketText = some ticketId := rfl
  have htrim : trim "GA" = "GA" := by decide
  have hverify := verify_requestOf h key
  have hpayload : (requestOf p text key).payload = p := rfl
  simp only [checkRequest, hpayload, htype, hid, hwallet, huuid, htrim, hverify, hnow, ensure, okOr,
    ok_bind, if_true, if_pos (by decide : "GA" ≠ "")]
  rfl

def request : ScanTicketRequest (List (String × String)) := requestOf payload payloadText key

def row : QrRow (List (String × String)) where
  qrType := "ticket"
  payloadData := payload.data
  signature := request.signature
  publicKey := request.publicKey
  createdAt := 0
  expiresAt := 3600000000000
  isUsed := false
  usedAt := none
  ticketId := some ticketId

def ticket : TicketRow := ⟨"active", some "GA", none, none⟩

end Sample

end Agora.Qr
