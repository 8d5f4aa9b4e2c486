import Mathlib.Algebra.Group.Int.Defs
import Mathlib.Data.String.Basic

/-!
# Decoded contract events

`models/indexer_event.rs`: an event of the RPC becomes an `IndexedEvent` with a
kind and a JSON payload, from which the typed payloads are read. The XDR reader
(`ScVal::from_xdr_base64`) is a parameter. A value that is only ever rendered as
text (an address, bytes, a wide integer) is given by that text, and the entries
of a map have distinct keys.
-/

namespace Agora.Indexer

inductive Json where
  | null
  | bool (b : Bool)
  | num (x : Int)
  | str (s : String)
  | arr (items : List Json)
  | obj (fields : List (String × Json))

namespace Json

/-- `Value::get`, on a field name. -/
def get : Json → String → Option Json
  | .obj fields, key => fields.lookup key
  | _, _ => none

/-- `Value::as_str`. -/
def asStr : Json → Option String
  | .str s => some s
  | _ => none

/-- `value.get(key).and_then(Value::as_str)`. -/
def text (value : Json) (key : String) : Option String := (value.get key).bind asStr

/-- `Value::as_i64`. -/
def asI64 : Json → Option Int
  | .num x => if -2 ^ 63 ≤ x ∧ x < 2 ^ 63 then some x else none
  | _ => none

end Json

mutual

inductive ScVal where
  | bool (b : Bool)
  | void
  | u32 (n : Nat)
  | i32 (x : Int)
  | u64 (n : Nat)
  | i64 (x : Int)
  | timepoint (n : Nat)
  | duration (n : Nat)
  | u128 (hi lo : Nat)
  | i128 (hi : Int) (lo : Nat)
  | wide (hex : String)
  | bytes (base64 : String)
  | string (s : String)
  | symbol (s : String)
  | vec (items : List ScVal)
  | map (entries : List ScMapEntry)
  | address (strkey : String)
  | error (code : String)
  | other (debug : String)

/-- An entry of a map, with the `Debug` text of its key. -/
inductive ScMapEntry where
  | mk (key : ScVal) (debug : String) (val : ScVal)

end

def keyText (debug : String) : ScVal → String
  | .symbol s | .string s => s
  | _ => debug

mutual

def scvalToJson : ScVal → Json
  | .bool b => .bool b
  | .void => .null
  | .u32 n | .u64 n | .timepoint n | .duration n => .num n
  | .i32 x | .i64 x => .num x
  | .u128 hi lo => if hi = 0 then .num lo else .str (toString (hi * 2 ^ 64 + lo))
  | .i128 hi lo => if hi = 0 then .num lo else .str (toString (hi * 2 ^ 64 + lo))
  | .wide s | .bytes s | .string s | .symbol s | .address s | .other s => .str s
  | .vec items => .arr (itemsToJson items)
  | .map entries => .obj (entriesToJson entries)
  | .error code => .obj [("scError", .str code)]

def itemsToJson : List ScVal → List Json
  | [] => []
  | v :: items => scvalToJson v :: itemsToJson items

def entriesToJson : List ScMapEntry → List (String × Json)
  | [] => []
  | .mk key debug val :: entries => (keyText debug key, scvalToJson val) :: entriesToJson entries

end

inductive EventKind where
  | registerEvent
  | processPurchase
  | refund
  | transferTicket
  | eventStatusUpdate
  | collateralStaked
  | collateralUnstaked
  | unhandled
  deriving DecidableEq, Repr

def eventKindForTopic : String → EventKind
  | "EventRegistered" | "register_event" | "event_registered" => .registerEvent
  | "PaymentProcessed" | "process_purchase" | "purchase_confirmed" | "ticket_purchased" =>
    .processPurchase
  | "BulkRefundProcessed" | "PartialRefundProcessed" | "CancellationRefundClaimed" | "refund"
  | "ticket_refunded" => .refund
  | "TicketTransferred" | "transfer_ticket" => .transferTicket
  | "EventStatusUpdated" | "event_status_updated" | "event_cancelled" => .eventStatusUpdate
  | "CollateralStaked" | "collateral_staked" => .collateralStaked
  | "CollateralUnstaked" | "collateral_unstaked" => .collateralUnstaked
  | _ => .unhandled

/-- A raw event of the RPC. -/
structure SorobanEvent where
  id : String
  ledger : Nat
  contractId : String
  topic : List String
  value : Json

structure IndexedEvent where
  id : String
  ledger : Nat
  contractId : String
  latestLedger : Nat
  kind : EventKind
  topicName : String
  value : Json

/-! ## Decoding -/

section Decode

-- `ScVal::from_xdr_base64`
variable (fromXdr : String → Option ScVal)

def symbolOf : ScVal → Option String
  | .symbol s => some s
  | _ => none

def decodeTopicSymbol : Option String → String
  | none => ""
  | some raw =>
    match fromXdr raw with
    | none => raw
    | some (.symbol s) => s
    | some (.vec items) => (items.findSome? symbolOf).getD ""
    | some _ => ""

def normalizePayload (value : Json) : Json :=
  let xdr := match value with
    | .str s => some s
    | .obj _ => value.text "xdr"
    | _ => none
  match xdr with
  | some s =>
    match fromXdr s with
    | some v => scvalToJson v
    | none => value
  | none => value

/-- `IndexedEvent::decode`. -/
def decode (id : String) (ledger : Nat) (contractId : String) (topic : List String) (value : Json)
    (latestLedger : Nat) : IndexedEvent :=
  let topicName := decodeTopicSymbol fromXdr topic.head?
  { id, ledger, contractId, latestLedger
    kind := eventKindForTopic topicName
    topicName
    value := normalizePayload fromXdr value }

def SorobanEvent.decode (raw : SorobanEvent) (latestLedger : Nat) : IndexedEvent :=
  Indexer.decode fromXdr raw.id raw.ledger raw.contractId raw.topic raw.value latestLedger

end Decode

/-! ## Typed payloads -/

structure PurchasePayload where
  paymentId : String
  eventId : String
  buyer : Option String
  owner : Option String
  amount : Option Int

structure RefundPayload where
  paymentId : String
  eventId : String

structure TransferPayload where
  paymentId : String
  eventId : String
  from_ : Option String
  to_ : Option String

namespace IndexedEvent

variable (e : IndexedEvent)

def asPurchase : PurchasePayload where
  paymentId := (e.value.text "payment_id").getD ""
  eventId := (e.value.text "event_id").getD ""
  buyer := e.value.text "buyer"
  owner := e.value.text "owner"
  amount := (e.value.get "amount").bind Json.asI64

def asRefund : RefundPayload where
  paymentId := (e.value.text "payment_id").getD ((e.value.text "stellar_id").getD "")
  eventId := (e.value.text "event_id").getD ""

def asTransfer : TransferPayload where
  paymentId := (e.value.text "payment_id").getD ""
  eventId := (e.value.text "event_id").getD ""
  from_ := e.value.text "from"
  to_ := e.value.text "to"

end IndexedEvent

end Agora.Indexer
