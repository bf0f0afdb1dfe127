import HermesPayments.Lib.Json.Access
import HermesPayments.Models

/-!
# `HermesPayments.Envelope` — the wire format of payment messages

A payment message travels as the content of a channel message: a JSON object with the protocol, its version, the
type of the message, and the message as payload. `encodeContent` writes such a content. `decodeContent` reads one
and validates the payload against the schema of its type (`modelValidate`); what is neither a message nor refused
with a `ValueError` is an exception of another class.

Three things are taken as given: how the JSON reader reads a float literal, how the schema library reads an
integer field, and which texts run into a limit of the interpreter.
-/

namespace HermesPayments

open Lib

/-! ## Wire constants -/

/-- Every payment message is a channel message of this kind. -/
def WIRE_KIND : Int := 9

def PROTOCOL_ID : String := "hermes-payments"

/-- The version of the envelope. -/
def PROTOCOL_VERSION : String := "1"

/-- The types an envelope may carry. -/
inductive MessageKind where
  | INTENT | QUOTE | RECEIPT
deriving DecidableEq, Repr

def MessageKind.value : MessageKind → String
  | INTENT  => "payment_intent"
  | QUOTE   => "payment_quote"
  | RECEIPT => "payment_receipt"

/-- The type of a message. -/
def kindForModel : PaymentMessage → MessageKind
  | .intent _  => .INTENT
  | .quote _   => .QUOTE
  | .receipt _ => .RECEIPT

/-! ## Encoding -/

/-- The dump of a message with its id, which stands behind the protocol version. -/
def PaymentMessage.payload (m : PaymentMessage) : Json :=
  match m.modelDump with
  | .obj (version :: fields) => .obj (version :: ("id", .str m.id) :: fields)
  | dump => dump

/-- How the schema library writes JSON. -/
def wireOptions : Json.DumpsOptions :=
  { itemSeparator := ",", keySeparator := ":", sortKeys := false, ensureAscii := false }

/-- Encode a message as the content of a channel message. -/
def encodeContent (m : PaymentMessage) : String :=
  (Json.obj [("protocol", .str PROTOCOL_ID), ("version", .str PROTOCOL_VERSION),
    ("type", .str (kindForModel m).value), ("payload", m.payload)]).dumps wireOptions

/-! ## What is taken as given -/

/-- A text that the JSON reader gives up on: one nested deeper than the stack allows, or with an integer of more
    digits than may be converted. -/
inductive LimitError where
  | recursionError | valueError
deriving DecidableEq

/-- The parts of the interpreter and of the schema library that decoding depends on. -/
structure Runtime where
  readFloat : String → PyFloat
  /-- The value an integer field takes from a JSON value, if it takes one. -/
  toInt     : Json → Option Int
  limit     : String → Option LimitError

/-! ## Schema validation

Members of a payload that the schema does not name are ignored. -/

/-- A required string field. -/
def strField (payload : Json) (key : String) : Option String := (payload.get? key).bind Json.str?

/-- A field that may be absent or null. -/
def optionalStrField (payload : Json) (key : String) : Option (Option String) :=
  match payload.get? key with
  | none | some .null => some none
  | some v            => v.str?.map some

/-- `protocol_version`: one literal, which is also the default. -/
def versionField (payload : Json) : Option Unit :=
  match payload.get? "protocol_version" with
  | none   => some ()
  | some v => if v.str? = some protocolVersion then some () else none

def Rail.ofValue? (value : String) : Option Rail := if value = Rail.LIGHTNING.value then some .LIGHTNING else none

/-- `fee_constraint`: an upper bound by default. -/
def feeConstraintField (payload : Json) : Option FeeConstraint :=
  match payload.get? "fee_constraint" with
  | none   => some .max
  | some v =>
      if v.str? = some FeeConstraint.exact.value then some .exact
      else if v.str? = some FeeConstraint.max.value then some .max
      else none

def AgentIdentity.modelValidate (payload : Json) : Option AgentIdentity := do
  let pubkey ← strField payload "pubkey"
  let relayUrl ← optionalStrField payload "relay_url"
  if h : pubkey.length = 64 then some ⟨pubkey, relayUrl, h⟩ else none

def RailReceiveInstruction.modelValidate (payload : Json) : Option RailReceiveInstruction := do
  let rail ← (strField payload "rail").bind Rail.ofValue?
  let invoice ← optionalStrField payload "invoice"
  some ⟨rail, invoice⟩

section

variable (rt : Runtime)

/-- A required integer field. -/
def intField (payload : Json) (key : String) : Option Int := (payload.get? key).bind rt.toInt

def PaymentIntent.modelValidate (payload : Json) : Option PaymentIntent := do
  versionField payload
  let id ← strField payload "id"
  let idempotencyKey ← strField payload "idempotency_key"
  let sender ← (payload.get? "sender").bind AgentIdentity.modelValidate
  let recipient ← (payload.get? "recipient").bind AgentIdentity.modelValidate
  let amountSat ← intField rt payload "amount_sat"
  let purpose ← strField payload "purpose"
  let maxFeeSat ← intField rt payload "max_fee_sat"
  let expiresAt ← intField rt payload "expires_at"
  let createdAt ← intField rt payload "created_at"
  if h : (1 ≤ idempotencyKey.length ∧ idempotencyKey.length ≤ 128) ∧ 0 < amountSat ∧
      (1 ≤ purpose.length ∧ purpose.length ≤ 512) ∧ 0 ≤ maxFeeSat then
    some ⟨id, idempotencyKey, sender, recipient, amountSat, purpose, maxFeeSat, expiresAt, createdAt,
      h.1, h.2.1, h.2.2.1, h.2.2.2⟩
  else none

def PaymentQuote.modelValidate (payload : Json) : Option PaymentQuote := do
  versionField payload
  let id ← strField payload "id"
  let intentId ← strField payload "intent_id"
  let quoteId ← strField payload "quote_id"
  let recipient ← (payload.get? "recipient").bind AgentIdentity.modelValidate
  let receiveInstruction ← (payload.get? "receive_instruction").bind RailReceiveInstruction.modelValidate
  let feeSat ← intField rt payload "fee_sat"
  let feeConstraint ← feeConstraintField payload
  let expiresAt ← intField rt payload "expires_at"
  let createdAt ← intField rt payload "created_at"
  if h : (1 ≤ quoteId.length ∧ quoteId.length ≤ 128) ∧ 0 ≤ feeSat then
    some ⟨id, intentId, quoteId, recipient, receiveInstruction, feeSat, feeConstraint, expiresAt, createdAt,
      h.1, h.2⟩
  else none

def PaymentReceipt.modelValidate (payload : Json) : Option PaymentReceipt := do
  versionField payload
  let id ← strField payload "id"
  let intentId ← strField payload "intent_id"
  let quoteId ← strField payload "quote_id"
  let recipient ← (payload.get? "recipient").bind AgentIdentity.modelValidate
  let settlementRef ← strField payload "settlement_ref"
  let amountSat ← intField rt payload "amount_sat"
  let feeSat ← intField rt payload "fee_sat"
  let rail ← (strField payload "rail").bind Rail.ofValue?
  let settledAt ← intField rt payload "settled_at"
  let createdAt ← intField rt payload "created_at"
  PaymentReceipt.validate? id intentId quoteId recipient settlementRef amountSat feeSat rail settledAt createdAt

/-- `model_cls.model_validate`, for the model of a type. -/
def MessageKind.modelValidate (kind : MessageKind) (payload : Json) : Option PaymentMessage :=
  match kind with
  | .INTENT  => (PaymentIntent.modelValidate rt payload).map .intent
  | .QUOTE   => (PaymentQuote.modelValidate rt payload).map .quote
  | .RECEIPT => (PaymentReceipt.modelValidate rt payload).map .receipt

/-! ## Decoding -/

/-- The checks that end in a `ValueError`, in the order made. -/
inductive DecodeCause where
  | tooManyDigits | notJson | notObject | unknownProtocol | unsupportedVersion | missingType | unknownType
  | invalidPayload | validationFailed
deriving DecidableEq

/-- Exceptions of `decode_content`. -/
inductive DecodeError where
  | valueError (cause : DecodeCause)
  | typeError
  | recursionError
deriving DecidableEq

/-- `_MODEL_MAP.get`: a list and a dictionary are unhashable, every other key is looked up. -/
def modelMapGet : Json → Except DecodeError (Option MessageKind)
  | .arr _ | .obj _ => .error .typeError
  | .str s          => .ok ([MessageKind.INTENT, .QUOTE, .RECEIPT].find? (fun kind => kind.value = s))
  | _               => .ok none

/-- `json.loads`, within the limits of the interpreter. -/
def jsonLoads (content : String) : Except DecodeError Json :=
  match rt.limit content with
  | some .recursionError => .error .recursionError
  | some .valueError     => .error (.valueError .tooManyDigits)
  | none                 => (Json.loads rt.readFloat content).elim (.error (.valueError .notJson)) .ok

/-- The envelope's own checks: the type and the payload of a content. -/
def openEnvelope (data : Json) : Except DecodeError (MessageKind × Json) :=
  match data with
  | .obj _ =>
      if (data.get? "protocol").bind Json.str? ≠ some PROTOCOL_ID then .error (.valueError .unknownProtocol)
      else if (data.get? "version").bind Json.str? ≠ some PROTOCOL_VERSION then
        .error (.valueError .unsupportedVersion)
      else
        match data.get? "type" with
        | none | some .null => .error (.valueError .missingType)
        | some type =>
            match modelMapGet type with
            | .error e   => .error e
            | .ok none   => .error (.valueError .unknownType)
            | .ok (some kind) =>
                match data.get? "payload" with
                | some (.obj members) => .ok (kind, .obj members)
                | _                   => .error (.valueError .invalidPayload)
  | _ => .error (.valueError .notObject)

/-- Decode a content into a message. -/
def decodeContent (content : String) : Except DecodeError PaymentMessage := do
  let data ← jsonLoads rt content
  let (kind, payload) ← openEnvelope data
  (kind.modelValidate rt payload).elim (.error (.valueError .validationFailed)) .ok

end

end HermesPayments
