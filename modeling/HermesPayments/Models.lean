import HermesPayments.Lib.Json

/-!
# `HermesPayments.Models` — the domain messages

The versioned messages of the payment protocol: `PaymentIntent`, `PaymentQuote`, `PaymentApproval` and
`PaymentReceipt`, with the value objects they are made of. Each schema constraint is a field, so a message
that fails validation cannot be built; building one from untrusted parts (`PaymentReceipt.validate?`) is
where a validation error appears.

`computeId` is the SHA-256 of the canonical serialisation. The hash is a parameter: nothing here depends on
what it computes.
-/

namespace HermesPayments

open Lib

abbrev Bytes := List UInt8

/-- The protocol version every message carries. -/
def protocolVersion : String := "1"

/-! ## Enumerations -/

/-- Per-intent lifecycle state (finite automaton). -/
inductive PaymentState where
  | DRAFT | SUBMITTED | QUOTED | PREPARED | APPROVED | EXECUTING | SETTLED
  | FAILED | REJECTED | EXPIRED | CANCELLED | RECONCILIATION_REQUIRED
deriving DecidableEq, Repr

namespace PaymentState

/-- The wire value of a state. -/
def value : PaymentState → String
  | DRAFT => "draft"
  | SUBMITTED => "submitted"
  | QUOTED => "quoted"
  | PREPARED => "prepared"
  | APPROVED => "approved"
  | EXECUTING => "executing"
  | SETTLED => "settled"
  | FAILED => "failed"
  | REJECTED => "rejected"
  | EXPIRED => "expired"
  | CANCELLED => "cancelled"
  | RECONCILIATION_REQUIRED => "reconciliation_required"

/-- The member name, as error messages print it. -/
def name : PaymentState → String
  | DRAFT => "DRAFT"
  | SUBMITTED => "SUBMITTED"
  | QUOTED => "QUOTED"
  | PREPARED => "PREPARED"
  | APPROVED => "APPROVED"
  | EXECUTING => "EXECUTING"
  | SETTLED => "SETTLED"
  | FAILED => "FAILED"
  | REJECTED => "REJECTED"
  | EXPIRED => "EXPIRED"
  | CANCELLED => "CANCELLED"
  | RECONCILIATION_REQUIRED => "RECONCILIATION_REQUIRED"

end PaymentState

/-- Supported settlement rails. -/
inductive Rail where
  | LIGHTNING
deriving DecidableEq, Repr

def Rail.value : Rail → String
  | .LIGHTNING => "lightning"

/-- How binding the quoted fee is: the exact fee, or an upper bound on it. -/
inductive FeeConstraint where
  | exact | max
deriving DecidableEq, Repr

def FeeConstraint.value : FeeConstraint → String
  | .exact => "exact"
  | .max   => "max"

/-! ## Value objects -/

/-- Compact identity used by payment peers. -/
structure AgentIdentity where
  pubkey        : String
  relayUrl      : Option String
  pubkey_length : pubkey.length = 64
deriving DecidableEq

/-- Rail-specific instruction the recipient sends back in a quote. -/
structure RailReceiveInstruction where
  rail    : Rail
  invoice : Option String
deriving DecidableEq

/-! ## Domain messages -/

/-- Sender-initiated request to pay a recipient. -/
structure PaymentIntent where
  id             : String
  idempotencyKey : String
  sender         : AgentIdentity
  recipient      : AgentIdentity
  amountSat      : Int
  purpose        : String
  maxFeeSat      : Int
  expiresAt      : Int
  createdAt      : Int
  idempotencyKey_length : 1 ≤ idempotencyKey.length ∧ idempotencyKey.length ≤ 128
  amountSat_pos         : 0 < amountSat
  purpose_length        : 1 ≤ purpose.length ∧ purpose.length ≤ 512
  maxFeeSat_nonneg      : 0 ≤ maxFeeSat
deriving DecidableEq

/-- Recipient's response to an accepted intent. -/
structure PaymentQuote where
  id                 : String
  intentId           : String
  quoteId            : String
  recipient          : AgentIdentity
  receiveInstruction : RailReceiveInstruction
  feeSat             : Int
  feeConstraint      : FeeConstraint
  expiresAt          : Int
  createdAt          : Int
  quoteId_length     : 1 ≤ quoteId.length ∧ quoteId.length ≤ 128
  feeSat_nonneg      : 0 ≤ feeSat
deriving DecidableEq

/-- Human approval binding `(intent_id, quote_id, prepared_hash)`. -/
structure PaymentApproval where
  id           : String
  intentId     : String
  quoteId      : String
  preparedHash : String
  approver     : AgentIdentity
  createdAt    : Int
deriving DecidableEq

/-- Settlement confirmation. -/
structure PaymentReceipt where
  id            : String
  intentId      : String
  quoteId       : String
  recipient     : AgentIdentity
  settlementRef : String
  amountSat     : Int
  feeSat        : Int
  rail          : Rail
  settledAt     : Int
  createdAt     : Int
  amountSat_pos : 0 < amountSat
  feeSat_nonneg : 0 ≤ feeSat
deriving DecidableEq

/-- The constructor call `PaymentReceipt(...)`: `none` is the schema's `ValidationError`. -/
def PaymentReceipt.validate? (id intentId quoteId : String) (recipient : AgentIdentity)
    (settlementRef : String) (amountSat feeSat : Int) (rail : Rail) (settledAt createdAt : Int) :
    Option PaymentReceipt :=
  if h : 0 < amountSat ∧ 0 ≤ feeSat then
    some ⟨id, intentId, quoteId, recipient, settlementRef, amountSat, feeSat, rail, settledAt, createdAt,
      h.1, h.2⟩
  else none

/-- The messages a peer transport carries (an approval is not one of them). -/
inductive PaymentMessage where
  | intent (m : PaymentIntent)
  | quote (m : PaymentQuote)
  | receipt (m : PaymentReceipt)
deriving DecidableEq

def PaymentMessage.id : PaymentMessage → String
  | .intent m  => m.id
  | .quote m   => m.id
  | .receipt m => m.id

/-- The expiry of a message; a receipt has none. -/
def PaymentMessage.expiresAt? : PaymentMessage → Option Int
  | .intent m  => some m.expiresAt
  | .quote m   => some m.expiresAt
  | .receipt _ => none

/-! ## Canonical serialisation -/

def AgentIdentity.modelDump (a : AgentIdentity) : Json :=
  Json.members [("pubkey", some (.str a.pubkey)), ("relay_url", a.relayUrl.map fun s => .str s)]

def RailReceiveInstruction.modelDump (r : RailReceiveInstruction) : Json :=
  Json.members [("rail", some (.str r.rail.value)), ("invoice", r.invoice.map fun s => .str s)]

/-- The fields of a dumped intent, `id` left out. -/
def PaymentIntent.modelDump (m : PaymentIntent) : Json :=
  Json.members [("protocol_version", some (.str protocolVersion)),
    ("idempotency_key", some (.str m.idempotencyKey)), ("sender", some m.sender.modelDump),
    ("recipient", some m.recipient.modelDump), ("amount_sat", some (.int m.amountSat)),
    ("purpose", some (.str m.purpose)), ("max_fee_sat", some (.int m.maxFeeSat)),
    ("expires_at", some (.int m.expiresAt)), ("created_at", some (.int m.createdAt))]

def PaymentQuote.modelDump (m : PaymentQuote) : Json :=
  Json.members [("protocol_version", some (.str protocolVersion)), ("intent_id", some (.str m.intentId)),
    ("quote_id", some (.str m.quoteId)), ("recipient", some m.recipient.modelDump),
    ("receive_instruction", some m.receiveInstruction.modelDump), ("fee_sat", some (.int m.feeSat)),
    ("fee_constraint", some (.str m.feeConstraint.value)), ("expires_at", some (.int m.expiresAt)),
    ("created_at", some (.int m.createdAt))]

def PaymentApproval.modelDump (m : PaymentApproval) : Json :=
  Json.members [("protocol_version", some (.str protocolVersion)), ("intent_id", some (.str m.intentId)),
    ("quote_id", some (.str m.quoteId)), ("prepared_hash", some (.str m.preparedHash)),
    ("approver", some m.approver.modelDump), ("created_at", some (.int m.createdAt))]

def PaymentReceipt.modelDump (m : PaymentReceipt) : Json :=
  Json.members [("protocol_version", some (.str protocolVersion)), ("intent_id", some (.str m.intentId)),
    ("quote_id", some (.str m.quoteId)), ("recipient", some m.recipient.modelDump),
    ("settlement_ref", some (.str m.settlementRef)), ("amount_sat", some (.int m.amountSat)),
    ("fee_sat", some (.int m.feeSat)), ("rail", some (.str m.rail.value)),
    ("settled_at", some (.int m.settledAt)), ("created_at", some (.int m.createdAt))]

/-- The fields of a dumped message, `id` left out. -/
def PaymentMessage.modelDump : PaymentMessage → Json
  | .intent m  => m.modelDump
  | .quote m   => m.modelDump
  | .receipt m => m.modelDump

def canonicalOptions : Json.DumpsOptions :=
  { itemSeparator := ",", keySeparator := ":", sortKeys := true, ensureAscii := false }

/-- Deterministic JSON bytes of a dumped message. -/
def canonicalBytes (raw : Json) : Bytes := (raw.dumps canonicalOptions).toUTF8.toList

/-- SHA-256 of the canonical serialisation, lowercase hex. -/
def computeId (sha256 : Bytes → String) (raw : Json) : String := sha256 (canonicalBytes raw)

/-- SHA-256 of the opaque prepared payload returned by `adapter.prepare()`. -/
def computePreparedHash (sha256 : Bytes → String) (preparedPayload : Bytes) : String :=
  sha256 preparedPayload

end HermesPayments
