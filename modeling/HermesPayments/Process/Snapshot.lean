import HermesPayments.Envelope
import HermesPayments.Lib.Base64
import HermesPayments.Lib.Python
import HermesPayments.Process

/-!
# `HermesPayments.Process.Snapshot` — the snapshot file as text

The snapshot is one JSON document, written with sorted keys: the records with payloads in Base64 and enumerations by
value, and the inbox with the class name of each message. Reading it back is a traversal of its own: every part is
validated again, an intent without a readable record is passed over, and whatever the traversal stumbles on is raised
after the records before it are in memory (`maybeRecoverFile`).

Three members are put in memory unchecked: the prepared hash, the error of a reconciliation and the id of a message. A
file that holds anything but a text there was not written by a process, and reading stops (`foreign`); the same goes for
unpaired surrogates in the status of a reconciliation and in the key of a record.
-/

namespace HermesPayments

open Lib PaymentState

/-! ## Writing -/

/-- The dump of an approval with its id, which stands behind the protocol version. -/
def PaymentApproval.payload (a : PaymentApproval) : Json :=
  match a.modelDump with
  | .obj (version :: fields) => .obj (version :: ("id", .str a.id) :: fields)
  | dump => dump

/-- A part of a record, `null` when it is missing. -/
def optionalPart {α : Type} (dump : α → Json) : Option α → Json
  | none   => .null
  | some a => dump a

def PrepareResult.dump (p : PrepareResult) : Json :=
  .obj [("fee_sat", .int p.feeSat), ("prepared_hash", .str p.preparedHash), ("rail", .str p.rail.value),
    ("prepared_payload", .str (Base64.encode p.preparedPayload))]

def ReconcileResult.dump (r : ReconcileResult) : Json :=
  .obj [("status", .str r.status), ("settlement_ref", .str r.settlementRef), ("amount_sat", .int r.amountSat),
    ("fee_sat", .int r.feeSat), ("rail", optionalPart (fun rail : Rail => .str rail.value) r.rail),
    ("verified", .bool r.verified), ("error", optionalPart (fun e : String => .str e) r.error)]

def SnapshotRecord.dump (d : SnapshotRecord) : Json :=
  .obj [("state", .str d.state.value), ("intent", (PaymentMessage.intent d.intent).payload),
    ("quote", optionalPart (fun q => (PaymentMessage.quote q).payload) d.quote),
    ("prepared", optionalPart PrepareResult.dump d.prepared),
    ("approval", optionalPart PaymentApproval.payload d.approval),
    ("receipt", optionalPart (fun rc => (PaymentMessage.receipt rc).payload) d.receipt),
    ("reconciliation", optionalPart ReconcileResult.dump d.reconciliation)]

/-- `message.__class__.__name__`. -/
def PaymentMessage.className : PaymentMessage → String
  | .intent _  => "PaymentIntent"
  | .quote _   => "PaymentQuote"
  | .receipt _ => "PaymentReceipt"

def PeerMessage.dump (m : PeerMessage) : Json :=
  .obj [("message_id", .str m.messageId), ("type", .str m.message.className), ("message", m.message.payload),
    ("author", m.author.modelDump), ("published_at", .int m.publishedAt)]

/-- The document over records in some order. -/
def snapshotDocument (records : List (String × SnapshotRecord)) (inbox : List PeerMessage) : Json :=
  .obj [("version", .int 3), ("records", .obj (records.map fun e => (.text e.1, e.2.dump))),
    ("inbox", .arr (inbox.map PeerMessage.dump))]

def snapshotOptions : Json.DumpsOptions := { sortKeys := true }

/-- The text of the snapshot file. -/
def ProcessSnapshot.text (snapshot : ProcessSnapshot) : String :=
  (snapshotDocument snapshot.records.entries snapshot.inbox).dumps snapshotOptions

/-! ## Reading -/

/-- Exceptions of `_maybe_recover`. -/
inductive RecoverExc where
  /-- Raised by the process itself or its policy engine, or by the schema of a message. -/
  | exc (e : Exc)
  /-- Raised by the JSON reader. -/
  | json (e : DecodeError)
  | attributeError
  | keyError
  | typeError
  | valueError
  | overflowError
  /-- A member that nothing checks is not the text that a process writes there. -/
  | foreign
deriving DecidableEq

def PaymentState.ofValue? (value : String) : Option PaymentState :=
  [DRAFT, SUBMITTED, QUOTED, PREPARED, APPROVED, EXECUTING, SETTLED, FAILED, REJECTED, EXPIRED, CANCELLED,
    RECONCILIATION_REQUIRED].find? fun s => s.value = value

/-- `message_types`. -/
def messageType? (name : String) : Option MessageKind :=
  if name = "PaymentIntent" then some .INTENT
  else if name = "PaymentQuote" then some .QUOTE
  else if name = "PaymentReceipt" then some .RECEIPT
  else none

/-- The value, or the exception. -/
def orRaise {α : Type} (e : RecoverExc) (value : Option α) : Except RecoverExc α := value.elim (.error e) .ok

/-- A member that is put in memory as it is. -/
def uncheckedText (e : RecoverExc) (value : Option Json) : Except RecoverExc String :=
  match value with
  | none   => .error e
  | some v => orRaise .foreign v.str?

/-- A part of a record: what is not truthy is no part. -/
def readPart {α : Type} (data : Json) (key : String) (read : Json → Except RecoverExc α) : Except RecoverExc (Option α) :=
  let part := data.getD key .null
  if part.truthy then (read part).map some else .ok none

section

variable (rt : Runtime) (decimal : Char → Option Nat)

def PaymentApproval.modelValidate (payload : Json) : Option PaymentApproval := do
  versionField payload
  let id ← strField payload "id"
  let intentId ← strField payload "intent_id"
  let quoteId ← strField payload "quote_id"
  let preparedHash ← strField payload "prepared_hash"
  let approver ← (payload.get? "approver").bind AgentIdentity.modelValidate
  let createdAt ← intField rt payload "created_at"
  some ⟨id, intentId, quoteId, preparedHash, approver, createdAt⟩

/-- `int(x)`. -/
def intOf (x : Json) : Except RecoverExc Int :=
  match x.toInt decimal with
  | .ok n                     => .ok n
  | .error (.typeError _)     => .error .typeError
  | .error (.valueError _)    => .error .valueError
  | .error (.overflowError _) => .error .overflowError

/-- `int(x)` of a member, where a missing one and the exceptions of `int` other than `OverflowError` become `e`. -/
def guardedInt (e : RecoverExc) (value : Option Json) : Except RecoverExc Int :=
  match value with
  | none   => .error e
  | some x =>
      match x.toInt decimal with
      | .ok n                     => .ok n
      | .error (.overflowError _) => .error .overflowError
      | .error _                  => .error e

def readPrepared (intentId : String) (prepared : Json) : Except RecoverExc PrepareResult := do
  let invalid := RecoverExc.exc (.processProtocolError s!"invalid prepared state for {redactedIdentifier intentId}")
  let payload ← orRaise invalid ((strField prepared "prepared_payload").bind Base64.decode)
  let feeSat ← guardedInt decimal invalid (prepared.get? "fee_sat")
  let preparedHash ← uncheckedText invalid (prepared.get? "prepared_hash")
  let rail ← orRaise invalid ((strField prepared "rail").bind Rail.ofValue?)
  return ⟨feeSat, preparedHash, rail, payload⟩

def readReconciliation (intentId : String) (reconciliation : Json) : Except RecoverExc ReconcileResult := do
  let invalid := RecoverExc.exc
    (.processProtocolError s!"invalid reconciliation state for {redactedIdentifier intentId}")
  let status ← orRaise invalid ((reconciliation.get? "status").map Json.pyStr)
  let status ← orRaise .foreign status.text?
  let settlementRef := (reconciliation.getD "settlement_ref" (.str "")).pyStr
  let amountSat ← guardedInt decimal invalid (some (reconciliation.getD "amount_sat" (.int 0)))
  let feeSat ← guardedInt decimal invalid (some (reconciliation.getD "fee_sat" (.int 0)))
  let rail ← readPart reconciliation "rail" fun rail => orRaise invalid (rail.str?.bind Rail.ofValue?)
  let verified := (reconciliation.getD "verified" (.bool false)).truthy
  let error ← orRaise .foreign (optionalStrField reconciliation "error")
  return { status, settlementRef, amountSat, feeSat, rail, verified, error }

/-- One record; none for an entry that is passed over. -/
def readRecord (intentId : String) (data : Json) : Except RecoverExc (Option IntentRecord) := do
  let intentData := data.getD "intent" .null
  if data.isDict && intentData.truthy then
    let intent ← orRaise (.exc .validationError) (PaymentIntent.modelValidate rt intentData)
    let stateData ← orRaise .keyError (data.get? "state")
    let state ← orRaise .valueError (stateData.str?.bind PaymentState.ofValue?)
    let expiresAt ← intOf decimal (intentData.getD "expires_at" (.int 0))
    let quote ← readPart data "quote" fun q => orRaise (.exc .validationError) (PaymentQuote.modelValidate rt q)
    let prepared ← readPart data "prepared" (readPrepared decimal intentId)
    let approval ← readPart data "approval" fun a => orRaise (.exc .validationError) (PaymentApproval.modelValidate rt a)
    let receipt ← readPart data "receipt" fun rc => orRaise (.exc .validationError) (PaymentReceipt.modelValidate rt rc)
    let reconciliation ← readPart data "reconciliation" (readReconciliation decimal intentId)
    let quoteExpiresAt := quote.elim 0 fun q => q.expiresAt
    return some { intent, state, quote, prepared, approval, receipt, reconciliation, quoteExpiresAt, expiresAt }
  else
    return none

/-- One message of the inbox. -/
def readMessage (item : Json) : Except RecoverExc PeerMessage := do
  let invalid := RecoverExc.exc (.processProtocolError "invalid process inbox snapshot")
  let kind ← orRaise invalid ((strField item "type").bind messageType?)
  let message ← orRaise invalid ((item.get? "message").bind (kind.modelValidate rt))
  let messageId ← uncheckedText invalid (item.get? "message_id")
  let author ← orRaise invalid ((item.get? "author").bind AgentIdentity.modelValidate)
  let publishedAt ← guardedInt decimal invalid (item.get? "published_at")
  return ⟨messageId, message, author, publishedAt⟩

/-- `ProcessStateStore.load`. -/
def loadSnapshot : Option String → Except RecoverExc Json
  | none      => .ok (.obj [])
  | some text => (jsonLoads rt text).mapError .json

/-- `snapshot.get("records", snapshot)`: a file without that member holds nothing but records. -/
def snapshotRecords (snapshot : Json) : Except RecoverExc (List (PyStr × Json)) :=
  if snapshot.isDict then
    match snapshot.getD "records" snapshot with
    | .obj records => .ok records
    | _ => .error (.exc (.processProtocolError "process state snapshot has invalid records"))
  else .error .attributeError

/-! ## Recovery -/

/-- A process that reads its snapshot file. -/
abbrev RecoverProcess (α : Type) := Proc ProcessEffect RecoverExc ProcessState α

variable (config : ProcessConfig)

/-- What becomes of a record that has been read. -/
def recoverRead (env : Env) (reconcile : Bool) (intentId : String) (record : IntentRecord) : Process Unit := do
  let record ←
    if record.state = EXECUTING then do
      Process.policy (audit config.policy "recovered_executing"
        [("intent_id", .str intentId), ("state", .str RECONCILIATION_REQUIRED.value)])
      pure { record with state := RECONCILIATION_REQUIRED }
    else pure record
  Process.policy (Proc.modify (fun o => { o with intents := o.intents.set intentId record }))
  if reconcile && record.state = RECONCILIATION_REQUIRED then
    let _ ← Process.policy (reconcileSettlement config.policy env intentId)

/-- The loop over the records of the document. -/
def recoverEntries (env : String → Env) (reconcile : Bool) : List (PyStr × Json) → RecoverProcess Unit
  | [] => pure ()
  | (key, data) :: rest => do
      match ← Proc.ofExcept (readRecord rt decimal key.display data) with
      | none        => pure ()
      | some record =>
          let intentId ← Proc.ofExcept (orRaise .foreign key.text?)
          (recoverRead config (env intentId) reconcile intentId record).mapError .exc
      recoverEntries env reconcile rest

/-- The loop over its inbox. -/
def recoverInbox : List Json → RecoverProcess Unit
  | [] => pure ()
  | item :: rest => do
      let m ← Proc.ofExcept (readMessage rt decimal item)
      Proc.modify fun s => { s with inbox := s.inbox.add m }
      recoverInbox rest

/-- `_maybe_recover`, over the content of the snapshot file. -/
def maybeRecoverFile (env : String → Env) (reconcile : Bool) (text : Option String) : RecoverProcess Unit := do
  let snapshot ← Proc.ofExcept (loadSnapshot rt text)
  let records ← Proc.ofExcept (snapshotRecords snapshot)
  recoverEntries rt decimal config env reconcile records
  match snapshot.getD "inbox" (.arr []) with
  | .arr items => recoverInbox rt decimal items
  | _          => pure ()
  if records ≠ [] then
    snapshotState.mapError .exc

end

end HermesPayments
