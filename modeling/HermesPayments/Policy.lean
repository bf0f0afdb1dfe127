import HermesPayments.Lib.Proc
import HermesPayments.Adapter
import HermesPayments.Redact
import HermesPayments.StateMachine
import HermesPayments.Store

/-!
# `HermesPayments.Policy` — the core policy engine

`PaymentOrchestrator` drives payment intents through their lifecycle. Each operation is a `Proc` over the
orchestrator: it may raise, and it performs the effects the outside sees in order, that is the atomic
replacement of the store file, the audit lines and the adapter calls.

`Config` is what an orchestrator is constructed with and `Env` what the outside answers during one
operation: the clock, the adapter, and whether a write of the store file fails. Writes of the audit log
are taken to succeed.
-/

namespace HermesPayments

open Lib PaymentState

/-! ## Exceptions and effects -/

/-- Exceptions an operation may raise. The first five are the subclasses of `PolicyError`. -/
inductive Exc where
  | submissionRejected (message : String)
  | recipientRejected (message : String)
  | approvalRejected (message : String)
  | stateError (message : String)
  | unknownIntent (message : String)
  /-- An exception of an adapter method that the operation does not catch. -/
  | adapter (e : AdapterExc)
  /-- Schema validation of a message built locally. -/
  | validationError
  /-- A write of a state file that fails. -/
  | osError
  | peerProtocolError (message : String)
  | transportError (message : String)
  | processProtocolError (message : String)
  /-- Arguments that miss a key or fail validation. -/
  | argumentError
deriving DecidableEq

/-- Is the exception an instance of `PolicyError`? -/
def Exc.isPolicyError : Exc → Bool
  | .submissionRejected _ | .recipientRejected _ | .approvalRejected _ | .stateError _
  | .unknownIntent _ => true
  | _ => false

/-- What the outside sees of an operation. A call of the adapter carries the intent it is made for; an
    answered call also carries the answer. -/
inductive Effect where
  /-- `os.replace` of the store file by one with this content. -/
  | storeSave (content : IdempotencyStore)
  | auditAppend (entry : AuditEntry)
  | prepareCall (intentId : String) (instruction : RailReceiveInstruction) (amountSat maxFeeSat : Int)
      (answer : Except AdapterExc PrepareResult)
  /-- `adapter.execute` is called; what it answers comes after. -/
  | executeCall (intentId : String) (preparedPayload : Bytes) (preparedHash : String)
  | verifyCall (intentId : String) (settlementRef : String) (expectedAmountSat : Int)
      (answer : Except AdapterExc ReceiptVerifyResult)
  | reconcileCall (intentId : String) (preparedPayload : Bytes) (preparedHash : String)
      (expectedAmountSat : Int)
deriving DecidableEq

/-! ## The orchestrator -/

/-- In-memory state of one intent. -/
structure IntentRecord where
  intent         : PaymentIntent
  state          : PaymentState := DRAFT
  quote          : Option PaymentQuote := none
  prepared       : Option PrepareResult := none
  approval       : Option PaymentApproval := none
  receipt        : Option PaymentReceipt := none
  reconciliation : Option ReconcileResult := none
  quoteExpiresAt : Int := 0
  expiresAt      : Int := 0
deriving DecidableEq

structure PaymentOrchestrator where
  store    : IdempotencyStore
  auditSeq : Nat
  intents  : Dict String IntentRecord
deriving DecidableEq

/-- The path of a file. The source takes an empty one for none. -/
abbrev PathText := { path : String // path ≠ "" }

/-- Constructor arguments of an orchestrator, with the two library functions the model takes as given: the
    hash and the Unicode class of letters and digits. -/
structure Config where
  sha256             : Bytes → String
  isAlnum            : Char → Bool
  storePath          : Option PathText
  auditPath          : Option PathText
  recipientAllowlist : Option (String → Bool)
  railAllowlist      : Option (Rail → Bool)

/-- What the outside answers during one operation. -/
structure Env where
  now       : Int
  adapter   : SettlementAdapter
  saveFails : Bool

/-- An operation of the policy engine. -/
abbrev Policy (α : Type) := Proc Effect Exc PaymentOrchestrator α

/-- The orchestrator of a fresh process, over what its two files held. -/
def PaymentOrchestrator.init (store : IdempotencyStore) (auditSeq : Nat) : PaymentOrchestrator :=
  ⟨store, auditSeq, Dict.empty⟩

/-- The intent tracked under an id. -/
def PaymentOrchestrator.getIntent (o : PaymentOrchestrator) (intentId : String) : Option PaymentIntent :=
  (o.intents.get? intentId).map IntentRecord.intent

/-! ## Internal helpers -/

section Helpers

variable (cfg : Config) (env : Env)

/-- The effects of a save that succeeds: none without a path. -/
def Config.saved (s : IdempotencyStore) : List Effect :=
  if cfg.storePath.isSome then [.storeSave s] else []

/-- The effects of an audit line: none without a path. -/
def Config.audited (e : AuditEntry) : List Effect :=
  if cfg.auditPath.isSome then [.auditAppend e] else []

/-- `IdempotencyStore._save`: temp file, then atomic replacement. -/
def save : Policy Unit := do
  let o ← Proc.get
  if cfg.storePath.isSome && env.saveFails then
    Proc.raise .osError
  Proc.emit (cfg.saved o.store)

/-- `AuditLog.append`. -/
def audit (event : String) (fields : List (String × AuditValue)) : Policy Unit := do
  let o ← Proc.get
  Proc.emit (cfg.audited ⟨o.auditSeq, event, fields⟩)
  Proc.modify (fun o => { o with auditSeq := o.auditSeq + 1 })

/-- Assignments to the fields of the record tracked under `intentId`. -/
def updateRecord (intentId : String) (f : IntentRecord → IntentRecord) : Policy Unit :=
  Proc.modify (fun o => { o with intents := o.intents.modify intentId f })

def modifyStore (f : IdempotencyStore → IdempotencyStore) : Policy Unit :=
  Proc.modify (fun o => { o with store := f o.store })

def recordIntent (intentId : String) : Policy Unit := do
  modifyStore (·.addIntent intentId)
  save cfg env

def recordApproval (intentId quoteId preparedHash : String) : Policy Unit := do
  modifyStore (·.addApproval intentId quoteId preparedHash)
  save cfg env

def recordReceipt (intentId settlementRef : String) : Policy Unit := do
  modifyStore (·.addReceipt intentId settlementRef)
  save cfg env

def getRecord (intentId : String) : Policy IntentRecord := do
  let o ← Proc.get
  match o.intents.get? intentId with
  | some r => pure r
  | none   => Proc.raise (.unknownIntent s!"intent {intentId} is not tracked")

/-- The current state of a tracked intent. -/
def state (intentId : String) : Policy PaymentState := do
  let record ← getRecord intentId
  return record.state

def checkIntentExpired (r : IntentRecord) : Policy Unit :=
  if r.expiresAt ≠ 0 ∧ env.now > r.expiresAt then
    Proc.raise (.submissionRejected s!"intent {r.intent.id} has expired")
  else pure ()

def checkQuoteExpired (r : IntentRecord) : Policy Unit :=
  if r.quoteExpiresAt ≠ 0 ∧ env.now > r.quoteExpiresAt then
    Proc.raise (.stateError s!"quote for intent {r.intent.id} has expired")
  else pure ()

/-- Does the allowlist hook, when there is one, let the value through? -/
def allowed {α : Type} (allowlist : Option (α → Bool)) (a : α) : Bool := allowlist.elim true (· a)

def validateRecipient (recipient : AgentIdentity) : Policy Unit :=
  if allowed cfg.recipientAllowlist recipient.pubkey then pure ()
  else Proc.raise (.recipientRejected s!"recipient {recipient.pubkey} is not in the allowlist")

def validateRail (rail : Rail) : Policy Unit :=
  if allowed cfg.railAllowlist rail then pure ()
  else Proc.raise (.stateError s!"rail {rail.value} is not in the allowlist")

/-- The first tracked intent in `state`, in insertion order. -/
def PaymentOrchestrator.firstIn (o : PaymentOrchestrator) (state : PaymentState) :
    Option (String × IntentRecord) :=
  o.intents.find? (fun r => r.state = state)

/-- Find the intent currently in `state`, with the key it is tracked under. -/
def findByState (state : PaymentState) : Policy (String × IntentRecord) := do
  let o ← Proc.get
  match o.firstIn state with
  | some e => pure e
  | none =>
      let actual := o.intents.values.map (fun r => r.state.name)
      if actual ≠ [] then
        Proc.raise (.stateError (s!"no intent in state {state.name} — " ++
          s!"tracked intents are in states {pyList actual}"))
      else
        Proc.raise (.stateError s!"no intent in state {state.name} — cannot proceed")

end Helpers

/-! ## Lifecycle methods -/

section Lifecycle

variable (cfg : Config) (env : Env)

/-- Submit a payment intent: `DRAFT → SUBMITTED`, a no-op when the store has seen the id. -/
def submit (intent : PaymentIntent) : Policy Unit := do
  let o ← Proc.get
  if o.store.hasIntent intent.id then
    -- idempotent: already seen, return silently
    return ()
  let record : IntentRecord := { intent := intent, expiresAt := intent.expiresAt }
  checkIntentExpired env record
  validateRecipient cfg intent.recipient
  let tr := transition record.state "submit"
  if !tr.ok then
    Proc.raise (.stateError s!"cannot submit: {tr.errorText}")
  let record := { record with state := tr.newState }
  Proc.modify (fun o => { o with intents := o.intents.set intent.id record })
  -- recorded for idempotency only after the in-memory insert
  recordIntent cfg env intent.id
  audit cfg "submit" [("intent_id", .str intent.id), ("actor", .str intent.sender.pubkey),
    ("state", .str record.state.value)]

/-- Receive a quote from the recipient: `SUBMITTED → QUOTED`. -/
def receiveQuote (quote : PaymentQuote) : Policy Unit := do
  let record ← getRecord quote.intentId
  if quote.feeSat > record.intent.maxFeeSat then
    Proc.raise (.submissionRejected
      s!"quote fee {quote.feeSat} exceeds max_fee_sat {record.intent.maxFeeSat}")
  if env.now > quote.expiresAt then
    Proc.raise (.submissionRejected s!"quote {quote.quoteId} has expired")
  -- the record is assigned before the transition is checked
  updateRecord quote.intentId (fun r => { r with quote := some quote, quoteExpiresAt := quote.expiresAt })
  let tr := transition record.state "quote_received"
  if !tr.ok then
    Proc.raise (.submissionRejected
      s!"cannot receive quote: state is {record.state.value}: {tr.errorText}")
  updateRecord quote.intentId (fun r => { r with state := tr.newState })
  audit cfg "quote_received" [("intent_id", .str record.intent.id), ("quote_id", .str quote.quoteId),
    ("fee_sat", .int quote.feeSat), ("state", .str tr.newState.value)]

/-- Call the adapter's `prepare()`, a non-mutating dry run: `QUOTED → PREPARED`. -/
def prepare : Policy PrepareResult := do
  let (intentId, record) ← findByState QUOTED
  checkQuoteExpired env record
  validateRail cfg env.adapter.rail
  let tr := transition record.state "prepared"
  if !tr.ok then
    Proc.raise (.stateError s!"cannot transition to PREPARED: {tr.errorText}")
  match record.quote with
  | none => Proc.raise (.stateError "prepare requires a quote")
  | some quote =>
      let answer := env.adapter.prepare quote.receiveInstruction record.intent.amountSat
        record.intent.maxFeeSat
      Proc.emit [.prepareCall intentId quote.receiveInstruction record.intent.amountSat
        record.intent.maxFeeSat answer]
      match answer with
      | .error (.other m) => Proc.raise (.adapter (.other m))
      | .error e => Proc.raise (.stateError s!"adapter prepare failed: {e.message}")
      | .ok prep =>
          if prep.feeSat > record.intent.maxFeeSat then
            Proc.raise (.stateError
              s!"adapter fee {prep.feeSat} exceeds max_fee_sat {record.intent.maxFeeSat}")
          validateRail cfg prep.rail
          updateRecord intentId (fun r => { r with prepared := some prep, state := tr.newState })
          audit cfg "prepared" [("intent_id", .str record.intent.id),
            ("prepared_hash", .str prep.preparedHash), ("fee_sat", .int prep.feeSat),
            ("state", .str tr.newState.value)]
          return prep

/-- Validate and apply human approval: `PREPARED → APPROVED`. -/
def approve (approval : PaymentApproval) : Policy Unit := do
  let record ← getRecord approval.intentId
  match record.quote with
  | none => Proc.raise (.stateError "cannot approve: no quote exists")
  | some quote =>
  if quote.quoteId ≠ approval.quoteId then
    Proc.raise (.approvalRejected (s!"approval quote_id {approval.quoteId} does not match " ++
      s!"prepared quote {quote.quoteId}"))
  match record.prepared with
  | none => Proc.raise (.stateError "cannot approve: no prepared payload exists")
  | some prepared =>
  if prepared.preparedHash ≠ approval.preparedHash then
    Proc.raise (.approvalRejected (s!"approval prepared_hash {approval.preparedHash} does not match " ++
      s!"prepared_hash {prepared.preparedHash}"))
  let o ← Proc.get
  if o.store.hasApproval approval.intentId approval.quoteId approval.preparedHash then
    Proc.raise (.approvalRejected "approval triple already used: replay rejected")
  if record.state ≠ PREPARED then
    Proc.raise (.stateError
      s!"cannot approve: intent is in state {record.state.name}, expected PREPARED")
  recordApproval cfg env approval.intentId approval.quoteId approval.preparedHash
  updateRecord approval.intentId (fun r => { r with approval := some approval })
  let tr := transition record.state "approved"
  if !tr.ok then
    Proc.raise (.stateError s!"cannot transition to APPROVED: {tr.errorText}")
  updateRecord approval.intentId (fun r => { r with state := tr.newState })
  audit cfg "approved" [("intent_id", .str record.intent.id), ("quote_id", .str approval.quoteId),
    ("prepared_hash", .str approval.preparedHash), ("approver", .str approval.approver.pubkey),
    ("state", .str tr.newState.value)]

/-- The fail-closed exit of `execute` for a caught adapter exception. -/
def reconciliationRequired (intentId event what : String) (record : IntentRecord) (e : AdapterExc) :
    Policy PaymentReceipt := do
  updateRecord intentId (fun r => { r with state := RECONCILIATION_REQUIRED })
  audit cfg event [("intent_id", .str record.intent.id), ("error", .str e.message),
    ("state", .str RECONCILIATION_REQUIRED.value)]
  Proc.raise (.stateError (s!"{what} for intent {record.intent.id}: {e.message}; " ++
    "transitioned to RECONCILIATION_REQUIRED — manual reconciliation required"))

/-- Execute the settlement after approval: `APPROVED → EXECUTING`, then the one adapter call. -/
def execute : Policy PaymentReceipt := do
  let (intentId, record) ← findByState APPROVED
  match record.prepared with
  | none => Proc.raise (.stateError "cannot execute: no prepared payload")
  | some prepared =>
  -- move to EXECUTING first
  let tr := transition record.state "executing"
  if !tr.ok then
    Proc.raise (.stateError s!"cannot transition to EXECUTING: {tr.errorText}")
  updateRecord intentId (fun r => { r with state := tr.newState })
  audit cfg "executing" [("intent_id", .str record.intent.id), ("state", .str tr.newState.value)]
  Proc.emit [.executeCall intentId prepared.preparedPayload prepared.preparedHash]
  match env.adapter.execute prepared.preparedPayload prepared.preparedHash with
  | .error (.ambiguousResult m) =>
      reconciliationRequired cfg intentId "adapter_ambiguous" "ambiguous settlement result" record
        (.ambiguousResult m)
  | .error (.adapterError m) =>
      reconciliationRequired cfg intentId "adapter_error" "adapter error during execution" record
        (.adapterError m)
  -- any other exception propagates with the intent left in EXECUTING
  | .error (.other m) => Proc.raise (.adapter (.other m))
  | .ok execResult =>
  match PaymentReceipt.validate? "placeholder" record.intent.id
      (record.quote.elim "" (fun q => q.quoteId)) record.intent.recipient execResult.settlementRef
      record.intent.amountSat execResult.feeSat execResult.rail env.now env.now with
  | none => Proc.raise .validationError
  | some receipt =>
  let receipt := { receipt with id := computeId cfg.sha256 receipt.modelDump }
  recordReceipt cfg env receipt.intentId receipt.settlementRef
  updateRecord intentId (fun r => { r with receipt := some receipt })
  let final := transition tr.newState "settled"
  if !final.ok then
    Proc.raise (.stateError s!"cannot transition to SETTLED: {final.errorText}")
  updateRecord intentId (fun r => { r with state := final.newState })
  audit cfg "settled" [("intent_id", .str record.intent.id), ("settlement_ref", .str receipt.settlementRef),
    ("amount_sat", .int receipt.amountSat), ("state", .str final.newState.value)]
  return receipt

/-- Receive an externally-produced receipt: settles from `EXECUTING` or `RECONCILIATION_REQUIRED`. -/
def receiveReceipt (receipt : PaymentReceipt) : Policy PaymentReceipt := do
  let record ← getRecord receipt.intentId
  -- gate 1: admissible state
  if record.state ≠ EXECUTING ∧ record.state ≠ RECONCILIATION_REQUIRED then
    Proc.raise (.stateError (s!"cannot receive receipt in state {record.state.name}; " ++
      "expected EXECUTING or RECONCILIATION_REQUIRED"))
  -- gate 2: replay prevention
  let o ← Proc.get
  if o.store.hasReceipt receipt.intentId then
    Proc.raise (.stateError s!"receipt already recorded for intent {receipt.intentId}")
  -- gate 3: amount, quote and sender-side activity
  if receipt.amountSat ≠ record.intent.amountSat then
    audit cfg "receipt_mismatch" [("intent_id", .str record.intent.id),
      ("expected_amount", .int record.intent.amountSat), ("actual_amount", .int receipt.amountSat),
      ("state", .str record.state.value)]
    Proc.raise (.stateError
      s!"receipt amount {receipt.amountSat} != intent amount {record.intent.amountSat}")
  if record.quote.all (fun q => q.quoteId ≠ receipt.quoteId) then
    let current := record.quote.elim "none" (fun q => q.quoteId)
    Proc.raise (.stateError (s!"receipt quote_id {receipt.quoteId} does not match " ++
      s!"current quote {current}"))
  let answer := env.adapter.verifySenderSettlement receipt.settlementRef receipt.amountSat
  Proc.emit [.verifyCall receipt.intentId receipt.settlementRef receipt.amountSat answer]
  match answer with
  | .error e => Proc.raise (.adapter e)
  | .ok verify =>
  if !verify.verified then
    audit cfg "receipt_verification_failed" [("intent_id", .str record.intent.id),
      ("error", .str (orText verify.error "verification failed")), ("state", .str record.state.value)]
    let error := orText verify.error "unknown"
    Proc.raise (.stateError s!"receipt verification failed: {error}")
  let tr := transition record.state "receipt_received"
  if !tr.ok then
    Proc.raise (.stateError
      s!"cannot settle via receipt from state {record.state.name}: {tr.errorText}")
  -- replay protection is persisted before the in-memory settlement state changes
  recordReceipt cfg env receipt.intentId receipt.settlementRef
  updateRecord receipt.intentId (fun r => { r with receipt := some receipt, state := tr.newState })
  audit cfg "receipt_confirmed" [("intent_id", .str record.intent.id),
    ("settlement_ref", .str receipt.settlementRef), ("state", .str tr.newState.value)]
  return receipt
where
  /-- `text or default`: an empty or absent error text falls back to the default. -/
  orText (text : Option String) (default : String) : String :=
    match text with
    | some t => if t = "" then default else t
    | none   => default

/-- Manual reconciliation: confirm settlement from `RECONCILIATION_REQUIRED`. -/
def confirmSettled (intentId : String) : Policy Unit := do
  let record ← getRecord intentId
  let tr := transition record.state "confirm_settled"
  if !tr.ok then
    Proc.raise (.stateError s!"cannot confirm_settled from state {record.state.value}: {tr.errorText}")
  recordReceipt cfg env intentId s!"manual:{intentId}"
  updateRecord intentId (fun r => { r with state := tr.newState })
  audit cfg "confirm_settled" [("intent_id", .str record.intent.id), ("state", .str tr.newState.value)]

/-- Inspect an ambiguous settlement without ever retrying dispatch. -/
def reconcileSettlement (intentId : String) : Policy ReconcileResult := do
  let record ← getRecord intentId
  if record.state ≠ RECONCILIATION_REQUIRED then
    Proc.raise (.stateError (s!"cannot reconcile from state {record.state.value}; " ++
      "expected RECONCILIATION_REQUIRED"))
  match record.prepared with
  | none => Proc.raise (.stateError "cannot reconcile: no prepared payload")
  | some prepared =>
  Proc.emit [.reconcileCall intentId prepared.preparedPayload prepared.preparedHash record.intent.amountSat]
  let result : ReconcileResult :=
    match env.adapter.reconcileSettlement prepared.preparedPayload prepared.preparedHash
        record.intent.amountSat with
    | .ok result => result
    -- a query failure must never turn into a retry
    | .error e =>
        { status := "UNKNOWN",
          error := some s!"reconciliation query failed: {redactSensitive cfg.isAlnum e.message}" }
  updateRecord intentId (fun r => { r with reconciliation := some result })
  audit cfg "settlement_reconciled" [("intent_id", .str record.intent.id), ("status", .str result.status),
    ("amount_sat", .int result.amountSat), ("fee_sat", .int result.feeSat),
    ("state", .str record.state.value)]
  return result

/-- Cancel an intent from an active state. -/
def cancel (intentId : String) : Policy Unit := do
  let record ← getRecord intentId
  let tr := transition record.state "cancel"
  if !tr.ok then
    Proc.raise (.stateError s!"cannot cancel from state {record.state.value}: {tr.errorText}")
  updateRecord intentId (fun r => { r with state := tr.newState })
  audit cfg "cancelled" [("intent_id", .str record.intent.id), ("state", .str tr.newState.value)]

/-- Reject an intent from an active state. -/
def reject (intentId : String) : Policy Unit := do
  let record ← getRecord intentId
  let tr := transition record.state "rejected"
  if !tr.ok then
    Proc.raise (.stateError s!"cannot reject from state {record.state.value}: {tr.errorText}")
  updateRecord intentId (fun r => { r with state := tr.newState })
  audit cfg "rejected" [("intent_id", .str record.intent.id), ("state", .str tr.newState.value)]

/-! ## Expiry sweep -/

/-- Has an `EXECUTING` record passed its expiry? -/
def IntentRecord.expiredExecuting (r : IntentRecord) (now : Int) : Bool :=
  r.state = EXECUTING ∧ r.expiresAt ≠ 0 ∧ now > r.expiresAt

/-- The sweep's loop over the expired ids. -/
def expireAll : List String → Policy Unit
  | [] => pure ()
  | iid :: rest => do
      let record ← getRecord iid
      let tr := transition record.state "expired"
      if tr.ok then
        updateRecord iid (fun r => { r with state := tr.newState })
        audit cfg "expired_during_execution" [("intent_id", .str iid), ("state", .str tr.newState.value)]
      expireAll rest

/-- Move `EXECUTING` intents whose expiry has passed to `RECONCILIATION_REQUIRED`, and raise if there was
    one. -/
def checkExpired (intentsToCheck : Option (List String)) : Policy (List String) := do
  let o ← Proc.get
  let expired := (o.intents.entries.filter (fun e =>
    intentsToCheck.all (fun ids => e.1 ∈ ids) && e.2.expiredExecuting env.now)).map Prod.fst
  if expired ≠ [] then
    -- every transition is made before the raise, so the state is consistent for manual review
    expireAll cfg expired
    Proc.raise (.stateError (s!"intents expired during execution: {pyList expired}; " ++
      "transition to RECONCILIATION_REQUIRED required"))
  return expired

end Lifecycle

/-! ## Operations as data -/

/-- The public operations of the orchestrator with their arguments. -/
inductive Op where
  | submit (intent : PaymentIntent)
  | receiveQuote (quote : PaymentQuote)
  | prepare
  | approve (approval : PaymentApproval)
  | execute
  | receiveReceipt (receipt : PaymentReceipt)
  | confirmSettled (intentId : String)
  | reconcileSettlement (intentId : String)
  | cancel (intentId : String)
  | reject (intentId : String)
  | checkExpired (intentsToCheck : Option (List String))

/-- The quote of a `receiveQuote`. -/
def Op.quote? : Op → Option PaymentQuote
  | .receiveQuote quote => some quote
  | _ => none

/-- What an operation returns. -/
inductive Answer where
  | unit
  | prepared (result : PrepareResult)
  | receipt (receipt : PaymentReceipt)
  | reconciled (result : ReconcileResult)
  | expired (ids : List String)

/-- Call an operation. -/
def call (cfg : Config) (env : Env) : Op → Policy Answer
  | .submit intent => do submit cfg env intent; return .unit
  | .receiveQuote quote => do receiveQuote cfg env quote; return .unit
  | .prepare => do return .prepared (← prepare cfg env)
  | .approve approval => do approve cfg env approval; return .unit
  | .execute => do return .receipt (← execute cfg env)
  | .receiveReceipt receipt => do return .receipt (← receiveReceipt cfg env receipt)
  | .confirmSettled intentId => do confirmSettled cfg env intentId; return .unit
  | .reconcileSettlement intentId => do return .reconciled (← reconcileSettlement cfg env intentId)
  | .cancel intentId => do cancel cfg intentId; return .unit
  | .reject intentId => do reject cfg intentId; return .unit
  | .checkExpired ids => do return .expired (← checkExpired cfg env ids)

end HermesPayments
