import HermesPayments.Peer

/-!
# `HermesPayments.Process` — one JSONL-controlled process with durable state

`HermesRegtestProcess` drives a peer by operator commands. Three files survive it: the store and the audit log
of the policy engine, and a snapshot of the in-memory records and the inbox that is replaced at the end of
every command, whether or not the command raised. A new process over the same state root reads the snapshot
back (`maybeRecover`): an intent found in `EXECUTING` is moved to `RECONCILIATION_REQUIRED`, and every intent
in that state is looked up with the adapter.

Commands are modelled after their arguments have been parsed: a line that is no command, and arguments that
miss a key or do not validate, are cases of their own. A file write succeeds unless the process is killed.
-/

namespace HermesPayments

open Lib PaymentState

/-! ## Configuration -/

/-- Explicit configuration for one Hermes process, with the two library functions taken as given. -/
structure ProcessConfig where
  role      : String
  identity  : AgentIdentity
  channel   : String
  stateRoot : String
  network   : String
  auditPath : PathText
  storePath : PathText
  approver  : Option AgentIdentity
  sha256    : Bytes → String
  isAlnum   : Char → Bool

/-- How the process constructs its policy engine: both files, no allowlists. -/
def ProcessConfig.policy (config : ProcessConfig) : Config :=
  ⟨config.sha256, config.isAlnum, some config.storePath, some config.auditPath, none, none⟩

/-- A short, non-reconstructable display prefix for an identifier. -/
def redactedIdentifier (value : String) : String :=
  if value.length ≤ 8 then value else String.ofList (value.toList.take 8) ++ "..."

/-- The same for an identifier that may have unpaired surrogates. -/
def redactedPyStr (value : PyStr) : PyStr :=
  if value.length ≤ 8 then value else .ofPoints (value.points.take 8 ++ (PyStr.text "...").points)

/-! ## Commands -/

/-- A validated operator command with its arguments. -/
inductive Command where
  | status
  | receive (limit : Option Int)
  | submitIntent (intent : PaymentIntent)
  | acceptIntent (messageId : String)
  | publishQuote (quote : PaymentQuote)
  | acceptQuote (messageId : String)
  | submitQuoteLocal (quote : PaymentQuote)
  | prepare
  | approve (intentId quoteId preparedHash : String)
  | execute
  | publishReceipt (receipt : PaymentReceipt)
  /-- The quote id is `none` when the argument is no text: that is only seen when the receipt is built. -/
  | verifyPublishReceipt (intentId : String) (quoteId : Option String) (settlementRef : String) (amountSat : Option Int)
  | acceptReceipt (messageId : String)
  /-- The two waits in seconds; `none` when the argument is not numeric. -/
  | recover (maxWaitSeconds pollIntervalSeconds : Option PyFloat)
  /-- A known command whose arguments miss a key or fail validation. -/
  | malformed (name : String)

def Command.name : Command → String
  | status => "status"
  | receive _ => "receive"
  | submitIntent _ => "submit_intent"
  | acceptIntent _ => "accept_intent"
  | publishQuote _ => "publish_quote"
  | acceptQuote _ => "accept_quote"
  | submitQuoteLocal _ => "submit_quote_local"
  | prepare => "prepare"
  | approve _ _ _ => "approve"
  | execute => "execute"
  | publishReceipt _ => "publish_receipt"
  | verifyPublishReceipt _ _ _ _ => "verify_publish_receipt"
  | acceptReceipt _ => "accept_receipt"
  | recover _ _ => "recover"
  | malformed name => name

/-! ## The inbox -/

/-- The messages received so far, one for each transport message id. -/
structure Inbox where
  messages : List PeerMessage
  nodup    : (messages.map PeerMessage.messageId).Nodup

namespace Inbox

def empty : Inbox := ⟨[], List.nodup_nil⟩

/-- Append a message, unless its id has been received before. -/
def add (b : Inbox) (m : PeerMessage) : Inbox :=
  if h : m.messageId ∈ b.messages.map PeerMessage.messageId then b
  else
    { messages := b.messages ++ [m]
      nodup    := by
        rw [List.map_append]
        refine List.nodup_append.mpr ⟨b.nodup, List.nodup_singleton _, ?_⟩
        rintro x hx y hy rfl
        have hxm : x = m.messageId := by simpa using hy
        exact h (hxm ▸ hx) }

/-- Append the messages of a delivery, and list those that are new. -/
def takeIn (b : Inbox) : List PeerMessage → Inbox × List PeerMessage
  | [] => (b, [])
  | m :: ms =>
      if m.messageId ∈ b.messages.map PeerMessage.messageId then b.takeIn ms
      else
        let (b', new) := (b.add m).takeIn ms
        (b', m :: new)

end Inbox

/-! ## The snapshot -/

/-- One intent as the snapshot holds it: the record without its two cached expiry times. -/
structure SnapshotRecord where
  state          : PaymentState
  intent         : PaymentIntent
  quote          : Option PaymentQuote
  prepared       : Option PrepareResult
  approval       : Option PaymentApproval
  receipt        : Option PaymentReceipt
  reconciliation : Option ReconcileResult
deriving DecidableEq

/-- The content of the snapshot file. -/
structure ProcessSnapshot where
  records : Dict String SnapshotRecord
  inbox   : List PeerMessage
deriving DecidableEq

/-- What the snapshot keeps of a record. -/
def IntentRecord.snapshot (r : IntentRecord) : SnapshotRecord :=
  ⟨r.state, r.intent, r.quote, r.prepared, r.approval, r.receipt, r.reconciliation⟩

/-- The record read back, before recovery looks at its state. -/
def SnapshotRecord.restore (d : SnapshotRecord) : IntentRecord :=
  { intent := d.intent, state := d.state, quote := d.quote, prepared := d.prepared, approval := d.approval,
    receipt := d.receipt, reconciliation := d.reconciliation,
    quoteExpiresAt := d.quote.elim 0 (fun q => q.expiresAt), expiresAt := d.intent.expiresAt }

/-- The state of a process, with the snapshot file as it stands. -/
structure ProcessState where
  orchestrator : PaymentOrchestrator
  inbox        : Inbox
  file         : Option ProcessSnapshot

/-- The snapshot of a state; the file is written with its keys sorted. -/
def ProcessState.snapshot (s : ProcessState) : ProcessSnapshot :=
  ⟨(s.orchestrator.intents.mapValues IntentRecord.snapshot).sortKeys, s.inbox.messages⟩

/-! ## Effects and environment -/

/-- What the outside sees of a process. -/
inductive ProcessEffect where
  | peer (effect : PeerEffect)
  /-- `os.replace` of the snapshot file by one with this content. -/
  | snapshotSave (content : ProcessSnapshot)
  | verifyReceiptCall (settlementRef : String) (expectedAmountSat : Int)
  /-- `accept_intent`, `accept_quote` or `accept_receipt` of the peer is called with a message of the inbox. -/
  | acceptCall (message : PaymentMessage)
deriving DecidableEq

/-- One pass of recovery: how the adapter answers the query for each intent, and the time waited since. -/
structure RecoveryPass where
  adapter : String → SettlementAdapter
  elapsed : Rat

/-- What the outside answers during one command. -/
structure ProcessEnv where
  now       : Int
  adapter   : SettlementAdapter
  transport : PeerTransport
  /-- The passes a `recover` command makes before its time is up. -/
  firstPass : RecoveryPass
  passes    : List RecoveryPass
  waited    : PyFloat

def ProcessEnv.env (penv : ProcessEnv) : Env := ⟨penv.now, penv.adapter, false⟩

def ProcessEnv.peer (penv : ProcessEnv) : PeerEnv := ⟨penv.env, penv.transport⟩

abbrev Process (α : Type) := Proc ProcessEffect Exc ProcessState α

namespace Process

/-- Call the peer. -/
def peer {α : Type} (m : Peer α) : Process α :=
  Proc.zoom ProcessState.orchestrator (fun o s => { s with orchestrator := o }) .peer m

/-- Call the policy engine. -/
def policy {α : Type} (m : Policy α) : Process α := peer (Peer.policy m)

/-- Hand a message of the inbox to the peer. -/
def accept {α : Type} (message : PaymentMessage) (m : Peer α) : Process α := do
  Proc.emit [.acceptCall message]
  peer m

end Process

/-! ## Display -/

/-- A display-safe summary of a peer message. -/
def serializeMessage (m : PaymentMessage) : List (PyStr × Json) :=
  let base (type id : String) (more : List (PyStr × Json)) : List (PyStr × Json) :=
    ("type", .str type) :: ("id", .str (redactedIdentifier id)) :: ("protocol_version", .str protocolVersion) ::
      ("author", .str (redactedIdentifier (messageAuthor m).pubkey)) :: more
  match m with
  | .intent i => base "PaymentIntent" i.id
      [("intent_id", .str (redactedIdentifier i.id)), ("amount_sat", .int i.amountSat)]
  | .quote q => base "PaymentQuote" q.id [("intent_id", .str (redactedIdentifier q.intentId))]
  | .receipt r => base "PaymentReceipt" r.id [("intent_id", .str (redactedIdentifier r.intentId))]

/-- How many tracked intents are in each state. -/
def stateCountSummary (o : PaymentOrchestrator) : Json :=
  let counts := o.intents.values.foldl
    (fun (d : Dict String Int) r => d.set r.state.value ((d.get? r.state.value).getD 0 + 1)) Dict.empty
  .obj (counts.entries.map (fun e => (e.1, .int e.2)))

/-- Reconciliation evidence without identifiers. -/
def serializeReconciliation (isAlnum : Char → Bool) : Option ReconcileResult → Json
  | none => .null
  | some r => .obj [("status", .str r.status), ("settlement_ref", .str (redactedPyStr r.settlementRef)),
      ("amount_sat", .int r.amountSat), ("fee_sat", .int r.feeSat),
      ("rail", r.rail.elim .null (fun rail => .str rail.value)), ("verified", .bool r.verified),
      ("error", r.error.elim .null
        (fun e => if e = "" then .null else .str (redactSensitive isAlnum e)))]

/-! ## Snapshot and recovery -/

section Recovery

variable (config : ProcessConfig)

def snapshotState : Process Unit := do
  let s ← Proc.get
  Proc.emit [.snapshotSave s.snapshot]
  Proc.modify (fun s => { s with file := some s.snapshot })

/-- Read one record back. A crash after the process entered `EXECUTING` is indistinguishable from an
    ambiguous dispatch, so the record is never executable again. -/
def recoverRecord (env : Env) (reconcile : Bool) (intentId : String) (data : SnapshotRecord) :
    Process Unit := do
  let record := data.restore
  let record ←
    if record.state = EXECUTING then do
      Process.policy (audit config.policy "recovered_executing"
        [("intent_id", .str intentId), ("state", .str RECONCILIATION_REQUIRED.value)])
      pure { record with state := RECONCILIATION_REQUIRED }
    else pure record
  Process.policy (Proc.modify (fun o => { o with intents := o.intents.set intentId record }))
  if reconcile && record.state = RECONCILIATION_REQUIRED then
    let _ ← Process.policy (reconcileSettlement config.policy env intentId)

/-- The loop over the records of the snapshot. -/
def recoverRecords (env : String → Env) (reconcile : Bool) : List (String × SnapshotRecord) → Process Unit
  | [] => pure ()
  | (intentId, data) :: rest => do
      recoverRecord config (env intentId) reconcile intentId data
      recoverRecords env reconcile rest

/-- Load the snapshot over the state in memory. -/
def maybeRecover (env : String → Env) (reconcile : Bool) : Process Unit := do
  let s ← Proc.get
  match s.file with
  | none => pure ()
  | some snapshot =>
      recoverRecords config env reconcile snapshot.records.entries
      Proc.modify (fun s => { s with inbox := snapshot.inbox.foldl Inbox.add s.inbox })
      if snapshot.records.entries ≠ [] then
        snapshotState

end Recovery

/-! ## Handlers -/

section Handlers

variable (config : ProcessConfig) (penv : ProcessEnv)

abbrev Response := List (PyStr × Json)

def findInboxMessage (redactedId : String) : Process PeerMessage := do
  let s ← Proc.get
  match s.inbox.messages.find? (fun m => redactedIdentifier m.messageId = redactedId) with
  | some m => pure m
  | none   => Proc.raise (.processProtocolError s!"message {redactedId} not found in inbox")

/-- The state of an intent, as a response shows it. -/
def stateText (intentId : String) : Process Json := do
  let state ← Process.policy (state intentId)
  return .str state.value

def handleStatus : Process Response := do
  let s ← Proc.get
  return [("role", .str config.role), ("network", .str config.network), ("channel", .str config.channel),
    ("state_root", .str config.stateRoot), ("state_count", stateCountSummary s.orchestrator)]

def handleReceive (limit : Option Int) : Process Response := do
  let received ← Process.peer (HermesPeer.receive penv.peer limit)
  let s ← Proc.get
  let (inbox, messages) := s.inbox.takeIn received
  Proc.modify (fun s => { s with inbox := inbox })
  return [("messages", .arr (messages.map (fun msg =>
      .obj (("message_id", .str (redactedIdentifier msg.messageId)) :: serializeMessage msg.message)))),
    ("inbox_size", .int inbox.messages.length)]

def handleSubmitIntent (intent : PaymentIntent) : Process Response := do
  let messageId ← Process.peer (HermesPeer.submitIntent config.policy config.identity penv.peer intent)
  return [("intent_id", .str (redactedIdentifier intent.id)),
    ("message_id", .str (redactedIdentifier messageId)), ("state", ← stateText intent.id)]

def handleAcceptIntent (redactedId : String) : Process Response := do
  let msg ← findInboxMessage redactedId
  match msg.message with
  | .intent intent =>
      Process.accept (.intent intent) (HermesPeer.acceptIntent config.policy config.identity penv.peer intent)
      return [("intent_id", .str (redactedIdentifier intent.id)), ("state", ← stateText intent.id)]
  | _ => Proc.raise (.processProtocolError "message is not a PaymentIntent")

def handlePublishQuote (quote : PaymentQuote) : Process Response := do
  let messageId ← Process.peer (HermesPeer.publishQuote config.identity penv.peer quote)
  return [("quote_id", .str (redactedIdentifier quote.quoteId)),
    ("message_id", .str (redactedIdentifier messageId)), ("state", ← stateText quote.intentId)]

def handleAcceptQuote (redactedId : String) : Process Response := do
  let msg ← findInboxMessage redactedId
  match msg.message with
  | .quote quote =>
      Process.accept (.quote quote) (HermesPeer.acceptQuote config.policy penv.peer quote)
      return [("intent_id", .str (redactedIdentifier quote.intentId)), ("state", ← stateText quote.intentId)]
  | _ => Proc.raise (.processProtocolError "message is not a PaymentQuote")

/-- Inject a quote locally without crossing the transport. -/
def handleSubmitQuoteLocal (quote : PaymentQuote) : Process Response := do
  Process.policy (receiveQuote config.policy penv.env quote)
  return [("quote_id", .str (redactedIdentifier quote.quoteId)), ("state", ← stateText quote.intentId)]

def handlePrepare : Process Response := do
  let prepared ← Process.policy (HermesPayments.prepare config.policy penv.env)
  return [("fee_sat", .int prepared.feeSat), ("prepared_hash", .str (redactedIdentifier prepared.preparedHash)),
    ("rail", .str prepared.rail.value)]

/-- The hash an operator means: the display prefix of the prepared hash stands for it. -/
def resolveHash (record : Option IntentRecord) (preparedHash : String) : String :=
  match record.bind IntentRecord.prepared with
  | some prepared => if preparedHash = redactedIdentifier prepared.preparedHash then prepared.preparedHash
      else preparedHash
  | none => preparedHash

/-- The approval built from the arguments, with its canonical id. -/
def buildApproval (approver : AgentIdentity) (intentId quoteId preparedHash : String) : PaymentApproval :=
  let approval : PaymentApproval := ⟨"placeholder", intentId, quoteId, preparedHash, approver, penv.now⟩
  { approval with id := computeId config.sha256 approval.modelDump }

def handleApprove (intentId quoteId preparedHash : String) : Process Response := do
  match config.approver with
  | none => Proc.raise (.processProtocolError "approver identity is not configured")
  | some approver =>
      let s ← Proc.get
      let preparedHash := resolveHash (s.orchestrator.intents.get? intentId) preparedHash
      let approval := buildApproval config penv approver intentId quoteId preparedHash
      Process.policy (approve config.policy penv.env approval)
      return [("intent_id", .str (redactedIdentifier approval.intentId)),
        ("quote_id", .str (redactedIdentifier approval.quoteId)),
        ("prepared_hash", .str (redactedIdentifier approval.preparedHash)),
        ("state", ← stateText approval.intentId)]

def handleExecute : Process Response := do
  let receipt ← Process.policy (HermesPayments.execute config.policy penv.env)
  return [("state", ← stateText receipt.intentId),
    ("settlement_ref", .str (redactedIdentifier receipt.settlementRef)),
    ("amount_sat", .int receipt.amountSat), ("fee_sat", .int receipt.feeSat)]

def handlePublishReceipt (receipt : PaymentReceipt) : Process Response := do
  let messageId ← Process.peer (HermesPeer.publishReceipt config.identity penv.peer receipt)
  return [("receipt_id", .str (redactedIdentifier receipt.id)),
    ("message_id", .str (redactedIdentifier messageId)),
    ("intent_id", .str (redactedIdentifier receipt.intentId))]

/-- Verify recipient-side activity, then publish a local receipt. -/
def handleVerifyPublishReceipt (intentId : String) (quoteId : Option String) (settlementRef : String)
    (amountSat : Option Int) : Process Response := do
  let s ← Proc.get
  match s.orchestrator.getIntent intentId with
  | none => Proc.raise (.processProtocolError s!"unknown intent {redactedIdentifier intentId}")
  | some intent =>
      let amount := amountSat.getD intent.amountSat
      if amount ≠ intent.amountSat then
        Proc.raise (.processProtocolError "receipt amount does not match the intent")
      Proc.emit [.verifyReceiptCall settlementRef amount]
      match penv.adapter.verifyReceipt settlementRef amount with
      | .error e => Proc.raise (.adapter e)
      | .ok verification =>
          if !verification.verified then
            let detail := verification.error.getD ""
            Proc.raise (.processProtocolError
              (if detail = "" then "recipient activity could not be verified" else detail))
          if verification.settlementRef ≠ settlementRef then
            Proc.raise (.processProtocolError "receipt verification reference mismatch")
          match quoteId.bind fun quoteId => PaymentReceipt.validate? "placeholder" intentId quoteId config.identity
              settlementRef verification.amountSat verification.feeSat penv.adapter.rail penv.now penv.now with
          | none => Proc.raise .validationError
          | some receipt =>
              let receipt := { receipt with id := computeId config.sha256 receipt.modelDump }
              let messageId ← Process.peer (HermesPeer.publishReceipt config.identity penv.peer receipt)
              return [("receipt_id", .str (redactedIdentifier receipt.id)),
                ("message_id", .str (redactedIdentifier messageId)),
                ("intent_id", .str (redactedIdentifier receipt.intentId)),
                ("amount_sat", .int receipt.amountSat), ("fee_sat", .int receipt.feeSat)]

def handleAcceptReceipt (redactedId : String) : Process Response := do
  let msg ← findInboxMessage redactedId
  match msg.message with
  | .receipt receipt =>
      let _ ← Process.accept (.receipt receipt) (HermesPeer.acceptReceipt config.policy penv.peer receipt)
      return [("intent_id", .str (redactedIdentifier receipt.intentId)), ("state", ← stateText receipt.intentId)]
  | _ => Proc.raise (.processProtocolError "message is not a PaymentReceipt")

/-- Does an intent still wait for a dispatched payment? -/
def IntentRecord.pending (r : IntentRecord) : Bool :=
  r.state = RECONCILIATION_REQUIRED && r.reconciliation.any (fun result => result.status = "PENDING")

/-- The polling loop of `recover`. -/
def recoverLoop (maxWait : Rat) : RecoveryPass → List RecoveryPass → Process Unit
  | pass, rest => do
      maybeRecover config (fun intentId => ⟨penv.now, pass.adapter intentId, false⟩) true
      let s ← Proc.get
      if !(s.orchestrator.intents.values.any IntentRecord.pending) || maxWait ≤ pass.elapsed then
        pure ()
      else
        match rest with
        | []           => pure ()
        | next :: rest => recoverLoop maxWait next rest

/-- The finite value of a float between two bounds. -/
def boundedFloat (lo hi : Rat) (x : PyFloat) : Option Rat :=
  x.value.bind (fun v => if lo ≤ v ∧ v ≤ hi then some v else none)

def recoveredIntent (r : IntentRecord) : Json :=
  .obj [("intent_id", .str (redactedIdentifier r.intent.id)), ("state", .str r.state.value),
    ("prepared_hash", r.prepared.elim .null (fun p => .str (redactedIdentifier p.preparedHash))),
    ("reconciliation", serializeReconciliation config.isAlnum r.reconciliation)]

def handleRecover (maxWaitSeconds pollIntervalSeconds : Option PyFloat) : Process Response := do
  match maxWaitSeconds, pollIntervalSeconds with
  | some maxWait, some pollInterval =>
      match boundedFloat 0 720 maxWait, boundedFloat (1 / 100) 60 pollInterval with
      | none, _ =>
          Proc.raise (.processProtocolError "recover max_wait_seconds must be between 0 and 720")
      | _, none =>
          Proc.raise (.processProtocolError "recover poll_interval_seconds must be between 0.01 and 60")
      | some bound, some _ =>
          recoverLoop config penv bound penv.firstPass penv.passes
          let s ← Proc.get
          return [("waited_seconds", .float penv.waited),
            ("intents", .arr (s.orchestrator.intents.values.map (recoveredIntent config))),
            ("state_count", stateCountSummary s.orchestrator)]
  | _, _ =>
      Proc.raise (.processProtocolError
        "recover max_wait_seconds and poll_interval_seconds must be numeric")

/-- The handler of a command. -/
def handler : Command → Process Response
  | .status => handleStatus config
  | .receive limit => handleReceive penv limit
  | .submitIntent intent => handleSubmitIntent config penv intent
  | .acceptIntent messageId => handleAcceptIntent config penv messageId
  | .publishQuote quote => handlePublishQuote config penv quote
  | .acceptQuote messageId => handleAcceptQuote config penv messageId
  | .submitQuoteLocal quote => handleSubmitQuoteLocal config penv quote
  | .prepare => handlePrepare config penv
  | .approve intentId quoteId preparedHash => handleApprove config penv intentId quoteId preparedHash
  | .execute => handleExecute config penv
  | .publishReceipt receipt => handlePublishReceipt config penv receipt
  | .verifyPublishReceipt intentId quoteId settlementRef amountSat =>
      handleVerifyPublishReceipt config penv intentId quoteId settlementRef amountSat
  | .acceptReceipt messageId => handleAcceptReceipt config penv messageId
  | .recover maxWaitSeconds pollIntervalSeconds => handleRecover config penv maxWaitSeconds pollIntervalSeconds
  | .malformed _ => Proc.raise .argumentError

/-- The separators of a response line. -/
def responseOptions : Json.DumpsOptions := { itemSeparator := ",", keySeparator := ":", sortKeys := true }

/-- One line of the JSONL stream. The snapshot is written in a `finally` block, so the safe state of a command
    that raised survives a restart. -/
def handleLine (parsed : Except Exc Command) : Process String := do
  match parsed with
  | .error e => Proc.raise e
  | .ok command =>
      let result ← Proc.tryFinally (handler config penv command) snapshotState
      return (Json.obj (("event", .str command.name) :: result)).dumps responseOptions

end Handlers

end HermesPayments
