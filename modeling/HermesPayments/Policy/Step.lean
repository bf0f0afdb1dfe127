import HermesPayments.Policy

/-!
# `HermesPayments.Policy.Step` — what one operation can do

`Step` is the orchestrator as a transition relation: one constructor for each way an operation can end, with
the guards that lead there, the record and store it leaves, and the effects it performs in order. It is the
abstract view of the lifecycle the later modules reason about.

`call_step` connects it to the code: every call takes one of these steps. Each operation has its own lemma
(`submit_step`, `receiveQuote_step`, …), so a change to one operation touches one lemma and its
constructors.
-/

namespace HermesPayments

open Lib PaymentState

/-! ## State updates -/

namespace PaymentOrchestrator

/-- Update the record tracked under `id`. -/
def update (o : PaymentOrchestrator) (id : String) (f : IntentRecord → IntentRecord) :
    PaymentOrchestrator := { o with intents := o.intents.modify id f }

/-- Replace the store. -/
def withStore (o : PaymentOrchestrator) (s : IdempotencyStore) : PaymentOrchestrator := { o with store := s }

/-- One audit line has been written. -/
def logged (o : PaymentOrchestrator) : PaymentOrchestrator := { o with auditSeq := o.auditSeq + 1 }

/-- The record `submit` starts an intent with. -/
def submittedRecord (i : PaymentIntent) : IntentRecord :=
  { intent := i, state := SUBMITTED, expiresAt := i.expiresAt }

/-- Track a freshly submitted intent, and mark its id as seen. -/
def track (o : PaymentOrchestrator) (i : PaymentIntent) : PaymentOrchestrator :=
  { o with intents := o.intents.set i.id (submittedRecord i), store := o.store.addIntent i.id }

/-- The tracked record of an intent. -/
def record? (o : PaymentOrchestrator) (id : String) : Option IntentRecord := o.intents.get? id

@[simp] theorem store_update (o : PaymentOrchestrator) (id : String) (f : IntentRecord → IntentRecord) :
    (o.update id f).store = o.store := rfl
@[simp] theorem auditSeq_update (o : PaymentOrchestrator) (id : String) (f : IntentRecord → IntentRecord) :
    (o.update id f).auditSeq = o.auditSeq := rfl
@[simp] theorem store_withStore (o : PaymentOrchestrator) (s : IdempotencyStore) :
    (o.withStore s).store = s := rfl
@[simp] theorem auditSeq_withStore (o : PaymentOrchestrator) (s : IdempotencyStore) :
    (o.withStore s).auditSeq = o.auditSeq := rfl
@[simp] theorem store_logged (o : PaymentOrchestrator) : o.logged.store = o.store := rfl
@[simp] theorem store_track (o : PaymentOrchestrator) (i : PaymentIntent) :
    (o.track i).store = o.store.addIntent i.id := rfl
@[simp] theorem auditSeq_track (o : PaymentOrchestrator) (i : PaymentIntent) :
    (o.track i).auditSeq = o.auditSeq := rfl
@[simp] theorem auditSeq_logged (o : PaymentOrchestrator) : o.logged.auditSeq = o.auditSeq + 1 := rfl
@[simp] theorem record?_withStore (o : PaymentOrchestrator) (s : IdempotencyStore) (id : String) :
    (o.withStore s).record? id = o.record? id := rfl
@[simp] theorem record?_logged (o : PaymentOrchestrator) (id : String) :
    o.logged.record? id = o.record? id := rfl

theorem record?_update (o : PaymentOrchestrator) (id j : String) (f : IntentRecord → IntentRecord) :
    (o.update id f).record? j = if j = id then (o.record? id).map f else o.record? j :=
  o.intents.get?_modify id j f

theorem record?_track (o : PaymentOrchestrator) (i : PaymentIntent) (j : String) :
    (o.track i).record? j = if j = i.id then some (submittedRecord i) else o.record? j :=
  o.intents.get?_set i.id j _

theorem record?_of_firstIn {o : PaymentOrchestrator} {s : PaymentState} {id : String} {r : IntentRecord}
    (h : o.firstIn s = some (id, r)) : o.record? id = some r ∧ r.state = s := by
  obtain ⟨hget, hp⟩ := Dict.get?_of_find? h
  exact ⟨hget, by simpa using hp⟩

/-- The lifecycle state of an intent, `DRAFT` before it is tracked. -/
def stateOf (o : PaymentOrchestrator) (id : String) : PaymentState := (o.record? id).elim DRAFT IntentRecord.state

theorem stateOf_of_record? {o : PaymentOrchestrator} {id : String} {r : IntentRecord} (h : o.record? id = some r) :
    o.stateOf id = r.state := by rw [stateOf, h]; rfl

/-- The audit line shows a tracked intent in the state it is in. -/
def Shows (o : PaymentOrchestrator) (entry : AuditEntry) : Prop :=
  ∃ id r, o.record? id = some r ∧ entry.field? "intent_id" = some (.str r.intent.id) ∧
    entry.field? "state" = some (.str r.state.value)

/-- The records after the sweep moved `ids` on. -/
def expire (o : PaymentOrchestrator) : List String → PaymentOrchestrator
  | []       => o
  | id :: ids => ((o.update id (fun r => { r with state := RECONCILIATION_REQUIRED })).logged).expire ids

/-- The audit lines of the sweep, numbered from `seq`. -/
def expireEffects (cfg : Config) : Nat → List String → List Effect
  | _, []        => []
  | seq, id :: ids =>
      cfg.audited ⟨seq, "expired_during_execution",
        [("intent_id", .str id), ("state", .str RECONCILIATION_REQUIRED.value)]⟩
      ++ expireEffects cfg (seq + 1) ids

end PaymentOrchestrator

/-- An effect that neither writes the store nor dispatches a payment. -/
def Effect.quiet : Effect → Bool
  | .storeSave _ | .executeCall _ _ _ => false
  | _ => true

/-- The intent, payload and hash of a dispatch. -/
def Effect.dispatch? : Effect → Option (String × Bytes × String)
  | .executeCall intentId preparedPayload preparedHash => some (intentId, preparedPayload, preparedHash)
  | _ => none

/-- The dispatches among the effects, in order. -/
def dispatches (es : List Effect) : List (String × Bytes × String) := es.filterMap Effect.dispatch?

/-- A save under this environment succeeds. -/
def Env.saves (cfg : Config) (env : Env) : Prop := ¬ (cfg.storePath.isSome = true ∧ env.saveFails = true)

instance (cfg : Config) (env : Env) : Decidable (env.saves cfg) := inferInstanceAs (Decidable (¬ _))

/-- The receipt `execute` builds from an accepted adapter result. -/
def builtReceipt (cfg : Config) (env : Env) (record : IntentRecord) (res : ExecuteResult)
    (h : 0 ≤ res.feeSat) : PaymentReceipt :=
  let receipt : PaymentReceipt :=
    ⟨"placeholder", record.intent.id, record.quote.elim "" (fun q => q.quoteId), record.intent.recipient,
      res.settlementRef, record.intent.amountSat, res.feeSat, res.rail, env.now, env.now,
      record.intent.amountSat_pos, h⟩
  { receipt with id := computeId cfg.sha256 receipt.modelDump }

/-! ## The transition relation -/

section StepRelation

variable (cfg : Config) (env : Env) (o : PaymentOrchestrator)

/-- `Step cfg env o op result o' effects`: from `o`, the operation may end with this result, in this state,
    after these effects. -/
inductive Step : Op → Except Exc Answer → PaymentOrchestrator → List Effect → Prop
  /-- Rejected before any assignment: records and store stand, and so says the audit log. -/
  | refused {op : Op} {e : Exc} {o' : PaymentOrchestrator} {es : List Effect}
      (hstore : o'.store = o.store) (hintents : o'.intents = o.intents) (hquiet : ∀ w ∈ es, w.quiet)
      (hlog : ∀ entry, .auditAppend entry ∈ es → o.Shows entry) :
      Step op (.error e) o' es
  | seen {i : PaymentIntent} (h : o.store.hasIntent i.id = true) : Step (.submit i) (.ok .unit) o []
  | submitted {i : PaymentIntent} (hnew : o.store.hasIntent i.id = false)
      (hexp : ¬ (i.expiresAt ≠ 0 ∧ env.now > i.expiresAt))
      (hrec : allowed cfg.recipientAllowlist i.recipient.pubkey = true) (hsave : env.saves cfg) :
      Step (.submit i) (.ok .unit) (o.track i).logged
        (cfg.saved (o.track i).store ++ cfg.audited ⟨o.auditSeq, "submit",
          [("intent_id", .str i.id), ("actor", .str i.sender.pubkey), ("state", .str SUBMITTED.value)]⟩)
  | submittedUnsaved {i : PaymentIntent} (hnew : o.store.hasIntent i.id = false)
      (hexp : ¬ (i.expiresAt ≠ 0 ∧ env.now > i.expiresAt))
      (hrec : allowed cfg.recipientAllowlist i.recipient.pubkey = true) (hsave : ¬ env.saves cfg) :
      Step (.submit i) (.error .osError) (o.track i) []
  /-- A quote for an intent past `SUBMITTED` is refused after it replaced the held one. -/
  | quoteOverwritten {q : PaymentQuote} {r : IntentRecord} {m : String}
      (hr : o.record? q.intentId = some r) (hfee : q.feeSat ≤ r.intent.maxFeeSat)
      (hexp : env.now ≤ q.expiresAt) (hstate : r.state ≠ SUBMITTED) :
      Step (.receiveQuote q) (.error (.submissionRejected m))
        (o.update q.intentId (fun r => { r with quote := some q, quoteExpiresAt := q.expiresAt })) []
  | quoted {q : PaymentQuote} {r : IntentRecord}
      (hr : o.record? q.intentId = some r) (hfee : q.feeSat ≤ r.intent.maxFeeSat)
      (hexp : env.now ≤ q.expiresAt) (hstate : r.state = SUBMITTED) :
      Step (.receiveQuote q) (.ok .unit)
        (o.update q.intentId (fun r =>
          { r with quote := some q, quoteExpiresAt := q.expiresAt, state := QUOTED })).logged
        (cfg.audited ⟨o.auditSeq, "quote_received", [("intent_id", .str r.intent.id),
          ("quote_id", .str q.quoteId), ("fee_sat", .int q.feeSat), ("state", .str QUOTED.value)]⟩)
  | prepared {id : String} {r : IntentRecord} {q : PaymentQuote} {prep : PrepareResult}
      (hfirst : o.firstIn QUOTED = some (id, r)) (hquote : r.quote = some q)
      (hexp : ¬ (r.quoteExpiresAt ≠ 0 ∧ env.now > r.quoteExpiresAt))
      (hrail : allowed cfg.railAllowlist env.adapter.rail = true)
      (hcall : env.adapter.prepare q.receiveInstruction r.intent.amountSat r.intent.maxFeeSat = .ok prep)
      (hfee : prep.feeSat ≤ r.intent.maxFeeSat) (hrail' : allowed cfg.railAllowlist prep.rail = true) :
      Step .prepare (.ok (.prepared prep))
        (o.update id (fun r => { r with prepared := some prep, state := PREPARED })).logged
        (.prepareCall id q.receiveInstruction r.intent.amountSat r.intent.maxFeeSat (.ok prep) ::
          cfg.audited ⟨o.auditSeq, "prepared", [("intent_id", .str r.intent.id),
            ("prepared_hash", .str prep.preparedHash), ("fee_sat", .int prep.feeSat),
            ("state", .str PREPARED.value)]⟩)
  | approved {a : PaymentApproval} {r : IntentRecord} {q : PaymentQuote} {prep : PrepareResult}
      (hr : o.record? a.intentId = some r) (hquote : r.quote = some q) (hqid : q.quoteId = a.quoteId)
      (hprep : r.prepared = some prep) (hhash : prep.preparedHash = a.preparedHash)
      (hnew : o.store.hasApproval a.intentId a.quoteId a.preparedHash = false)
      (hstate : r.state = PREPARED) (hsave : env.saves cfg) :
      Step (.approve a) (.ok .unit)
        ((o.withStore (o.store.addApproval a.intentId a.quoteId a.preparedHash)).update a.intentId
          (fun r => { r with approval := some a, state := APPROVED })).logged
        (cfg.saved (o.store.addApproval a.intentId a.quoteId a.preparedHash) ++
          cfg.audited ⟨o.auditSeq, "approved", [("intent_id", .str r.intent.id),
            ("quote_id", .str a.quoteId), ("prepared_hash", .str a.preparedHash),
            ("approver", .str a.approver.pubkey), ("state", .str APPROVED.value)]⟩)
  | approvedUnsaved {a : PaymentApproval} {r : IntentRecord}
      (hr : o.record? a.intentId = some r) (hstate : r.state = PREPARED) (hsave : ¬ env.saves cfg) :
      Step (.approve a) (.error .osError)
        (o.withStore (o.store.addApproval a.intentId a.quoteId a.preparedHash)) []
  /-- The adapter raised `AdapterError` or `AmbiguousResult`: fail closed. -/
  | dispatchAmbiguous {id : String} {r : IntentRecord} {prep : PrepareResult} {x : AdapterExc} {e : Exc}
      {entry : AuditEntry}
      (hfirst : o.firstIn APPROVED = some (id, r)) (hprep : r.prepared = some prep)
      (hcall : env.adapter.execute prep.preparedPayload prep.preparedHash = .error x)
      (hcaught : ∀ m, x ≠ .other m) (he : e.isPolicyError = true) (hseq : entry.seq = o.auditSeq + 1)
      (hid : entry.field? "intent_id" = some (.str r.intent.id))
      (hst : entry.field? "state" = some (.str RECONCILIATION_REQUIRED.value)) :
      Step .execute (.error e)
        (o.update id (fun r => { r with state := RECONCILIATION_REQUIRED })).logged.logged
        (cfg.audited ⟨o.auditSeq, "executing",
            [("intent_id", .str r.intent.id), ("state", .str EXECUTING.value)]⟩ ++
          .executeCall id prep.preparedPayload prep.preparedHash :: cfg.audited entry)
  /-- The adapter was called and the operation ended with the intent still `EXECUTING`: an uncaught
      exception, a result that fails receipt validation, or a store write that fails. -/
  | dispatchStranded {id : String} {r : IntentRecord} {prep : PrepareResult} {e : Exc} {s : IdempotencyStore}
      (hfirst : o.firstIn APPROVED = some (id, r)) (hprep : r.prepared = some prep)
      (hwhy : (∃ m, env.adapter.execute prep.preparedPayload prep.preparedHash = .error (.other m) ∧
            e = .adapter (.other m) ∧ s = o.store) ∨
          (∃ res, env.adapter.execute prep.preparedPayload prep.preparedHash = .ok res ∧ res.feeSat < 0 ∧
            e = .validationError ∧ s = o.store) ∨
          (∃ res, env.adapter.execute prep.preparedPayload prep.preparedHash = .ok res ∧ 0 ≤ res.feeSat ∧
            ¬ env.saves cfg ∧ e = .osError ∧ s = o.store.addReceipt r.intent.id res.settlementRef)) :
      Step .execute (.error e)
        ((o.withStore s).update id (fun r => { r with state := EXECUTING })).logged
        (cfg.audited ⟨o.auditSeq, "executing",
            [("intent_id", .str r.intent.id), ("state", .str EXECUTING.value)]⟩ ++
          [.executeCall id prep.preparedPayload prep.preparedHash])
  | dispatchSettled {id : String} {r : IntentRecord} {prep : PrepareResult} {res : ExecuteResult}
      (hfirst : o.firstIn APPROVED = some (id, r)) (hprep : r.prepared = some prep)
      (hcall : env.adapter.execute prep.preparedPayload prep.preparedHash = .ok res)
      (hfee : 0 ≤ res.feeSat) (hsave : env.saves cfg) :
      Step .execute (.ok (.receipt (builtReceipt cfg env r res hfee)))
        ((o.withStore (o.store.addReceipt r.intent.id res.settlementRef)).update id
          (fun r' => { r' with receipt := some (builtReceipt cfg env r res hfee), state := SETTLED })).logged.logged
        (cfg.audited ⟨o.auditSeq, "executing",
            [("intent_id", .str r.intent.id), ("state", .str EXECUTING.value)]⟩ ++
          (.executeCall id prep.preparedPayload prep.preparedHash ::
            (cfg.saved (o.store.addReceipt r.intent.id res.settlementRef) ++
              cfg.audited ⟨o.auditSeq + 1, "settled", [("intent_id", .str r.intent.id),
                ("settlement_ref", .str res.settlementRef), ("amount_sat", .int r.intent.amountSat),
                ("state", .str SETTLED.value)]⟩)))
  | receiptSettled {rc : PaymentReceipt} {r : IntentRecord} {q : PaymentQuote} {v : ReceiptVerifyResult}
      (hr : o.record? rc.intentId = some r)
      (hstate : r.state = EXECUTING ∨ r.state = RECONCILIATION_REQUIRED)
      (hnew : o.store.hasReceipt rc.intentId = false) (hamount : rc.amountSat = r.intent.amountSat)
      (hquote : r.quote = some q) (hqid : q.quoteId = rc.quoteId)
      (hcall : env.adapter.verifySenderSettlement rc.settlementRef rc.amountSat = .ok v)
      (hverified : v.verified = true) (hsave : env.saves cfg) :
      Step (.receiveReceipt rc) (.ok (.receipt rc))
        ((o.withStore (o.store.addReceipt rc.intentId rc.settlementRef)).update rc.intentId
          (fun r => { r with receipt := some rc, state := SETTLED })).logged
        (.verifyCall rc.intentId rc.settlementRef rc.amountSat (.ok v) ::
          (cfg.saved (o.store.addReceipt rc.intentId rc.settlementRef) ++
            cfg.audited ⟨o.auditSeq, "receipt_confirmed", [("intent_id", .str r.intent.id),
              ("settlement_ref", .str rc.settlementRef), ("state", .str SETTLED.value)]⟩))
  | receiptUnsaved {rc : PaymentReceipt} {r : IntentRecord} {v : ReceiptVerifyResult}
      (hr : o.record? rc.intentId = some r)
      (hstate : r.state = EXECUTING ∨ r.state = RECONCILIATION_REQUIRED)
      (hnew : o.store.hasReceipt rc.intentId = false) (hsave : ¬ env.saves cfg) :
      Step (.receiveReceipt rc) (.error .osError)
        (o.withStore (o.store.addReceipt rc.intentId rc.settlementRef))
        [.verifyCall rc.intentId rc.settlementRef rc.amountSat (.ok v)]
  | confirmed {id : String} {r : IntentRecord} (hr : o.record? id = some r)
      (hstate : r.state = RECONCILIATION_REQUIRED) (hsave : env.saves cfg) :
      Step (.confirmSettled id) (.ok .unit)
        ((o.withStore (o.store.addReceipt id s!"manual:{id}")).update id
          (fun r => { r with state := SETTLED })).logged
        (cfg.saved (o.store.addReceipt id s!"manual:{id}") ++
          cfg.audited ⟨o.auditSeq, "confirm_settled",
            [("intent_id", .str r.intent.id), ("state", .str SETTLED.value)]⟩)
  | confirmedUnsaved {id : String} {r : IntentRecord} (hr : o.record? id = some r)
      (hstate : r.state = RECONCILIATION_REQUIRED) (hsave : ¬ env.saves cfg) :
      Step (.confirmSettled id) (.error .osError)
        (o.withStore (o.store.addReceipt id s!"manual:{id}")) []
  | reconciled {id : String} {r : IntentRecord} {prep : PrepareResult} {result : ReconcileResult}
      (hr : o.record? id = some r) (hstate : r.state = RECONCILIATION_REQUIRED)
      (hprep : r.prepared = some prep) :
      Step (.reconcileSettlement id) (.ok (.reconciled result))
        (o.update id (fun r => { r with reconciliation := some result })).logged
        (.reconcileCall id prep.preparedPayload prep.preparedHash r.intent.amountSat ::
          cfg.audited ⟨o.auditSeq, "settlement_reconciled", [("intent_id", .str r.intent.id),
            ("status", .str result.status), ("amount_sat", .int result.amountSat),
            ("fee_sat", .int result.feeSat), ("state", .str RECONCILIATION_REQUIRED.value)]⟩)
  | cancelled {id : String} {r : IntentRecord} (hr : o.record? id = some r)
      (hstate : r.state.cancellable = true) :
      Step (.cancel id) (.ok .unit) (o.update id (fun r => { r with state := CANCELLED })).logged
        (cfg.audited ⟨o.auditSeq, "cancelled",
          [("intent_id", .str r.intent.id), ("state", .str CANCELLED.value)]⟩)
  | rejected {id : String} {r : IntentRecord} (hr : o.record? id = some r)
      (hstate : r.state.rejectable = true) :
      Step (.reject id) (.ok .unit) (o.update id (fun r => { r with state := REJECTED })).logged
        (cfg.audited ⟨o.auditSeq, "rejected",
          [("intent_id", .str r.intent.id), ("state", .str REJECTED.value)]⟩)
  | noneExpired {sel : Option (List String)} : Step (.checkExpired sel) (.ok (.expired [])) o []
  | swept {sel : Option (List String)} {ids : List String} {m : String} (hne : ids ≠ []) (hnd : ids.Nodup)
      (hexp : ∀ id ∈ ids, ∃ r, o.record? id = some r ∧ r.expiredExecuting env.now = true) :
      Step (.checkExpired sel) (.error (.stateError m)) (o.expire ids)
        (PaymentOrchestrator.expireEffects cfg o.auditSeq ids)

end StepRelation

end HermesPayments
