import HermesPayments.Policy.Step

/-!
# `HermesPayments.Policy.Refine` — the code takes only steps of `Step`

`call_step`: the outcome of every call of an operation, in any state and under any environment, is one of
the ways `Step` lists. The helpers come first, each with the one equation its callers use.
-/

namespace HermesPayments

open Lib PaymentState

variable {cfg : Config} {env : Env}

/-! ## The helpers, run -/

theorem run_save_ok {o : PaymentOrchestrator} (h : env.saves cfg) :
    (save cfg env).run o = ⟨.ok (), o, cfg.saved o.store⟩ := by
  have hno : ¬ (cfg.storePath.isSome = true ∧ env.saveFails = true) := h
  simp [save, Proc.run_bind, hno]

theorem run_save_error {o : PaymentOrchestrator} (h : ¬ env.saves cfg) :
    (save cfg env).run o = ⟨.error .osError, o, []⟩ := by
  have hyes : cfg.storePath.isSome = true ∧ env.saveFails = true := not_not.mp h
  simp [save, Proc.run_bind, hyes]

@[simp] theorem run_audit (o : PaymentOrchestrator) (event : String) (fields : List (String × AuditValue)) :
    (audit cfg event fields).run o = ⟨.ok (), o.logged, cfg.audited ⟨o.auditSeq, event, fields⟩⟩ := by
  simp [audit, Proc.run_bind, PaymentOrchestrator.logged]

@[simp] theorem run_updateRecord (o : PaymentOrchestrator) (id : String) (f : IntentRecord → IntentRecord) :
    (updateRecord id f).run o = ⟨.ok (), o.update id f, []⟩ := rfl

@[simp] theorem run_modifyStore (o : PaymentOrchestrator) (f : IdempotencyStore → IdempotencyStore) :
    (modifyStore f).run o = ⟨.ok (), o.withStore (f o.store), []⟩ := rfl

theorem run_getRecord_some {o : PaymentOrchestrator} {id : String} {r : IntentRecord}
    (h : o.record? id = some r) : (getRecord id).run o = ⟨.ok r, o, []⟩ := by
  have h' : o.intents.get? id = some r := h
  simp [getRecord, Proc.run_bind, h']

theorem run_getRecord_none {o : PaymentOrchestrator} {id : String} (h : o.record? id = none) :
    (getRecord id).run o = ⟨.error (.unknownIntent s!"intent {id} is not tracked"), o, []⟩ := by
  have h' : o.intents.get? id = none := h
  simp [getRecord, Proc.run_bind, h']

theorem run_findByState_some {o : PaymentOrchestrator} {s : PaymentState} {e : String × IntentRecord}
    (h : o.firstIn s = some e) : (findByState s).run o = ⟨.ok e, o, []⟩ := by
  simp [findByState, Proc.run_bind, h]

theorem run_findByState_none {o : PaymentOrchestrator} {s : PaymentState} (h : o.firstIn s = none) :
    ∃ m, (findByState s).run o = ⟨.error (.stateError m), o, []⟩ := by
  simp only [findByState, Proc.run_bind, Proc.run_get, h, Proc.after_nil, Proc.run_ite, Proc.run_raise]
  split <;> exact ⟨_, rfl⟩

/-- The recording of an id, an approval or a receipt, when the save succeeds. -/
theorem run_record_ok {o : PaymentOrchestrator} (f : IdempotencyStore → IdempotencyStore)
    (h : env.saves cfg) : ((do modifyStore f; save cfg env : Policy Unit)).run o
      = ⟨.ok (), o.withStore (f o.store), cfg.saved (f o.store)⟩ := by
  simp [Proc.run_bind, run_save_ok h]

/-- … and when it fails: the collection in memory has the record, the file does not. -/
theorem run_record_error {o : PaymentOrchestrator} (f : IdempotencyStore → IdempotencyStore)
    (h : ¬ env.saves cfg) : ((do modifyStore f; save cfg env : Policy Unit)).run o
      = ⟨.error .osError, o.withStore (f o.store), []⟩ := by
  simp [Proc.run_bind, run_save_error h]

theorem update_update (o : PaymentOrchestrator) (id : String) (f g : IntentRecord → IntentRecord) :
    (o.update id f).update id g = o.update id (fun r => g (f r)) := by
  simp [PaymentOrchestrator.update, Dict.modify_modify]

theorem update_logged (o : PaymentOrchestrator) (id : String) (f : IntentRecord → IntentRecord) :
    o.logged.update id f = (o.update id f).logged := rfl

theorem withStore_update (o : PaymentOrchestrator) (id : String) (f : IntentRecord → IntentRecord)
    (s : IdempotencyStore) : (o.update id f).withStore s = (o.withStore s).update id f := rfl

theorem withStore_logged (o : PaymentOrchestrator) (s : IdempotencyStore) :
    o.logged.withStore s = (o.withStore s).logged := rfl

theorem withStore_self (o : PaymentOrchestrator) : o.withStore o.store = o := rfl

theorem Step.unchanged {o : PaymentOrchestrator} {op : Op} {e : Exc} : Step cfg env o op (.error e) o [] :=
  .refused rfl rfl (by simp) (by simp)

/-- The step an outcome stands for. -/
def Steps (cfg : Config) (env : Env) (o : PaymentOrchestrator) (op : Op)
    (out : Outcome Effect Exc PaymentOrchestrator Answer) : Prop :=
  Step cfg env o op out.result out.state out.effects

theorem steps_of_run {o o' : PaymentOrchestrator} {op : Op} {res : Except Exc Answer} {es : List Effect}
    (hrun : (call cfg env op).run o = ⟨res, o', es⟩) (h : Step cfg env o op res o' es) :
    Steps cfg env o op ((call cfg env op).run o) := by
  rw [hrun]; exact h

theorem quiet_audited {e : AuditEntry} {w : Effect} (h : w ∈ cfg.audited e) : w.quiet = true := by
  unfold Config.audited at h
  split at h
  · rw [List.mem_singleton.mp h]; rfl
  · simp at h

/-- A line found among the effects of an audit is the audited one. -/
theorem mem_audited {e e' : AuditEntry} (h : .auditAppend e ∈ cfg.audited e') : e' = e := by
  unfold Config.audited at h
  split at h
  · exact (Effect.auditAppend.inj (List.mem_singleton.mp h)).symm
  · simp at h

/-! ## One lemma per operation -/

/-- `track` as the code does it: the in-memory insert, then the store. -/
theorem track_eq (o : PaymentOrchestrator) (i : PaymentIntent) :
    (PaymentOrchestrator.mk o.store o.auditSeq (o.intents.set i.id
        { intent := i, state := SUBMITTED, expiresAt := i.expiresAt })).withStore (o.store.addIntent i.id)
      = o.track i := rfl

theorem submit_step (o : PaymentOrchestrator) (i : PaymentIntent) :
    Steps cfg env o (.submit i) ((call cfg env (.submit i)).run o) := by
  simp only [Steps, call, submit, Proc.run_bind, Proc.run_get, Proc.after_nil]
  cases hnew : o.store.hasIntent i.id with
  | true => simpa using Step.seen hnew
  | false =>
      by_cases hexp : i.expiresAt ≠ 0 ∧ env.now > i.expiresAt
      · simpa [checkIntentExpired, hexp, Proc.run_bind] using Step.unchanged
      · by_cases hrec : allowed cfg.recipientAllowlist i.recipient.pubkey = true
        · by_cases hsave : env.saves cfg
          · have := Step.submitted (o := o) hnew hexp hrec hsave
            simpa [checkIntentExpired, validateRecipient, hexp, hrec, Proc.run_bind, transition_submit_ok,
              transition_submit_new, recordIntent, run_save_ok hsave, track_eq] using this
          · have := Step.submittedUnsaved (o := o) hnew hexp hrec hsave
            simpa [checkIntentExpired, validateRecipient, hexp, hrec, Proc.run_bind, transition_submit_ok,
              transition_submit_new, recordIntent, run_save_error hsave, track_eq] using this
        · simpa [checkIntentExpired, validateRecipient, hexp, hrec, Proc.run_bind] using Step.unchanged

/-- A quote for an intent past `SUBMITTED` passes the checks made before the assignment. -/
theorem run_receiveQuote_late (cfg : Config) {o : PaymentOrchestrator} {q : PaymentQuote} {r : IntentRecord}
    (hr : o.record? q.intentId = some r) (hfee : q.feeSat ≤ r.intent.maxFeeSat)
    (hexp : env.now ≤ q.expiresAt) (hstate : r.state ≠ SUBMITTED) :
    ∃ m, (call cfg env (.receiveQuote q)).run o = ⟨.error (.submissionRejected m),
      o.update q.intentId (fun r => { r with quote := some q, quoteExpiresAt := q.expiresAt }), []⟩ := by
  have hfee' : ¬ q.feeSat > r.intent.maxFeeSat := by omega
  have hexp' : ¬ env.now > q.expiresAt := by omega
  let tr := transition r.state "quote_received"
  refine ⟨s!"cannot receive quote: state is {r.state.value}: {tr.errorText}", ?_⟩
  simp [tr, call, receiveQuote, run_getRecord_some hr, hfee', hexp', hstate, Proc.run_bind]

theorem receiveQuote_step (o : PaymentOrchestrator) (q : PaymentQuote) :
    Steps cfg env o (.receiveQuote q) ((call cfg env (.receiveQuote q)).run o) := by
  cases hr : o.record? q.intentId with
  | none => simpa [Steps, call, receiveQuote, run_getRecord_none hr, Proc.run_bind] using Step.unchanged
  | some r =>
      by_cases hfee : q.feeSat > r.intent.maxFeeSat
      · simpa [Steps, call, receiveQuote, run_getRecord_some hr, hfee, Proc.run_bind] using Step.unchanged
      · by_cases hexp : env.now > q.expiresAt
        · simpa [Steps, call, receiveQuote, run_getRecord_some hr, hfee, hexp, Proc.run_bind]
            using Step.unchanged
        · have hfee' : q.feeSat ≤ r.intent.maxFeeSat := by omega
          have hexp' : env.now ≤ q.expiresAt := by omega
          by_cases hstate : r.state = SUBMITTED
          · have : Step cfg env o (.receiveQuote q) _ _ _ := .quoted hr hfee' hexp' hstate
            simpa [Steps, call, receiveQuote, run_getRecord_some hr, hfee, hexp, hstate, Proc.run_bind,
              update_update] using this
          · obtain ⟨m, hrun⟩ := run_receiveQuote_late cfg hr hfee' hexp' hstate
            exact steps_of_run hrun (.quoteOverwritten hr hfee' hexp' hstate)

theorem prepare_step (o : PaymentOrchestrator) :
    Steps cfg env o .prepare ((call cfg env .prepare).run o) := by
  simp only [Steps, call, prepare, Proc.run_bind]
  cases hfirst : o.firstIn QUOTED with
  | none =>
      obtain ⟨m, hm⟩ := run_findByState_none hfirst
      simpa [hm] using Step.unchanged
  | some e =>
      obtain ⟨id, r⟩ := e
      have hstate : r.state = QUOTED := (PaymentOrchestrator.record?_of_firstIn hfirst).2
      simp only [run_findByState_some hfirst, Proc.after_nil]
      by_cases hexp : r.quoteExpiresAt ≠ 0 ∧ env.now > r.quoteExpiresAt
      · simpa [checkQuoteExpired, hexp, Proc.run_bind] using Step.unchanged
      by_cases hrail : allowed cfg.railAllowlist env.adapter.rail = true
      swap
      · simpa [checkQuoteExpired, hexp, validateRail, hrail, Proc.run_bind] using Step.unchanged
      cases hquote : r.quote with
      | none => simpa [checkQuoteExpired, hexp, validateRail, hrail, hstate, Proc.run_bind]
                  using Step.unchanged
      | some q =>
          simp only [checkQuoteExpired, hexp, validateRail, hrail, hstate, Proc.run_bind, if_false, if_true,
            Proc.run_pure, Proc.after_nil, transition_prepared_ok, decide_true, Bool.not_true,
            Bool.false_eq_true, Proc.run_emit]
          generalize hcall : env.adapter.prepare q.receiveInstruction r.intent.amountSat
            r.intent.maxFeeSat = answer
          -- the call itself is quiet, so every refusal after it is one too
          have hrefused : ∀ e, Step cfg env o .prepare (.error e) o
              [.prepareCall id q.receiveInstruction r.intent.amountSat r.intent.maxFeeSat answer] :=
            fun e => .refused rfl rfl (by simp [Effect.quiet]) (by simp)
          cases answer with
          | error x => cases x <;> simpa using hrefused _
          | ok prep =>
              by_cases hfee : prep.feeSat > r.intent.maxFeeSat
              · simpa [hfee, Proc.run_bind] using hrefused _
              · have hfee' : prep.feeSat ≤ r.intent.maxFeeSat := by omega
                by_cases hrail' : allowed cfg.railAllowlist prep.rail = true
                · have := Step.prepared hfirst hquote hexp hrail hcall hfee' hrail'
                  simpa [hfee, hrail', validateRail, Proc.run_bind] using this
                · -- the preview's rail is the adapter's: there is one rail
                  exact absurd hrail hrail'

/-- An approval that passes every check. -/
theorem run_approve_ok {o : PaymentOrchestrator} {a : PaymentApproval} {r : IntentRecord} {q : PaymentQuote}
    {prep : PrepareResult} (hr : o.record? a.intentId = some r) (hquote : r.quote = some q)
    (hqid : q.quoteId = a.quoteId) (hprep : r.prepared = some prep) (hhash : prep.preparedHash = a.preparedHash)
    (hnew : o.store.hasApproval a.intentId a.quoteId a.preparedHash = false) (hstate : r.state = PREPARED)
    (hsave : env.saves cfg) :
    (call cfg env (.approve a)).run o = ⟨.ok .unit,
      ((o.withStore (o.store.addApproval a.intentId a.quoteId a.preparedHash)).update a.intentId
        (fun r => { r with approval := some a, state := APPROVED })).logged,
      cfg.saved (o.store.addApproval a.intentId a.quoteId a.preparedHash) ++
        cfg.audited ⟨o.auditSeq, "approved", [("intent_id", .str r.intent.id),
          ("quote_id", .str a.quoteId), ("prepared_hash", .str a.preparedHash),
          ("approver", .str a.approver.pubkey), ("state", .str APPROVED.value)]⟩⟩ := by
  simp [call, approve, run_getRecord_some hr, hquote, hqid, hprep, hhash, hnew, hstate, Proc.run_bind,
    recordApproval, run_save_ok hsave, update_update]

theorem approve_step (o : PaymentOrchestrator) (a : PaymentApproval) :
    Steps cfg env o (.approve a) ((call cfg env (.approve a)).run o) := by
  cases hr : o.record? a.intentId with
  | none => simpa [Steps, call, approve, run_getRecord_none hr, Proc.run_bind] using Step.unchanged
  | some r =>
      cases hquote : r.quote with
      | none => simpa [Steps, call, approve, run_getRecord_some hr, hquote, Proc.run_bind] using Step.unchanged
      | some q =>
          by_cases hqid : q.quoteId = a.quoteId
          swap
          · simpa [Steps, call, approve, run_getRecord_some hr, hquote, hqid, Proc.run_bind]
              using Step.unchanged
          cases hprep : r.prepared with
          | none => simpa [Steps, call, approve, run_getRecord_some hr, hquote, hqid, hprep, Proc.run_bind]
                      using Step.unchanged
          | some prep =>
              by_cases hhash : prep.preparedHash = a.preparedHash
              swap
              · simpa [Steps, call, approve, run_getRecord_some hr, hquote, hqid, hprep, hhash, Proc.run_bind]
                  using Step.unchanged
              cases hnew : o.store.hasApproval a.intentId a.quoteId a.preparedHash with
              | true => simpa [Steps, call, approve, run_getRecord_some hr, hquote, hqid, hprep, hhash, hnew,
                          Proc.run_bind] using Step.unchanged
              | false =>
                  by_cases hstate : r.state = PREPARED
                  swap
                  · simpa [Steps, call, approve, run_getRecord_some hr, hquote, hqid, hprep, hhash, hnew,
                      hstate, Proc.run_bind] using Step.unchanged
                  by_cases hsave : env.saves cfg
                  · exact steps_of_run (run_approve_ok hr hquote hqid hprep hhash hnew hstate hsave)
                      (.approved hr hquote hqid hprep hhash hnew hstate hsave)
                  · have := Step.approvedUnsaved hr hstate hsave
                    simpa [Steps, call, approve, run_getRecord_some hr, hquote, hqid, hprep, hhash, hnew,
                      hstate, Proc.run_bind, recordApproval, run_save_error hsave] using this

/-- The fail-closed exit, run from the state `execute` calls it in. -/
theorem run_reconciliationRequired (cfg : Config) (o : PaymentOrchestrator) (id event what : String) (r : IntentRecord)
    (x : AdapterExc) : ∃ m entry,
      (reconciliationRequired cfg id event what r x).run o
        = ⟨.error (.stateError m), (o.update id (fun r => { r with state := RECONCILIATION_REQUIRED })).logged,
            cfg.audited entry⟩
      ∧ entry.seq = o.auditSeq ∧ entry.field? "intent_id" = some (.str r.intent.id)
      ∧ entry.field? "state" = some (.str RECONCILIATION_REQUIRED.value) := by
  refine ⟨s!"{what} for intent {r.intent.id}: {x.message}; " ++
      "transitioned to RECONCILIATION_REQUIRED — manual reconciliation required",
    ⟨o.auditSeq, event, [("intent_id", .str r.intent.id), ("error", .str x.message),
      ("state", .str RECONCILIATION_REQUIRED.value)]⟩, ?_, rfl, rfl, rfl⟩
  simp [reconciliationRequired, Proc.run_bind]

theorem execute_step (o : PaymentOrchestrator) :
    Steps cfg env o .execute ((call cfg env .execute).run o) := by
  simp only [Steps, call, execute, Proc.run_bind]
  cases hfirst : o.firstIn APPROVED with
  | none =>
      obtain ⟨m, hm⟩ := run_findByState_none hfirst
      simpa [hm] using Step.unchanged
  | some e =>
      obtain ⟨id, r⟩ := e
      have hstate : r.state = APPROVED := (PaymentOrchestrator.record?_of_firstIn hfirst).2
      simp only [run_findByState_some hfirst, Proc.after_nil]
      cases hprep : r.prepared with
      | none => simpa using Step.unchanged
      | some prep =>
          simp only [hstate, transition_executing_ok, transition_executing_new, decide_true, Bool.not_true,
            Bool.false_eq_true, if_false, Proc.run_bind, Proc.run_pure, run_updateRecord, run_audit,
            Proc.after_nil, Proc.run_emit, Proc.after_mk, PaymentOrchestrator.auditSeq_update]
          cases hcall : env.adapter.execute prep.preparedPayload prep.preparedHash with
          | error x =>
              -- both caught classes leave by the fail-closed exit
              have hcaught (h : ∀ m, x ≠ .other m) (event what : String) :=
                run_reconciliationRequired cfg
                  (o.update id (fun r => { r with state := EXECUTING })).logged id event what r x
              cases x with
              | ambiguousResult m' =>
                  obtain ⟨m, entry, hrun, hseq, hid, hst⟩ := hcaught nofun "adapter_ambiguous"
                    "ambiguous settlement result"
                  have : Step cfg env o .execute (.error (.stateError m)) _ _ :=
                    .dispatchAmbiguous hfirst hprep hcall nofun rfl hseq hid hst
                  simpa [hrun, update_logged, update_update] using this
              | adapterError m' =>
                  obtain ⟨m, entry, hrun, hseq, hid, hst⟩ := hcaught nofun "adapter_error"
                    "adapter error during execution"
                  have : Step cfg env o .execute (.error (.stateError m)) _ _ :=
                    .dispatchAmbiguous hfirst hprep hcall nofun rfl hseq hid hst
                  simpa [hrun, update_logged, update_update] using this
              | other m =>
                  have : Step cfg env o .execute _ _ _ :=
                    .dispatchStranded hfirst hprep (.inl ⟨m, hcall, rfl, rfl⟩)
                  simpa [withStore_self] using this
          | ok res =>
              by_cases hfee : 0 ≤ res.feeSat
              swap
              · have : Step cfg env o .execute _ _ _ :=
                  .dispatchStranded hfirst hprep (.inr (.inl ⟨res, hcall, by omega, rfl, rfl⟩))
                simpa [PaymentReceipt.validate?, hfee, withStore_self] using this
              simp only [PaymentReceipt.validate?, r.intent.amountSat_pos, hfee, and_self, dite_true]
              by_cases hsave : env.saves cfg
              · have := Step.dispatchSettled hfirst hprep hcall hfee hsave
                simpa [Proc.run_bind, recordReceipt, run_save_ok hsave, update_logged, update_update,
                  withStore_update, withStore_logged, builtReceipt] using this
              · have := Step.dispatchStranded hfirst hprep
                  (.inr (.inr ⟨res, hcall, hfee, hsave, rfl, rfl⟩))
                simpa [Proc.run_bind, recordReceipt, run_save_error hsave, update_logged, update_update,
                  withStore_update, withStore_logged] using this

/-- `execute` dispatches whenever there is an approved intent with a prepared payload. -/
theorem execute_dispatches (cfg : Config) (env : Env) {o : PaymentOrchestrator} {id : String} {r : IntentRecord} {prep : PrepareResult}
    (hfirst : o.firstIn APPROVED = some (id, r)) (hprep : r.prepared = some prep) :
    .executeCall id prep.preparedPayload prep.preparedHash ∈ ((call cfg env .execute).run o).effects := by
  have hstate : r.state = APPROVED := (PaymentOrchestrator.record?_of_firstIn hfirst).2
  refine Proc.mem_effects_bind ?_
  rw [execute, Proc.run_bind_ok (run_findByState_some hfirst)]
  simp only [hprep, hstate, transition_executing_ok, decide_true, Bool.not_true, Bool.false_eq_true,
    if_false, Proc.run_bind, run_updateRecord, run_audit, Proc.after_nil, Proc.run_emit,
    Proc.effects_after]
  exact List.mem_append_right _ (List.mem_append_left _ (List.mem_singleton.mpr rfl))

/-- A receipt that passes every gate. -/
theorem run_receiveReceipt_ok {o : PaymentOrchestrator} {rc : PaymentReceipt} {r : IntentRecord}
    {q : PaymentQuote} {v : ReceiptVerifyResult} (hr : o.record? rc.intentId = some r)
    (hstate : r.state = EXECUTING ∨ r.state = RECONCILIATION_REQUIRED)
    (hnew : o.store.hasReceipt rc.intentId = false) (hamount : rc.amountSat = r.intent.amountSat)
    (hquote : r.quote = some q) (hqid : q.quoteId = rc.quoteId)
    (hcall : env.adapter.verifySenderSettlement rc.settlementRef rc.amountSat = .ok v)
    (hverified : v.verified = true) (hsave : env.saves cfg) :
    (call cfg env (.receiveReceipt rc)).run o = ⟨.ok (.receipt rc),
      ((o.withStore (o.store.addReceipt rc.intentId rc.settlementRef)).update rc.intentId
        (fun r => { r with receipt := some rc, state := SETTLED })).logged,
      .verifyCall rc.intentId rc.settlementRef rc.amountSat (.ok v) ::
        (cfg.saved (o.store.addReceipt rc.intentId rc.settlementRef) ++
          cfg.audited ⟨o.auditSeq, "receipt_confirmed", [("intent_id", .str r.intent.id),
            ("settlement_ref", .str rc.settlementRef), ("state", .str SETTLED.value)]⟩)⟩ := by
  have hgate : ¬ (r.state ≠ EXECUTING ∧ r.state ≠ RECONCILIATION_REQUIRED) := by tauto
  rw [hamount] at hcall
  simp [call, receiveReceipt, run_getRecord_some hr, hgate, hnew, hamount, hquote, hqid, hcall, hverified,
    Proc.run_bind, recordReceipt, run_save_ok hsave, transition_receipt_received_new hstate]

theorem receiveReceipt_step (o : PaymentOrchestrator) (rc : PaymentReceipt) :
    Steps cfg env o (.receiveReceipt rc) ((call cfg env (.receiveReceipt rc)).run o) := by
  cases hr : o.record? rc.intentId with
  | none => simpa [Steps, call, receiveReceipt, run_getRecord_none hr, Proc.run_bind] using Step.unchanged
  | some r =>
      by_cases hstate : r.state = EXECUTING ∨ r.state = RECONCILIATION_REQUIRED
      swap
      · have hgate : r.state ≠ EXECUTING ∧ r.state ≠ RECONCILIATION_REQUIRED := not_or.mp hstate
        simpa [Steps, call, receiveReceipt, run_getRecord_some hr, hgate, Proc.run_bind] using Step.unchanged
      have hgate : ¬ (r.state ≠ EXECUTING ∧ r.state ≠ RECONCILIATION_REQUIRED) := by tauto
      cases hnew : o.store.hasReceipt rc.intentId with
      | true =>
          simpa [Steps, call, receiveReceipt, run_getRecord_some hr, hgate, hnew, Proc.run_bind]
            using Step.unchanged
      | false =>
      by_cases hamount : rc.amountSat = r.intent.amountSat
      swap
      · have hrefused (e : Exc) :
            Step cfg env o (.receiveReceipt rc) (.error e) o.logged
              (cfg.audited ⟨o.auditSeq, "receipt_mismatch", [("intent_id", .str r.intent.id),
                ("expected_amount", .int r.intent.amountSat), ("actual_amount", .int rc.amountSat),
                ("state", .str r.state.value)]⟩) :=
          .refused rfl rfl (fun _ hw => quiet_audited hw) fun _ hw => ⟨_, r, hr, mem_audited hw ▸ ⟨rfl, rfl⟩⟩
        simpa [Steps, call, receiveReceipt, run_getRecord_some hr, hgate, hnew, hamount, Proc.run_bind]
          using hrefused _
      cases hquote : r.quote with
      | none =>
          simpa [Steps, call, receiveReceipt, run_getRecord_some hr, hgate, hnew, hamount, hquote,
            Proc.run_bind] using Step.unchanged
      | some q =>
      by_cases hqid : q.quoteId = rc.quoteId
      swap
      · simpa [Steps, call, receiveReceipt, run_getRecord_some hr, hgate, hnew, hamount, hquote, hqid,
          Proc.run_bind] using Step.unchanged
      cases hcall : env.adapter.verifySenderSettlement rc.settlementRef rc.amountSat with
      | error x =>
          have : Step cfg env o (.receiveReceipt rc) (.error (.adapter x)) o
              [.verifyCall rc.intentId rc.settlementRef rc.amountSat (.error x)] :=
            .refused rfl rfl (by simp [Effect.quiet]) (by simp)
          rw [hamount] at hcall
          simpa [Steps, call, receiveReceipt, run_getRecord_some hr, hgate, hnew, hamount, hquote, hqid, hcall,
            Proc.run_bind] using this
      | ok v =>
          cases hverified : v.verified with
          | false =>
              have hrefused (e : Exc) : Step cfg env o (.receiveReceipt rc) (.error e) o.logged
                  (.verifyCall rc.intentId rc.settlementRef rc.amountSat (.ok v) ::
                    cfg.audited ⟨o.auditSeq, "receipt_verification_failed", [("intent_id", .str r.intent.id),
                      ("error", .str (receiveReceipt.orText v.error "verification failed")),
                      ("state", .str r.state.value)]⟩) := by
                refine .refused rfl rfl (fun w hw => ?_) fun entry hw => ⟨_, r, hr, ?_⟩
                · rcases List.mem_cons.mp hw with rfl | hw
                  · rfl
                  · exact quiet_audited hw
                · rcases List.mem_cons.mp hw with hw | hw
                  · cases hw
                  · exact mem_audited hw ▸ ⟨rfl, rfl⟩
              rw [hamount] at hcall hrefused
              simpa [Steps, call, receiveReceipt, run_getRecord_some hr, hgate, hnew, hamount, hquote, hqid,
                hcall, hverified, Proc.run_bind] using hrefused _
          | true =>
              by_cases hsave : env.saves cfg
              · exact steps_of_run
                  (run_receiveReceipt_ok hr hstate hnew hamount hquote hqid hcall hverified hsave)
                  (.receiptSettled hr hstate hnew hamount hquote hqid hcall hverified hsave)
              · have := Step.receiptUnsaved (v := v) hr hstate hnew hsave
                rw [hamount] at hcall this
                simpa [Steps, call, receiveReceipt, run_getRecord_some hr, hgate, hnew, hamount, hquote, hqid,
                  hcall, hverified, Proc.run_bind, recordReceipt, run_save_error hsave] using this

theorem confirmSettled_step (o : PaymentOrchestrator) (id : String) :
    Steps cfg env o (.confirmSettled id) ((call cfg env (.confirmSettled id)).run o) := by
  simp only [Steps, call, confirmSettled, Proc.run_bind]
  cases hr : o.record? id with
  | none => simpa [run_getRecord_none hr] using Step.unchanged
  | some r =>
      simp only [run_getRecord_some hr, Proc.after_nil]
      by_cases hstate : r.state = RECONCILIATION_REQUIRED
      swap
      · simpa [hstate, Proc.run_bind] using Step.unchanged
      by_cases hsave : env.saves cfg
      · have := Step.confirmed hr hstate hsave
        simpa [hstate, Proc.run_bind, recordReceipt, run_save_ok hsave] using this
      · have := Step.confirmedUnsaved hr hstate hsave
        simpa [hstate, Proc.run_bind, recordReceipt, run_save_error hsave] using this

theorem reconcileSettlement_step (o : PaymentOrchestrator) (id : String) :
    Steps cfg env o (.reconcileSettlement id) ((call cfg env (.reconcileSettlement id)).run o) := by
  simp only [Steps, call, reconcileSettlement, Proc.run_bind]
  cases hr : o.record? id with
  | none => simpa [run_getRecord_none hr] using Step.unchanged
  | some r =>
      simp only [run_getRecord_some hr, Proc.after_nil]
      by_cases hstate : r.state = RECONCILIATION_REQUIRED
      swap
      · simpa [hstate, Proc.run_bind] using Step.unchanged
      cases hprep : r.prepared with
      | none => simpa [hstate, Proc.run_bind] using Step.unchanged
      | some prep =>
          -- whatever the query answers, the record keeps its state
          have hstep (result : ReconcileResult) :
              Step cfg env o (.reconcileSettlement id) (.ok (.reconciled result)) _ _ :=
            .reconciled hr hstate hprep
          cases hcall : env.adapter.reconcileSettlement prep.preparedPayload prep.preparedHash
              r.intent.amountSat with
          | ok result => simpa [hstate, hcall, Proc.run_bind] using hstep result
          | error x => simpa [hstate, hcall, Proc.run_bind] using hstep _

theorem cancel_step (o : PaymentOrchestrator) (id : String) :
    Steps cfg env o (.cancel id) ((call cfg env (.cancel id)).run o) := by
  simp only [Steps, call, cancel, Proc.run_bind]
  cases hr : o.record? id with
  | none => simpa [run_getRecord_none hr] using Step.unchanged
  | some r =>
      simp only [run_getRecord_some hr, Proc.after_nil]
      cases hstate : r.state.cancellable with
      | false => simpa [hstate, Proc.run_bind] using Step.unchanged
      | true =>
          have : Step cfg env o (.cancel id) _ _ _ := .cancelled hr hstate
          simpa [hstate, Proc.run_bind, transition_cancel_new hstate] using this

theorem reject_step (o : PaymentOrchestrator) (id : String) :
    Steps cfg env o (.reject id) ((call cfg env (.reject id)).run o) := by
  simp only [Steps, call, reject, Proc.run_bind]
  cases hr : o.record? id with
  | none => simpa [run_getRecord_none hr] using Step.unchanged
  | some r =>
      simp only [run_getRecord_some hr, Proc.after_nil]
      cases hstate : r.state.rejectable with
      | false => simpa [hstate, Proc.run_bind] using Step.unchanged
      | true =>
          have : Step cfg env o (.reject id) _ _ _ := .rejected hr hstate
          simpa [hstate, Proc.run_bind, transition_rejected_new hstate] using this

/-! ## The sweep -/

/-- The sweep's loop, on distinct ids whose records are all `EXECUTING`: each id is still as the loop found
    it when its turn comes. -/
theorem run_expireAll (cfg : Config) (ids : List String) (o : PaymentOrchestrator) (hnd : ids.Nodup)
    (h : ∀ id ∈ ids, ∃ r, o.record? id = some r ∧ r.state = EXECUTING) :
    (expireAll cfg ids).run o = ⟨.ok (), o.expire ids, PaymentOrchestrator.expireEffects cfg o.auditSeq ids⟩ := by
  induction ids generalizing o with
  | nil => rfl
  | cons id ids ih =>
      obtain ⟨r, hr, hstate⟩ := h id (by simp)
      have hnd' := List.nodup_cons.mp hnd
      have hrest : ∀ j ∈ ids, ∃ r', ((o.update id (fun r => { r with state := RECONCILIATION_REQUIRED })).logged).record? j
          = some r' ∧ r'.state = EXECUTING := by
        intro j hj
        have hne : j ≠ id := fun heq => hnd'.1 (heq ▸ hj)
        obtain ⟨r', hr', hstate'⟩ := h j (List.mem_cons_of_mem _ hj)
        refine ⟨r', ?_, hstate'⟩
        rw [PaymentOrchestrator.record?_logged, PaymentOrchestrator.record?_update, if_neg hne]
        exact hr'
      simp [expireAll, Proc.run_bind, run_getRecord_some hr, hstate, ih _ hnd'.2 hrest,
        PaymentOrchestrator.expire, PaymentOrchestrator.expireEffects]

theorem checkExpired_step (o : PaymentOrchestrator) (sel : Option (List String)) :
    Steps cfg env o (.checkExpired sel) ((call cfg env (.checkExpired sel)).run o) := by
  simp only [Steps, call, checkExpired, Proc.run_bind, Proc.run_get, Proc.after_nil]
  generalize hids : (o.intents.entries.filter (fun e =>
    sel.all (fun ids => e.1 ∈ ids) && e.2.expiredExecuting env.now)).map Prod.fst = ids
  have hnd : ids.Nodup := by
    rw [← hids]
    exact (List.filter_sublist.map Prod.fst).nodup o.intents.nodup
  have hexp : ∀ id ∈ ids, ∃ r, o.record? id = some r ∧ r.expiredExecuting env.now = true := by
    intro id hid
    rw [← hids] at hid
    obtain ⟨⟨k, r⟩, he, rfl⟩ := List.mem_map.mp hid
    obtain ⟨hmem, hsel⟩ := List.mem_filter.mp he
    exact ⟨r, Dict.get?_of_mem hmem, (Bool.and_eq_true_iff.mp hsel).2⟩
  by_cases hne : ids = []
  · have : Step cfg env o (.checkExpired sel) _ _ _ := .noneExpired
    simpa [hne, Proc.run_bind] using this
  · have hrun := run_expireAll cfg ids o hnd (fun id hid => by
      obtain ⟨r, hr, he⟩ := hexp id hid
      exact ⟨r, hr, (of_decide_eq_true he).1⟩)
    simpa [hne, hrun, Proc.run_bind] using Step.swept hne hnd hexp

/-- **The code takes only the listed steps.** -/
theorem call_step (o : PaymentOrchestrator) (op : Op) : Steps cfg env o op ((call cfg env op).run o) := by
  cases op with
  | submit i => exact submit_step o i
  | receiveQuote q => exact receiveQuote_step o q
  | prepare => exact prepare_step o
  | approve a => exact approve_step o a
  | execute => exact execute_step o
  | receiveReceipt rc => exact receiveReceipt_step o rc
  | confirmSettled id => exact confirmSettled_step o id
  | reconcileSettlement id => exact reconcileSettlement_step o id
  | cancel id => exact cancel_step o id
  | reject id => exact reject_step o id
  | checkExpired sel => exact checkExpired_step o sel

end HermesPayments
