import HermesPayments.Policy.Refine

/-!
# `HermesPayments.Policy.Lifecycle` — the life of one intent

`Step` says what a call does to the whole orchestrator. Most invariants speak about one intent, so this
module projects `Step` onto one record: `RecordStep` lists what a call may do to a tracked record, and
`Step.change` says that nothing else happens to it. A record only ever comes from `submit`, and never
disappears.

The store has its own projection, `Step.store_change`: it only grows, by an intent id, an approval key or a
receipt binding.
-/

namespace HermesPayments

open Lib PaymentState

/-- The states an intent can be in once its payment has been dispatched. -/
def PaymentState.spent (s : PaymentState) : Bool := s ∈ [EXECUTING, SETTLED, RECONCILIATION_REQUIRED]

theorem PaymentState.not_spent_of_cancellable {s : PaymentState} (h : s.cancellable = true) :
    ¬ s.spent = true := by
  revert h; cases s <;> decide

theorem PaymentState.not_spent_of_rejectable {s : PaymentState} (h : s.rejectable = true) :
    ¬ s.spent = true := by
  revert h; cases s <;> decide

section

variable (cfg : Config) (env : Env) (es : List Effect)

/-- What a call with effects `es` may do to a tracked record. -/
inductive RecordStep : Op → Except Exc Answer → String → IntentRecord → IntentRecord → Prop
  | kept {op : Op} {res : Except Exc Answer} {id : String} {r : IntentRecord} : RecordStep op res id r r
  | quoteOverwritten {q : PaymentQuote} {r : IntentRecord} {e : Exc} (hfee : q.feeSat ≤ r.intent.maxFeeSat)
      (hexp : env.now ≤ q.expiresAt) (hstate : r.state ≠ SUBMITTED) :
      RecordStep (.receiveQuote q) (.error e) q.intentId r
        { r with quote := some q, quoteExpiresAt := q.expiresAt }
  | quoted {q : PaymentQuote} {r : IntentRecord} (hfee : q.feeSat ≤ r.intent.maxFeeSat)
      (hexp : env.now ≤ q.expiresAt) (hstate : r.state = SUBMITTED) :
      RecordStep (.receiveQuote q) (.ok .unit) q.intentId r
        { r with quote := some q, quoteExpiresAt := q.expiresAt, state := QUOTED }
  | prepared {id : String} {q : PaymentQuote} {prep : PrepareResult} {r : IntentRecord}
      (hstate : r.state = QUOTED) (hquote : r.quote = some q)
      (hexp : ¬ (r.quoteExpiresAt ≠ 0 ∧ env.now > r.quoteExpiresAt))
      (hcall : env.adapter.prepare q.receiveInstruction r.intent.amountSat r.intent.maxFeeSat = .ok prep)
      (hfee : prep.feeSat ≤ r.intent.maxFeeSat)
      (hmem : .prepareCall id q.receiveInstruction r.intent.amountSat r.intent.maxFeeSat (.ok prep) ∈ es) :
      RecordStep .prepare (.ok (.prepared prep)) id r { r with prepared := some prep, state := PREPARED }
  | approved {a : PaymentApproval} {q : PaymentQuote} {prep : PrepareResult} {r : IntentRecord}
      (hstate : r.state = PREPARED) (hquote : r.quote = some q) (hqid : q.quoteId = a.quoteId)
      (hprep : r.prepared = some prep) (hhash : prep.preparedHash = a.preparedHash) :
      RecordStep (.approve a) (.ok .unit) a.intentId r { r with approval := some a, state := APPROVED }
  /-- The payment is dispatched and its result accepted. -/
  | dispatchSettled {id : String} {prep : PrepareResult} {rc : PaymentReceipt} {r : IntentRecord}
      (hstate : r.state = APPROVED) (hprep : r.prepared = some prep)
      (hmem : .executeCall id prep.preparedPayload prep.preparedHash ∈ es) :
      RecordStep .execute (.ok (.receipt rc)) id r { r with receipt := some rc, state := SETTLED }
  /-- The payment is dispatched and the operation raised. -/
  | dispatchOpen {id : String} {prep : PrepareResult} {s : PaymentState} {e : Exc} {r : IntentRecord}
      (hstate : r.state = APPROVED) (hprep : r.prepared = some prep)
      (hs : s = EXECUTING ∨ s = RECONCILIATION_REQUIRED)
      (hmem : .executeCall id prep.preparedPayload prep.preparedHash ∈ es) :
      RecordStep .execute (.error e) id r { r with state := s }
  | receiptSettled {rc : PaymentReceipt} {q : PaymentQuote} {v : ReceiptVerifyResult} {r : IntentRecord}
      (hstate : r.state = EXECUTING ∨ r.state = RECONCILIATION_REQUIRED)
      (hamount : rc.amountSat = r.intent.amountSat) (hquote : r.quote = some q)
      (hqid : q.quoteId = rc.quoteId) (hverified : v.verified = true)
      (hmem : .verifyCall rc.intentId rc.settlementRef rc.amountSat (.ok v) ∈ es) :
      RecordStep (.receiveReceipt rc) (.ok (.receipt rc)) rc.intentId r
        { r with receipt := some rc, state := SETTLED }
  | confirmed {id : String} {r : IntentRecord} (hstate : r.state = RECONCILIATION_REQUIRED) :
      RecordStep (.confirmSettled id) (.ok .unit) id r { r with state := SETTLED }
  | reconciled {id : String} {result : ReconcileResult} {r : IntentRecord}
      (hstate : r.state = RECONCILIATION_REQUIRED) :
      RecordStep (.reconcileSettlement id) (.ok (.reconciled result)) id r
        { r with reconciliation := some result }
  | cancelled {id : String} {r : IntentRecord} (hstate : r.state.cancellable = true) :
      RecordStep (.cancel id) (.ok .unit) id r { r with state := CANCELLED }
  | rejected {id : String} {r : IntentRecord} (hstate : r.state.rejectable = true) :
      RecordStep (.reject id) (.ok .unit) id r { r with state := REJECTED }
  | swept {sel : Option (List String)} {e : Exc} {id : String} {r : IntentRecord}
      (hstate : r.state = EXECUTING) :
      RecordStep (.checkExpired sel) (.error e) id r { r with state := RECONCILIATION_REQUIRED }

/-- What a call does at one key of the tracked intents. -/
inductive RecordChange (store store' : IdempotencyStore) (op : Op) (res : Except Exc Answer) (id : String) :
    Option IntentRecord → Option IntentRecord → Prop
  | absent : RecordChange store store' op res id none none
  | created {i : PaymentIntent} {ro : Option IntentRecord} (hop : op = .submit i) (hid : i.id = id)
      (hnew : store.hasIntent i.id = false) (hstore : store' = store.addIntent i.id)
      (hexp : ¬ (i.expiresAt ≠ 0 ∧ env.now > i.expiresAt))
      (hrec : allowed cfg.recipientAllowlist i.recipient.pubkey = true) :
      RecordChange store store' op res id ro (some (PaymentOrchestrator.submittedRecord i))
  | changed {r r' : IntentRecord} (h : RecordStep env es op res id r r') :
      RecordChange store store' op res id (some r) (some r')

end

theorem RecordStep.intent_eq {env : Env} {es : List Effect} {op : Op} {res : Except Exc Answer} {id : String}
    {r r' : IntentRecord} (h : RecordStep env es op res id r r') : r'.intent = r.intent := by
  cases h <;> rfl

/-- A prepared result is held from before, or is the adapter's answer for this intent. -/
theorem RecordStep.prepared_from {env : Env} {es : List Effect} {op : Op} {res : Except Exc Answer} {id : String}
    {r r' : IntentRecord} (h : RecordStep env es op res id r r') {prep : PrepareResult}
    (hprep : r'.prepared = some prep) : r.prepared = some prep ∨ ∃ q : PaymentQuote,
      env.adapter.prepare q.receiveInstruction r.intent.amountSat r.intent.maxFeeSat = .ok prep := by
  cases h with
  | @prepared _ q _ _ _ _ _ hcall _ _ =>
      cases hprep
      exact .inr ⟨q, hcall⟩
  | _ => exact .inl hprep

/-- Nothing leads out of a dispatched intent's states. -/
theorem RecordStep.spent {env : Env} {es : List Effect} {op : Op} {res : Except Exc Answer} {id : String}
    {r r' : IntentRecord} (h : RecordStep env es op res id r r') (hs : r.state.spent = true) :
    r'.state.spent = true := by
  cases h with
  | kept | quoteOverwritten _ _ _ | reconciled _ => exact hs
  | quoted _ _ hstate | prepared hstate _ _ _ _ _ | approved hstate _ _ _ _ =>
      rw [hstate] at hs; cases hs
  | dispatchSettled _ _ _ | receiptSettled _ _ _ _ _ _ | confirmed _ | swept _ => rfl
  | dispatchOpen hstate _ _ _ => rw [hstate] at hs; cases hs
  | cancelled hstate => exact absurd hs (PaymentState.not_spent_of_cancellable hstate)
  | rejected hstate => exact absurd hs (PaymentState.not_spent_of_rejectable hstate)

/-- A cancelled or rejected intent stays so. -/
def PaymentState.withdrawn (s : PaymentState) : Bool := s ∈ [CANCELLED, REJECTED]

theorem RecordStep.withdrawn {env : Env} {es : List Effect} {op : Op} {res : Except Exc Answer} {id : String}
    {r r' : IntentRecord} (h : RecordStep env es op res id r r') (hw : r.state.withdrawn = true) :
    r'.state.withdrawn = true := by
  cases h with
  | kept | quoteOverwritten _ _ _ | reconciled _ => exact hw
  | quoted _ _ hstate | prepared hstate _ _ _ _ _ | approved hstate _ _ _ _ | dispatchSettled hstate _ _
  | dispatchOpen hstate _ _ _ | confirmed hstate | swept hstate => rw [hstate] at hw; cases hw
  | receiptSettled hstate _ _ _ _ _ => rcases hstate with hstate | hstate <;> rw [hstate] at hw <;> cases hw
  | cancelled _ | rejected _ => rfl

/-! ## `Step`, one record at a time -/

section

variable {cfg : Config} {env : Env} {o o' : PaymentOrchestrator} {op : Op} {res : Except Exc Answer}
  {es : List Effect}

theorem RecordChange.refl {store store' : IdempotencyStore} {id : String} (ro : Option IntentRecord) :
    RecordChange cfg env es store store' op res id ro ro := by
  cases ro with
  | none   => exact .absent
  | some r => exact .changed .kept

/-- An update at one key changes that record alone. -/
theorem RecordChange.of_update {store store' : IdempotencyStore} {id : String} {r : IntentRecord}
    {f : IntentRecord → IntentRecord} (hr : o.record? id = some r) (h : RecordStep env es op res id r (f r))
    (j : String) :
    RecordChange cfg env es store store' op res j (o.record? j) ((o.update id f).record? j) := by
  rw [PaymentOrchestrator.record?_update]
  by_cases hj : j = id
  · subst hj
    rw [if_pos rfl, hr]
    exact .changed h
  · rw [if_neg hj]
    exact .refl _

/-- The records after a sweep. -/
theorem PaymentOrchestrator.record?_expire (ids : List String) (o : PaymentOrchestrator) (j : String) :
    (o.expire ids).record? j = if j ∈ ids
      then (o.record? j).map (fun r => { r with state := RECONCILIATION_REQUIRED }) else o.record? j := by
  induction ids generalizing o with
  | nil => simp [PaymentOrchestrator.expire]
  | cons id ids ih =>
      rw [PaymentOrchestrator.expire, ih, PaymentOrchestrator.record?_logged,
        PaymentOrchestrator.record?_update]
      by_cases hj : j = id
      · subst hj; cases o.record? j <;> simp
      · simp [hj]

/-- **What a call does to the tracked records.** -/
theorem Step.change (h : Step cfg env o op res o' es) (j : String) :
    RecordChange cfg env es o.store o'.store op res j (o.record? j) (o'.record? j) := by
  cases h with
  | refused _ hintents _ _ =>
      have : o'.record? j = o.record? j := congrArg (·.get? j) hintents
      rw [this]; exact .refl _
  | seen _ => exact .refl _
  | @submitted i hnew hexp hrec _ =>
      rw [PaymentOrchestrator.record?_logged, PaymentOrchestrator.record?_track]
      by_cases hj : j = i.id
      · rw [if_pos hj]; exact .created rfl hj.symm hnew rfl hexp hrec
      · rw [if_neg hj]; exact .refl _
  | @submittedUnsaved i hnew hexp hrec _ =>
      rw [PaymentOrchestrator.record?_track]
      by_cases hj : j = i.id
      · rw [if_pos hj]; exact .created rfl hj.symm hnew rfl hexp hrec
      · rw [if_neg hj]; exact .refl _
  | quoteOverwritten hr hfee hexp hstate => exact .of_update hr (.quoteOverwritten hfee hexp hstate) j
  | quoted hr hfee hexp hstate => exact .of_update hr (.quoted hfee hexp hstate) j
  | prepared hfirst hquote hexp _ hcall hfee _ =>
      obtain ⟨hr, hstate⟩ := PaymentOrchestrator.record?_of_firstIn hfirst
      exact .of_update hr (.prepared hstate hquote hexp hcall hfee List.mem_cons_self) j
  | approved hr hquote hqid hprep hhash _ hstate _ =>
      exact .of_update (o := o.withStore _) hr (.approved hstate hquote hqid hprep hhash) j
  | approvedUnsaved _ _ _ => exact .refl _
  | dispatchAmbiguous hfirst hprep _ _ _ _ _ _ =>
      obtain ⟨hr, hstate⟩ := PaymentOrchestrator.record?_of_firstIn hfirst
      exact .of_update hr (.dispatchOpen hstate hprep (.inr rfl) (by simp)) j
  | dispatchStranded hfirst hprep _ =>
      obtain ⟨hr, hstate⟩ := PaymentOrchestrator.record?_of_firstIn hfirst
      exact .of_update (o := o.withStore _) hr (.dispatchOpen hstate hprep (.inl rfl) (by simp)) j
  | dispatchSettled hfirst hprep _ _ _ =>
      obtain ⟨hr, hstate⟩ := PaymentOrchestrator.record?_of_firstIn hfirst
      exact .of_update (o := o.withStore _) hr (.dispatchSettled hstate hprep (by simp)) j
  | receiptSettled hr hstate _ hamount hquote hqid _ hverified _ =>
      exact .of_update (o := o.withStore _) hr
        (.receiptSettled hstate hamount hquote hqid hverified List.mem_cons_self) j
  | receiptUnsaved _ _ _ _ => exact .refl _
  | confirmed hr hstate _ => exact .of_update (o := o.withStore _) hr (.confirmed hstate) j
  | confirmedUnsaved _ _ _ => exact .refl _
  | reconciled hr hstate _ => exact .of_update hr (.reconciled hstate) j
  | cancelled hr hstate => exact .of_update hr (.cancelled hstate) j
  | rejected hr hstate => exact .of_update hr (.rejected hstate) j
  | noneExpired => exact .refl _
  | @swept sel ids m _ _ hexp =>
      rw [PaymentOrchestrator.record?_expire]
      by_cases hj : j ∈ ids
      · obtain ⟨r, hr, he⟩ := hexp j hj
        rw [if_pos hj, hr]
        exact .changed (.swept (of_decide_eq_true he).1)
      · rw [if_neg hj]; exact .refl _

/-! ## The store, one binding at a time -/

/-- What a call does to the store. -/
inductive StoreChange (op : Op) (s : IdempotencyStore) : IdempotencyStore → Prop
  | same : StoreChange op s s
  | intent {i : PaymentIntent} (hop : op = .submit i) (hnew : s.hasIntent i.id = false) :
      StoreChange op s (s.addIntent i.id)
  | approval {a : PaymentApproval} (hop : op = .approve a) :
      StoreChange op s (s.addApproval a.intentId a.quoteId a.preparedHash)
  | receipt {id ref : String} (hop : op = .execute ∨ (∃ rc : PaymentReceipt, op = .receiveReceipt rc ∧
      rc.intentId = id ∧ rc.settlementRef = ref) ∨ op = .confirmSettled id ∧ ref = s!"manual:{id}") :
      StoreChange op s (s.addReceipt id ref)

@[simp] theorem PaymentOrchestrator.store_expire (ids : List String) (o : PaymentOrchestrator) :
    (o.expire ids).store = o.store := by
  induction ids generalizing o with
  | nil => rfl
  | cons id ids ih => exact ih _

/-- **What a call does to the store.** -/
theorem Step.store_change (h : Step cfg env o op res o' es) : StoreChange op o.store o'.store := by
  cases h with
  | refused hstore _ _ _ => rw [hstore]; exact .same
  | seen _ => exact .same
  | submitted hnew _ _ _ => exact .intent rfl hnew
  | submittedUnsaved hnew _ _ _ => exact .intent rfl hnew
  | quoteOverwritten _ _ _ _ => exact .same
  | quoted _ _ _ _ => exact .same
  | prepared _ _ _ _ _ _ _ => exact .same
  | approved _ _ _ _ _ _ _ _ => exact .approval rfl
  | approvedUnsaved _ _ _ => exact .approval rfl
  | dispatchAmbiguous _ _ _ _ _ _ _ _ => exact .same
  | dispatchStranded _ _ hwhy =>
      rcases hwhy with ⟨_, _, _, rfl⟩ | ⟨_, _, _, _, rfl⟩ | ⟨_, _, _, _, _, rfl⟩
      · exact .same
      · exact .same
      · exact .receipt (.inl rfl)
  | dispatchSettled _ _ _ _ _ => exact .receipt (.inl rfl)
  | receiptSettled _ _ _ _ _ _ _ _ _ => exact .receipt (.inr (.inl ⟨_, rfl, rfl, rfl⟩))
  | receiptUnsaved _ _ _ _ => exact .receipt (.inr (.inl ⟨_, rfl, rfl, rfl⟩))
  | confirmed _ _ _ => exact .receipt (.inr (.inr ⟨rfl, rfl⟩))
  | confirmedUnsaved _ _ _ => exact .receipt (.inr (.inr ⟨rfl, rfl⟩))
  | reconciled _ _ _ => exact .same
  | cancelled _ _ => exact .same
  | rejected _ _ => exact .same
  | noneExpired => exact .same
  | swept _ _ _ => rw [PaymentOrchestrator.store_expire]; exact .same

/-! ## The dispatch -/

theorem dispatches_append (es fs : List Effect) : dispatches (es ++ fs) = dispatches es ++ dispatches fs :=
  List.filterMap_append

theorem dispatches_cons (w : Effect) (es : List Effect) : dispatches (w :: es) = dispatches [w] ++ dispatches es :=
  dispatches_append [w] es

theorem dispatches_mem {id hash : String} {payload : Bytes} (hmem : .executeCall id payload hash ∈ es) :
    (id, payload, hash) ∈ dispatches es :=
  List.mem_filterMap.mpr ⟨_, hmem, rfl⟩

theorem dispatches_quiet (hquiet : ∀ w ∈ es, w.quiet = true) : dispatches es = [] := by
  refine List.filterMap_eq_nil_iff.mpr fun w hw => ?_
  have := hquiet w hw
  cases w <;> first | rfl | cases this

theorem dispatches_audited (entry : AuditEntry) : dispatches (cfg.audited entry) = [] :=
  dispatches_quiet fun _ hw => quiet_audited hw

theorem dispatches_saved (s : IdempotencyStore) : dispatches (cfg.saved s) = [] := by
  unfold Config.saved
  split <;> rfl

theorem dispatches_expireEffects (seq : Nat) (ids : List String) :
    dispatches (PaymentOrchestrator.expireEffects cfg seq ids) = [] := by
  induction ids generalizing seq with
  | nil => rfl
  | cons id ids ih => rw [PaymentOrchestrator.expireEffects, dispatches_append, dispatches_audited, ih]; rfl

/-- **What a call dispatches.** Nothing, or one payment: the first approved intent's own prepared payload. -/
theorem Step.dispatches (h : Step cfg env o op res o' es) : dispatches es = [] ∨
    op = .execute ∧ ∃ id r prep, o.firstIn APPROVED = some (id, r) ∧ r.prepared = some prep ∧
      dispatches es = [(id, prep.preparedPayload, prep.preparedHash)] := by
  cases h with
  | refused _ _ hquiet _ => exact .inl (dispatches_quiet hquiet)
  | dispatchAmbiguous hfirst hprep _ _ _ _ _ _ =>
      refine .inr ⟨rfl, _, _, _, hfirst, hprep, ?_⟩
      rw [dispatches_append, dispatches_audited, dispatches_cons, dispatches_audited]
      rfl
  | dispatchStranded hfirst hprep _ =>
      refine .inr ⟨rfl, _, _, _, hfirst, hprep, ?_⟩
      rw [dispatches_append, dispatches_audited]
      rfl
  | dispatchSettled hfirst hprep _ _ _ =>
      refine .inr ⟨rfl, _, _, _, hfirst, hprep, ?_⟩
      rw [dispatches_append, dispatches_audited, dispatches_cons, dispatches_append, dispatches_saved,
        dispatches_audited]
      rfl
  | swept _ _ _ => exact .inl (dispatches_expireEffects _ _)
  | seen _ | submittedUnsaved _ _ _ _ | quoteOverwritten _ _ _ _ | approvedUnsaved _ _ _
  | receiptUnsaved _ _ _ _ | confirmedUnsaved _ _ _ | noneExpired => exact .inl rfl
  | quoted _ _ _ _ | cancelled _ _ | rejected _ _ => exact .inl (dispatches_audited _)
  | submitted _ _ _ _ | approved _ _ _ _ _ _ _ _ | confirmed _ _ _ =>
      left
      rw [dispatches_append, dispatches_saved, dispatches_audited]
      rfl
  | prepared _ _ _ _ _ _ _ | reconciled _ _ _ =>
      left
      rw [dispatches_cons, dispatches_audited]
      rfl
  | receiptSettled _ _ _ _ _ _ _ _ _ =>
      left
      rw [dispatches_cons, dispatches_append, dispatches_saved, dispatches_audited]
      rfl

/-- A dispatched intent was the first approved one, and the payload its own. -/
theorem Step.of_dispatch (h : Step cfg env o op res o' es) {id x : String} {p : Bytes}
    (hmem : (id, p, x) ∈ HermesPayments.dispatches es) :
    op = .execute ∧ ∃ r prep, o.firstIn APPROVED = some (id, r) ∧ r.prepared = some prep ∧
      p = prep.preparedPayload ∧ x = prep.preparedHash := by
  rcases h.dispatches with hnone | ⟨hop, id', r, prep, hfirst, hprep, hone⟩
  · rw [hnone] at hmem; cases hmem
  · rw [hone, List.mem_singleton] at hmem
    obtain ⟨rfl, rfl, rfl⟩ : id = id' ∧ p = prep.preparedPayload ∧ x = prep.preparedHash := by
      simpa using hmem
    exact ⟨hop, r, prep, hfirst, hprep, rfl, rfl⟩

/-- After a dispatch the intent is settled, in reconciliation, or stranded in `EXECUTING`. -/
theorem Step.dispatch_spent (h : Step cfg env o op res o' es) {id x : String} {p : Bytes}
    (hmem : (id, p, x) ∈ HermesPayments.dispatches es) :
    ∃ r, o'.record? id = some r ∧ r.state.spent = true := by
  obtain ⟨rfl, r, prep, hfirst, _⟩ := h.of_dispatch hmem
  have hr := (PaymentOrchestrator.record?_of_firstIn hfirst).1
  cases h with
  | refused _ _ hquiet _ => rw [dispatches_quiet hquiet] at hmem; cases hmem
  | dispatchAmbiguous hfirst' _ _ _ _ _ _ _ =>
      obtain ⟨rfl, rfl⟩ := Prod.mk.inj (Option.some.inj (hfirst.symm.trans hfirst'))
      refine ⟨{ r with state := RECONCILIATION_REQUIRED }, ?_, rfl⟩
      simp [PaymentOrchestrator.record?_update, hr]
  | dispatchStranded hfirst' _ _ =>
      obtain ⟨rfl, rfl⟩ := Prod.mk.inj (Option.some.inj (hfirst.symm.trans hfirst'))
      refine ⟨{ r with state := EXECUTING }, ?_, rfl⟩
      simp [PaymentOrchestrator.record?_update, hr]
  | dispatchSettled hfirst' _ _ hfee _ =>
      obtain ⟨rfl, rfl⟩ := Prod.mk.inj (Option.some.inj (hfirst.symm.trans hfirst'))
      refine ⟨{ r with receipt := some (builtReceipt cfg env r _ hfee), state := SETTLED }, ?_, rfl⟩
      simp [PaymentOrchestrator.record?_update, hr]

/-! ## The save -/

/-- The content a save writes. -/
def Effect.save? : Effect → Option IdempotencyStore
  | .storeSave content => some content
  | _ => none

/-- The contents of the store file written among the effects, in order. -/
def saves (es : List Effect) : List IdempotencyStore := es.filterMap Effect.save?

theorem saves_append (es fs : List Effect) : saves (es ++ fs) = saves es ++ saves fs := List.filterMap_append

theorem saves_quiet (hquiet : ∀ w ∈ es, w.quiet = true) : saves es = [] := by
  refine List.filterMap_eq_nil_iff.mpr fun w hw => ?_
  have := hquiet w hw
  cases w <;> first | rfl | cases this

theorem saves_audited (entry : AuditEntry) : saves (cfg.audited entry) = [] :=
  saves_quiet fun _ hw => quiet_audited hw

theorem saves_saved (hpath : cfg.storePath.isSome = true) (s : IdempotencyStore) :
    saves (cfg.saved s) = [s] := by
  rw [Config.saved, if_pos hpath]
  rfl

theorem saves_expireEffects (seq : Nat) (ids : List String) :
    saves (PaymentOrchestrator.expireEffects cfg seq ids) = [] := by
  induction ids generalizing seq with
  | nil => rfl
  | cons id ids ih => rw [PaymentOrchestrator.expireEffects, saves_append, saves_audited, ih]; rfl

/-- **What a call saves**: nothing, with the store as it was if saving works, or the store it leaves. -/
theorem Step.saves_or (h : Step cfg env o op res o' es) (hpath : cfg.storePath.isSome = true) :
    saves es = [] ∧ (env.saves cfg → o'.store = o.store) ∨ saves es = [o'.store] := by
  have hsaved := saves_saved hpath
  cases h with
  | refused hstore _ hquiet _ => exact .inl ⟨saves_quiet hquiet, fun _ => hstore⟩
  | seen _ | quoteOverwritten _ _ _ _ | noneExpired => exact .inl ⟨rfl, fun _ => rfl⟩
  | quoted _ _ _ _ | cancelled _ _ | rejected _ _ => exact .inl ⟨saves_audited _, fun _ => rfl⟩
  | submitted _ _ _ _ | approved _ _ _ _ _ _ _ _ | confirmed _ _ _ =>
      right
      rw [saves_append, hsaved, saves_audited]
      rfl
  | submittedUnsaved _ _ _ hsave' | approvedUnsaved _ _ hsave' | receiptUnsaved _ _ _ hsave'
  | confirmedUnsaved _ _ hsave' => exact .inl ⟨rfl, fun hsave => absurd hsave hsave'⟩
  | prepared _ _ _ _ _ _ _ | reconciled _ _ _ => exact .inl ⟨saves_audited _, fun _ => rfl⟩
  | dispatchAmbiguous _ _ _ _ _ _ _ _ =>
      left
      rw [saves_append, saves_audited]
      exact ⟨saves_audited _, fun _ => rfl⟩
  | dispatchStranded _ _ hwhy =>
      left
      rw [saves_append, saves_audited]
      refine ⟨rfl, fun hsave => ?_⟩
      rcases hwhy with ⟨_, _, _, rfl⟩ | ⟨_, _, _, _, rfl⟩ | ⟨_, _, _, hsave', _⟩
      · rfl
      · rfl
      · exact absurd hsave hsave'
  | dispatchSettled _ _ _ _ _ =>
      right
      rw [saves_append, saves_audited]
      show HermesPayments.saves (cfg.saved _ ++ _) = _
      rw [saves_append, hsaved, saves_audited]
      rfl
  | receiptSettled _ _ _ _ _ _ _ _ _ =>
      right
      show HermesPayments.saves (cfg.saved _ ++ _) = _
      rw [saves_append, hsaved, saves_audited]
      rfl
  | swept _ _ _ => exact .inl ⟨saves_expireEffects _ _, fun _ => PaymentOrchestrator.store_expire _ _⟩

/-- … and when saving works: nothing, with the store as it was, or the store it leaves. -/
theorem Step.saves (h : Step cfg env o op res o' es) (hpath : cfg.storePath.isSome = true)
    (hsave : env.saves cfg) :
    saves es = [] ∧ o'.store = o.store ∨ saves es = [o'.store] :=
  (h.saves_or hpath).imp_left fun ⟨hnone, hsame⟩ => ⟨hnone, hsame hsave⟩

end

/-! ## When `approve` and `receive_receipt` return -/

/-- Every check of `approve` passes. -/
def Approvable (o : PaymentOrchestrator) (intentId quoteId preparedHash : String) : Prop :=
  ∃ r q prep, o.record? intentId = some r ∧ r.quote = some q ∧ q.quoteId = quoteId ∧ r.prepared = some prep ∧
    prep.preparedHash = preparedHash ∧ o.store.hasApproval intentId quoteId preparedHash = false ∧
    r.state = PREPARED

/-- Every gate of `receive_receipt` lets the receipt through. -/
def Settleable (o : PaymentOrchestrator) (adapter : SettlementAdapter) (rc : PaymentReceipt) : Prop :=
  ∃ r q v, o.record? rc.intentId = some r ∧ (r.state = EXECUTING ∨ r.state = RECONCILIATION_REQUIRED) ∧
    o.store.hasReceipt rc.intentId = false ∧ rc.amountSat = r.intent.amountSat ∧ r.quote = some q ∧
    q.quoteId = rc.quoteId ∧ adapter.verifySenderSettlement rc.settlementRef rc.amountSat = .ok v ∧
    v.verified = true

theorem Step.approve_ok {cfg : Config} {env : Env} {o o' : PaymentOrchestrator} {a : PaymentApproval}
    {ans : Answer} {es : List Effect} (h : Step cfg env o (.approve a) (.ok ans) o' es) :
    Approvable o a.intentId a.quoteId a.preparedHash := by
  cases h with
  | approved hr hquote hqid hprep hhash hnew hstate _ =>
      exact ⟨_, _, _, hr, hquote, hqid, hprep, hhash, hnew, hstate⟩

theorem Step.receiveReceipt_ok {cfg : Config} {env : Env} {o o' : PaymentOrchestrator} {rc : PaymentReceipt}
    {ans : Answer} {es : List Effect} (h : Step cfg env o (.receiveReceipt rc) (.ok ans) o' es) :
    Settleable o env.adapter rc := by
  cases h with
  | receiptSettled hr hstate hnew hamount hquote hqid hcall hverified _ =>
      exact ⟨_, _, _, hr, hstate, hnew, hamount, hquote, hqid, hcall, hverified⟩

/-- A receipt that returns was saved. -/
theorem Step.receiveReceipt_saved {cfg : Config} {env : Env} {o o' : PaymentOrchestrator} {rc : PaymentReceipt}
    {ans : Answer} {es : List Effect} (h : Step cfg env o (.receiveReceipt rc) (.ok ans) o' es) : env.saves cfg := by
  cases h with
  | receiptSettled _ _ _ _ _ _ _ _ hsave => exact hsave

/-- A receipt that passes every gate settles its intent. -/
theorem receiveReceipt_settles {cfg : Config} {env : Env} {o : PaymentOrchestrator} {rc : PaymentReceipt}
    (h : Settleable o env.adapter rc) (hsave : env.saves cfg) : ∃ o' es r,
      (call cfg env (.receiveReceipt rc)).run o = ⟨.ok (.receipt rc), o', es⟩ ∧
        o.record? rc.intentId = some r ∧
        o'.record? rc.intentId = some { r with receipt := some rc, state := SETTLED } := by
  obtain ⟨r, q, v, hr, hstate, hnew, hamount, hquote, hqid, hcall, hverified⟩ := h
  refine ⟨_, _, r, run_receiveReceipt_ok hr hstate hnew hamount hquote hqid hcall hverified hsave, hr, ?_⟩
  rw [PaymentOrchestrator.record?_logged, PaymentOrchestrator.record?_update, if_pos rfl]
  show Option.map _ (o.record? rc.intentId) = _
  rw [hr]
  rfl

end HermesPayments
