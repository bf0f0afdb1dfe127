import HermesPayments.Policy.Runs

/-!
# `HermesPayments.Policy.Correctness.Consistency` — the store and the records agree

Over an empty store and with every save succeeding, the three collections of the store say exactly what the
records say: which intents are tracked, which approvals were consumed, which intents are settled
(`store_agrees_with_records`). The invariant is split as the state is: `Backed` speaks about one record, and
`Agrees` about the orchestrator.
-/

namespace HermesPayments

open Lib PaymentState

/-- The runs over an empty store whose saves all succeed. -/
abbrev SavedRun (cfg : Config) (h : History) (o : PaymentOrchestrator) : Prop :=
  Run FreshEmpty (fun o c o' => Calls cfg o c o' ∧ c.env.saves cfg) h o

/-! ## The invariant -/

/-- An approval has been accepted and the intent was not withdrawn. -/
def PaymentState.approvedOrLater (s : PaymentState) : Bool :=
  s ∈ [APPROVED, EXECUTING, RECONCILIATION_REQUIRED, SETTLED]

/-- What the record tracked under `id` has passed, given the store. -/
structure IntentRecord.Backed (cfg : Config) (store : IdempotencyStore) (id : String) (r : IntentRecord) : Prop where
  intent_id : r.intent.id = id
  recipient : allowed cfg.recipientAllowlist r.intent.recipient.pubkey = true
  quote     : ∀ q, r.quote = some q → q.intentId = id ∧ q.feeSat ≤ r.intent.maxFeeSat
  prepared  : ∀ prep, r.prepared = some prep →
    prep.feeSat ≤ r.intent.maxFeeSat ∧ allowed cfg.railAllowlist prep.rail = true
  approval  : r.state.approvedOrLater = true → ∃ prep a, r.prepared = some prep ∧ r.approval = some a ∧
    a.intentId = id ∧ a.preparedHash = prep.preparedHash ∧
    store.hasApproval a.intentId a.quoteId a.preparedHash = true

/-- The store knows the tracked intents, backs each record, and holds a receipt for the settled ones. -/
structure PaymentOrchestrator.Agrees (cfg : Config) (o : PaymentOrchestrator) : Prop where
  intents  : ∀ id, id ∈ o.store.intents ↔ id ∈ o.intents.keys
  records  : ∀ id r, o.record? id = some r → r.Backed cfg o.store id
  receipts : ∀ id, o.store.hasReceipt id = true ↔ o.stateOf id = SETTLED

/-! ## What one call does to the collections -/

section

variable {cfg : Config} {env : Env} {o o' : PaymentOrchestrator} {op : Op} {res : Except Exc Answer}
  {es : List Effect} {c : Call} {id : String}

/-- The store never forgets an approval. -/
theorem StoreChange.hasApproval {s s' : IdempotencyStore} (h : StoreChange op s s') {i q x : String}
    (hs : s.hasApproval i q x = true) : s'.hasApproval i q x = true := by
  cases h with
  | same | intent _ _ | receipt _ => exact hs
  | approval _ =>
      unfold IdempotencyStore.hasApproval at hs ⊢
      rw [IdempotencyStore.approvals_addApproval]
      exact decide_eq_true (Finset.mem_insert_of_mem (of_decide_eq_true hs))

/-- An accepted approval is in the store. -/
theorem Step.approved_recorded {a : PaymentApproval} (h : Step cfg env o (.approve a) (.ok .unit) o' es) :
    o'.store.hasApproval a.intentId a.quoteId a.preparedHash = true := by
  cases h with
  | approved _ _ _ _ _ _ _ _ => simp [IdempotencyStore.hasApproval]

/-- An accepted preview is on an allowed rail. -/
theorem Step.prepared_allowed {prep : PrepareResult} (h : Step cfg env o .prepare (.ok (.prepared prep)) o' es) :
    allowed cfg.railAllowlist prep.rail = true := by
  cases h with
  | prepared _ _ _ _ _ _ hrail => exact hrail

/-- A call keeps what the record it changes has passed. -/
theorem RecordStep.backed {r r' : IntentRecord} (hrec : RecordStep env es op res id r r')
    (hstep : Step cfg env o op res o' es) (h : r.Backed cfg o.store id) : r'.Backed cfg o'.store id := by
  obtain ⟨hid, hrecipient, hquote, hprepared, happroval⟩ := h
  -- the approval of a record that keeps its prepared result and its approval
  have hkept {s : PaymentState} (hs : r.state.approvedOrLater = true) : s.approvedOrLater = true →
      ∃ prep a, r.prepared = some prep ∧ r.approval = some a ∧ a.intentId = id ∧
        a.preparedHash = prep.preparedHash ∧ o'.store.hasApproval a.intentId a.quoteId a.preparedHash = true := by
    intro _
    obtain ⟨prep, a, hp, ha, hai, hax, hin⟩ := happroval hs
    exact ⟨prep, a, hp, ha, hai, hax, hstep.store_change.hasApproval hin⟩
  cases hrec with
  | kept => exact ⟨hid, hrecipient, hquote, hprepared, fun hs => hkept hs hs⟩
  | quoteOverwritten hfee _ _ =>
      refine ⟨hid, hrecipient, ?_, hprepared, fun hs => hkept hs hs⟩
      rintro q ⟨⟩
      exact ⟨rfl, hfee⟩
  | quoted hfee _ _ =>
      refine ⟨hid, hrecipient, ?_, hprepared, nofun⟩
      rintro q ⟨⟩
      exact ⟨rfl, hfee⟩
  | prepared _ _ _ _ hfee _ =>
      refine ⟨hid, hrecipient, hquote, ?_, nofun⟩
      rintro prep ⟨⟩
      exact ⟨hfee, hstep.prepared_allowed⟩
  | approved _ _ _ hprep hhash =>
      refine ⟨hid, hrecipient, hquote, hprepared, ?_⟩
      intro _
      exact ⟨_, _, hprep, rfl, rfl, hhash.symm, hstep.approved_recorded⟩
  | dispatchSettled hstate _ _ | dispatchOpen hstate _ _ _ | confirmed hstate | swept hstate =>
      exact ⟨hid, hrecipient, hquote, hprepared, hkept (by rw [hstate]; rfl)⟩
  | receiptSettled hstate _ _ _ _ _ =>
      refine ⟨hid, hrecipient, hquote, hprepared, hkept ?_⟩
      rcases hstate with hstate | hstate <;> rw [hstate] <;> rfl
  | reconciled _ => exact ⟨hid, hrecipient, hquote, hprepared, fun hs => hkept hs hs⟩
  | cancelled _ | rejected _ => exact ⟨hid, hrecipient, hquote, hprepared, nofun⟩

/-! ## Receipts -/

theorem IdempotencyStore.hasReceipt_addReceipt (s : IdempotencyStore) (k ref id : String) :
    (s.addReceipt k ref).hasReceipt id = (decide (id = k) || s.hasReceipt id) := by
  unfold IdempotencyStore.hasReceipt
  rw [IdempotencyStore.receipts_addReceipt, Dict.get?_set]
  by_cases h : id = k <;> simp [h]

/-- An update that neither settles its record nor binds a receipt. -/
theorem PaymentOrchestrator.receipts_update {k : String} {r : IntentRecord} {f : IntentRecord → IntentRecord}
    (hr : o.record? k = some r) (hsettled : (f r).state = SETTLED ↔ r.state = SETTLED)
    (h : ∀ id, o.store.hasReceipt id = true ↔ o.stateOf id = SETTLED) (id : String) :
    o.store.hasReceipt id = true ↔ (o.update k f).stateOf id = SETTLED := by
  rw [h id]
  unfold PaymentOrchestrator.stateOf
  rw [PaymentOrchestrator.record?_update]
  by_cases hk : id = k
  · subst hk
    rw [if_pos rfl, hr]
    exact hsettled.symm
  · rw [if_neg hk]

/-- An update that settles the record a receipt is bound for. -/
theorem PaymentOrchestrator.receipts_settle {k ref : String} {r : IntentRecord} {f : IntentRecord → IntentRecord}
    (hr : o.record? k = some r) (hsettled : (f r).state = SETTLED)
    (h : ∀ id, o.store.hasReceipt id = true ↔ o.stateOf id = SETTLED) (id : String) :
    (o.store.addReceipt k ref).hasReceipt id = true ↔ (o.update k f).stateOf id = SETTLED := by
  rw [IdempotencyStore.hasReceipt_addReceipt]
  unfold PaymentOrchestrator.stateOf
  rw [PaymentOrchestrator.record?_update]
  by_cases hk : id = k
  · subst hk
    simp [hr, hsettled]
  · rw [if_neg hk, decide_eq_false hk, Bool.false_or]
    exact h id

/-- The sweep settles nothing. -/
theorem PaymentOrchestrator.stateOf_expire {ids : List String}
    (hids : ∀ id ∈ ids, ∃ r, o.record? id = some r ∧ r.state = EXECUTING) (id : String) :
    (o.expire ids).stateOf id = if id ∈ ids then RECONCILIATION_REQUIRED else o.stateOf id := by
  unfold PaymentOrchestrator.stateOf
  rw [PaymentOrchestrator.record?_expire]
  by_cases hmem : id ∈ ids
  · obtain ⟨r, hr, _⟩ := hids id hmem
    rw [if_pos hmem, if_pos hmem, hr]
    rfl
  · rw [if_neg hmem, if_neg hmem]

/-- A call that saves what it records binds a receipt exactly when it settles. -/
theorem Step.receipts (hstep : Step cfg env o op res o' es) (hsave : env.saves cfg) (ho : o.Consistent)
    (h : ∀ id, o.store.hasReceipt id = true ↔ o.stateOf id = SETTLED) (id : String) :
    o'.store.hasReceipt id = true ↔ o'.stateOf id = SETTLED := by
  cases hstep with
  | refused hstore hintents _ _ =>
      have hstate : o'.stateOf id = o.stateOf id := by
        unfold PaymentOrchestrator.stateOf PaymentOrchestrator.record?
        rw [hintents]
      rw [hstore, hstate]
      exact h id
  | seen _ | approvedUnsaved _ _ _ | noneExpired => exact h id
  | @submitted i hnew _ _ _ =>
      show o.store.hasReceipt id = true ↔ _
      rw [h id]
      unfold PaymentOrchestrator.stateOf
      rw [PaymentOrchestrator.record?_logged, PaymentOrchestrator.record?_track]
      by_cases hi : id = i.id
      · -- the id was not tracked, so it was not settled
        have hnone : o.record? id = none := by
          cases hr : o.record? id with
          | none => rfl
          | some r => rw [← hi, ho.known id r hr] at hnew; cases hnew
        rw [if_pos hi, hnone]
        constructor <;> nofun
      · rw [if_neg hi]
  | submittedUnsaved _ _ _ hsave' | confirmedUnsaved _ _ hsave' | receiptUnsaved _ _ _ hsave' =>
      exact absurd hsave hsave'
  | quoteOverwritten hr _ _ _ => exact PaymentOrchestrator.receipts_update hr Iff.rfl h id
  | quoted hr _ _ hstate =>
      exact PaymentOrchestrator.receipts_update hr (by rw [hstate]; constructor <;> nofun) h id
  | prepared hfirst _ _ _ _ _ _ =>
      obtain ⟨hr, hstate⟩ := PaymentOrchestrator.record?_of_firstIn hfirst
      exact PaymentOrchestrator.receipts_update hr (by rw [hstate]; constructor <;> nofun) h id
  | approved hr _ _ _ _ _ hstate _ =>
      exact PaymentOrchestrator.receipts_update hr (by rw [hstate]; constructor <;> nofun) h id
  | dispatchAmbiguous hfirst _ _ _ _ _ _ _ =>
      obtain ⟨hr, hstate⟩ := PaymentOrchestrator.record?_of_firstIn hfirst
      exact PaymentOrchestrator.receipts_update hr (by rw [hstate]; constructor <;> nofun) h id
  | dispatchStranded hfirst _ hwhy =>
      obtain ⟨hr, hstate⟩ := PaymentOrchestrator.record?_of_firstIn hfirst
      rcases hwhy with ⟨_, _, _, rfl⟩ | ⟨_, _, _, _, rfl⟩ | ⟨_, _, _, hsave', _⟩
      · exact PaymentOrchestrator.receipts_update hr (by rw [hstate]; constructor <;> nofun) h id
      · exact PaymentOrchestrator.receipts_update hr (by rw [hstate]; constructor <;> nofun) h id
      · exact absurd hsave hsave'
  | dispatchSettled hfirst _ _ _ _ =>
      have hr := (PaymentOrchestrator.record?_of_firstIn hfirst).1
      rw [(ho.records _ _ hr).intent_id]
      exact PaymentOrchestrator.receipts_settle hr rfl h id
  | receiptSettled hr _ _ _ _ _ _ _ _ => exact PaymentOrchestrator.receipts_settle hr rfl h id
  | confirmed hr _ _ => exact PaymentOrchestrator.receipts_settle hr rfl h id
  | reconciled hr _ _ => exact PaymentOrchestrator.receipts_update hr Iff.rfl h id
  | cancelled hr hstate =>
      refine PaymentOrchestrator.receipts_update hr ?_ h id
      constructor
      · nofun
      · intro hs; rw [hs] at hstate; cases hstate
  | rejected hr hstate =>
      refine PaymentOrchestrator.receipts_update hr ?_ h id
      constructor
      · nofun
      · intro hs; rw [hs] at hstate; cases hstate
  | @swept _ ids _ _ _ hexp =>
      have hids : ∀ id ∈ ids, ∃ r, o.record? id = some r ∧ r.state = EXECUTING := fun id hid => by
        obtain ⟨r, hr, he⟩ := hexp id hid
        exact ⟨r, hr, (of_decide_eq_true he).1⟩
      rw [PaymentOrchestrator.store_expire, PaymentOrchestrator.stateOf_expire hids, h id]
      by_cases hmem : id ∈ ids
      · obtain ⟨r, hr, hstate⟩ := hids id hmem
        rw [if_pos hmem, PaymentOrchestrator.stateOf_of_record? hr, hstate]
        constructor <;> nofun
      · rw [if_neg hmem]

/-! ## The theorem -/

theorem FreshEmpty.agrees (h : FreshEmpty o) : o.Agrees cfg := by
  obtain ⟨seq, rfl⟩ := h
  exact ⟨fun _ => ⟨nofun, nofun⟩, fun _ _ hr => (nomatch hr), fun _ => ⟨nofun, nofun⟩⟩

theorem PaymentOrchestrator.keys_expire (ids : List String) (o : PaymentOrchestrator) :
    (o.expire ids).intents.keys = o.intents.keys := by
  induction ids generalizing o with
  | nil => rfl
  | cons id ids ih =>
      rw [PaymentOrchestrator.expire, ih]
      exact Dict.keys_modify _ _ _

/-- The ids in the store change with the ids tracked. -/
theorem Step.intents (hstep : Step cfg env o op res o' es)
    (h : ∀ id, id ∈ o.store.intents ↔ id ∈ o.intents.keys) (id : String) :
    id ∈ o'.store.intents ↔ id ∈ o'.intents.keys := by
  have hkeep (hkeys : o'.intents.keys = o.intents.keys) (hstore : o'.store.intents = o.store.intents) :
      id ∈ o'.store.intents ↔ id ∈ o'.intents.keys := by
    rw [hkeys, hstore]
    exact h id
  -- `submit` adds its id to both
  have htrack (i : PaymentIntent) : id ∈ (o.track i).store.intents ↔ id ∈ (o.track i).intents.keys := by
    show id ∈ insert i.id o.store.intents ↔ id ∈ (o.intents.set i.id _).keys
    rw [Finset.mem_insert, Dict.mem_keys_set, h id]
  cases hstep with
  | refused hstore hintents _ _ => exact hkeep (congrArg Dict.keys hintents) (congrArg _ hstore)
  | submitted _ _ _ _ | submittedUnsaved _ _ _ _ => exact htrack _
  | seen _ | approvedUnsaved _ _ _ | receiptUnsaved _ _ _ _ | confirmedUnsaved _ _ _ | noneExpired =>
      exact hkeep rfl rfl
  | dispatchStranded _ _ hwhy =>
      refine hkeep (Dict.keys_modify _ _ _) ?_
      rcases hwhy with ⟨_, _, _, rfl⟩ | ⟨_, _, _, _, rfl⟩ | ⟨_, _, _, _, _, rfl⟩ <;> rfl
  | swept _ _ _ =>
      exact hkeep (PaymentOrchestrator.keys_expire _ _) (congrArg _ (PaymentOrchestrator.store_expire _ _))
  | quoteOverwritten _ _ _ _ | quoted _ _ _ _ | prepared _ _ _ _ _ _ _ | approved _ _ _ _ _ _ _ _
  | dispatchAmbiguous _ _ _ _ _ _ _ _ | dispatchSettled _ _ _ _ _ | receiptSettled _ _ _ _ _ _ _ _ _
  | confirmed _ _ _ | reconciled _ _ _ | cancelled _ _ | rejected _ _ =>
      exact hkeep (Dict.keys_modify _ _ _) rfl

theorem Calls.agrees (hcall : Calls cfg o c o') (hsave : c.env.saves cfg) (ho : o.Consistent) (h : o.Agrees cfg) :
    o'.Agrees cfg := by
  have hstep := hcall.step
  refine ⟨hstep.intents h.intents, fun id r hr => ?_, hstep.receipts hsave ho h.receipts⟩
  have hchange := hstep.change id
  rw [hr] at hchange
  generalize hro : o.record? id = ro at hchange
  cases hchange with
  | created _ hid _ _ _ hallowed =>
      subst hid
      exact ⟨rfl, hallowed, nofun, nofun, nofun⟩
  | changed hrec => exact hrec.backed hstep (h.records id _ hro)

/-- **Store and records agree in every state reached.** -/
theorem store_agrees_with_records {h : History} (hrun : SavedRun cfg h o) : o.Agrees cfg := by
  have hboth : o.Consistent ∧ o.Agrees cfg := by
    refine hrun.invariant (I := fun o => o.Consistent ∧ o.Agrees cfg) ?_ ?_
    · intro o hfresh
      exact ⟨hfresh.fresh.consistent, hfresh.agrees⟩
    · intro o c o' ⟨hcons, hagrees⟩ ⟨hcall, hsave⟩
      exact ⟨hcall.consistent hcons, hcall.agrees hsave hcons hagrees⟩
  exact hboth.2

end

/-- One payment: settled, and its receipt is in the store. -/
theorem store_agrees_after_payment : (play Sample.config (.init .empty 0)
    (Sample.approved "i" 0 ++ [(.execute, Sample.env 0 Sample.paid)])).Agrees Sample.config := by
  have hsaves : ∀ e ∈ Sample.payment, e.seen.env.saves Sample.config := by decide
  exact store_agrees_with_records (Sample.payment_run.guarded hsaves)

end HermesPayments
