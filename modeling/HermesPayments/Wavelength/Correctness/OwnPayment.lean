import HermesPayments.Wavelength.Runs

/-!
# `HermesPayments.Wavelength.Correctness.OwnPayment` — whose payment a receipt settles

`receive_receipt` checks amount and quote of a receipt, and asks the adapter whether the wallet shows a completed send
under the payment hash that the *receipt* names. The payment hash bound inside the intent's own payload is not asked
for. So a receipt settles only the approved payment exactly when the wallet shows no foreign evidence
(`settles_own_iff`): no completed send of the same amount under the other hash that the receipt names. `settled_by_other`
is a run in which it does.
-/

namespace HermesPayments

open Lib PaymentState WavelengthAdapter

/-! ## The approved payload -/

/-- An open approved intent holds the payload whose hash was approved. -/
def IntentRecord.HoldsApproved (r : IntentRecord) : Prop :=
  r.state.hasApproval = true → ∃ prep a, r.prepared = some prep ∧ r.approval = some a ∧
    a.preparedHash = prep.preparedHash

theorem RecordStep.holdsApproved {env : Env} {es : List Effect} {op : Op} {res : Except Exc Answer} {id : String}
    {r r' : IntentRecord} (hrec : RecordStep env es op res id r r') (hr : r.HoldsApproved) : r'.HoldsApproved := by
  cases hrec with
  | kept | quoteOverwritten _ _ _ | reconciled _ => exact hr
  | approved _ _ _ hprep hhash =>
      intro _
      exact ⟨_, _, hprep, rfl, hhash.symm⟩
  | dispatchOpen hstate _ _ _ | swept hstate =>
      intro _
      exact hr (by rw [hstate]; rfl)
  | quoted _ _ _ | prepared _ _ _ _ _ _ | dispatchSettled _ _ _ | receiptSettled _ _ _ _ _ _ | confirmed _
  | cancelled _ | rejected _ => exact nofun

/-! ## Receipts along a run -/

section

variable (w : WavelengthAdapter) (py : PyRuntime)

/-- A receipt that settles an intent names the payment hash bound in the intent's own approved payload. -/
def SettlesOwn (h : WavelengthHistory) : Prop :=
  ∀ e ∈ h, ∀ rc rc', e.seen.op = .receiveReceipt rc → e.seen.result = .ok (.receipt rc') →
    e.after.stateOf rc.intentId = SETTLED → ∃ r prep a, e.before.record? rc.intentId = some r ∧
      r.prepared = some prep ∧ r.approval = some a ∧ a.preparedHash = prep.preparedHash ∧
      boundHash py prep.preparedPayload = some (.text rc.settlementRef)

/-- The receipt passes every gate on the evidence of a payment other than the one bound in the intent's payload. -/
def ForeignEvidence (cfg : Config) (o : PaymentOrchestrator) (env : WavelengthEnv) (rc : PaymentReceipt) : Prop :=
  ∃ r q prep, o.record? rc.intentId = some r ∧ (r.state = EXECUTING ∨ r.state = RECONCILIATION_REQUIRED) ∧
    o.store.hasReceipt rc.intentId = false ∧ rc.amountSat = r.intent.amountSat ∧ r.quote = some q ∧
    q.quoteId = rc.quoteId ∧ Shows w py env.wavecli .send rc.settlementRef rc.amountSat ∧
    (env.toEnv w py).saves cfg ∧ r.prepared = some prep ∧
    boundHash py prep.preparedPayload ≠ some (.text rc.settlementRef)

end

section

variable {cfg : Config} {w : WavelengthAdapter} {py : PyRuntime} {h : WavelengthHistory} {o o' : PaymentOrchestrator}
  {c : WavelengthCall}

/-- The gates that let a receipt through, over the adapter. -/
theorem settleable_iff {env : WavelengthEnv} {rc : PaymentReceipt} :
    Settleable o (env.toEnv w py).adapter rc ↔ ∃ r q, o.record? rc.intentId = some r ∧
      (r.state = EXECUTING ∨ r.state = RECONCILIATION_REQUIRED) ∧ o.store.hasReceipt rc.intentId = false ∧
      rc.amountSat = r.intent.amountSat ∧ r.quote = some q ∧ q.quoteId = rc.quoteId ∧
      Shows w py env.wavecli .send rc.settlementRef rc.amountSat := by
  constructor
  · rintro ⟨r, q, v, hr, hstate, hnew, hamount, hquote, hqid, hcall, hverified⟩
    exact ⟨r, q, hr, hstate, hnew, hamount, hquote, hqid,
      verifySenderSettlement_verified_iff.mp ⟨v, hcall, hverified⟩⟩
  · rintro ⟨r, q, hr, hstate, hnew, hamount, hquote, hqid, hshows⟩
    obtain ⟨v, hcall, hverified⟩ := verifySenderSettlement_verified_iff.mpr hshows
    exact ⟨r, q, v, hr, hstate, hnew, hamount, hquote, hqid, hcall, hverified⟩

/-- Foreign evidence settles the intent. -/
theorem ForeignEvidence.settles {rc : PaymentReceipt} (hforeign : ForeignEvidence w py cfg o c.env rc)
    (hcall : WavelengthCalls cfg w py o c o') (hop : c.op = .receiveReceipt rc) :
    c.result = .ok (.receipt rc) ∧ ∀ r, o.record? rc.intentId = some r →
      o'.record? rc.intentId = some { r with receipt := some rc, state := SETTLED } := by
  obtain ⟨r, q, prep, hr, hstate, hnew, hamount, hquote, hqid, hshows, hsave, _, _⟩ := hforeign
  have hgates : Settleable o (c.env.toEnv w py).adapter rc :=
    settleable_iff.mpr ⟨r, q, hr, hstate, hnew, hamount, hquote, hqid, hshows⟩
  obtain ⟨o₁, es, r₁, hrun, hr₁, hr₁'⟩ := receiveReceipt_settles hgates hsave
  have hcall' : (call cfg (c.env.toEnv w py) c.op).run o = ⟨c.result, o', c.effects⟩ := hcall
  rw [hop, hrun] at hcall'
  obtain ⟨hresult, rfl, _⟩ := Outcome.mk.inj hcall'
  refine ⟨hresult.symm, fun r₂ hr₂ => ?_⟩
  obtain rfl := Option.some.inj (hr₁.symm.trans hr₂)
  exact hr₁'

/-- A receipt that returned passed every gate, and its record was saved. -/
theorem returned_gates {rc : PaymentReceipt} {ans : Answer} (hcall : WavelengthCalls cfg w py o c o')
    (hop : c.op = .receiveReceipt rc) (hresult : c.result = .ok ans) :
    Settleable o (c.env.toEnv w py).adapter rc ∧ (c.env.toEnv w py).saves cfg := by
  have hstep := Calls.step hcall
  have hop' : (c.toCall w py).op = .receiveReceipt rc := hop
  have hresult' : (c.toCall w py).result = .ok ans := hresult
  rw [hop', hresult'] at hstep
  exact ⟨hstep.receiveReceipt_ok, hstep.receiveReceipt_saved⟩

theorem WavelengthRun.holdsApproved (hrun : WavelengthRun cfg w py h o) {id : String} {r : IntentRecord}
    (hr : o.record? id = some r) : r.HoldsApproved :=
  hrun.record (fun _ => nofun) (fun _ _ _ _ _ _ _ hrec hold => hrec.holdsApproved hold) hr

/-- **A receipt settles only the approved payment** along a run exactly when none comes with foreign evidence. -/
theorem settles_own_iff (hrun : WavelengthRun cfg w py h o) :
    SettlesOwn py h ↔ ∀ e ∈ h, ∀ rc, e.seen.op = .receiveReceipt rc →
      ¬ ForeignEvidence w py cfg e.before e.seen.env rc := by
  constructor
  · intro hown e he rc hop hforeign
    obtain ⟨_, _, hcall⟩ := hrun.of_mem he
    obtain ⟨hresult, hrecord⟩ := hforeign.settles hcall hop
    obtain ⟨r, _, prep, hr, _, _, _, _, _, _, _, hprep, hother⟩ := hforeign
    have hsettled := PaymentOrchestrator.stateOf_of_record? (hrecord r hr)
    obtain ⟨r', prep', _, hr', hprep', _, _, hbound⟩ := hown e he rc rc hop hresult hsettled
    obtain rfl := Option.some.inj (hr.symm.trans hr')
    obtain rfl := Option.some.inj (hprep.symm.trans hprep')
    exact hother hbound
  · intro hno e he rc rc' hop hresult hsettled
    obtain ⟨g, hg, hcall⟩ := hrun.of_mem he
    obtain ⟨hgates, hsave⟩ := returned_gates hcall hop hresult
    obtain ⟨r, q, hr, hstate, hnew, hamount, hquote, hqid, hshows⟩ := settleable_iff.mp hgates
    -- an open approved intent holds the payload that was approved
    have hopen : r.state.hasApproval = true := by rcases hstate with hs | hs <;> rw [hs] <;> rfl
    obtain ⟨prep, a, hprep, ha, hhash⟩ := WavelengthRun.holdsApproved hg hr hopen
    refine ⟨r, prep, a, hr, hprep, ha, hhash, ?_⟩
    by_contra hother
    exact hno e he rc hop
      ⟨r, q, prep, hr, hstate, hnew, hamount, hquote, hqid, hshows, hsave, hprep, hother⟩

end

/-! ## A receipt for another payment -/

namespace Sample

/-- The `Send` of the sample payment fails. -/
def lostEvent : Event PaymentOrchestrator WavelengthCall :=
  wavelengthEvent config wavelength py approvedState (.execute, answering (.error (.other "timeout")))

theorem run_lost : WavelengthRun config wavelength py (previewedHistory ++ [lostEvent]) lostEvent.after :=
  wavelengthRun_snoc run_previewed _

/-- A lost `Send` is an ambiguous result. -/
theorem lost_caught : Caught ((answering (.error (.other "timeout"))).toEnv wavelength py |>.adapter.execute
    (preparedPayload preview "invoice A" 10) "hash") := by
  show Caught ((wavelength.settlementAdapter py _).execute (preparedPayload preview "invoice A" 10) "hash")
  rw [execute_eq, payload_checked]
  exact ⟨_, rfl, ambiguousResult_ne_other _⟩

/-- The failed `Send` leaves the intent in reconciliation. -/
theorem lost_record : lostEvent.after.store = approvedState.store ∧
    lostEvent.after.record? "i" = some { approvedRecord with state := RECONCILIATION_REQUIRED } := by
  have hcall : WavelengthCalls config wavelength py approvedState lostEvent.seen lostEvent.after :=
    wavelengthEvent_calls _ _
  obtain ⟨hstep, hmem⟩ := hcall.dispatched run_previewed.consistent rfl approved_first rfl
  rcases hstep.execute_ends approved_first rfl hmem with ⟨_, hstore, hr⟩ | ⟨⟨hnone, _⟩, _⟩ | ⟨_, _, hok, _⟩
  · exact ⟨hstore, hr⟩
  · exact absurd lost_caught hnone
  · obtain ⟨_, herror, _⟩ := lost_caught
    cases herror.symm.trans hok

/-- A receipt under a payment hash that the wallet shows, for the intent in reconciliation. -/
def receiptEvent (ref : String) : Event PaymentOrchestrator WavelengthCall :=
  wavelengthEvent config wavelength py lostEvent.after (.receiveReceipt (receipt "i" ref), answering (.ok (activity ref)))

/-- What the receipt finds: the record in reconciliation. -/
theorem receiptEvent_record {ref : String} {r : IntentRecord} (hr : (receiptEvent ref).before.record? "i" = some r) :
    r = { approvedRecord with state := RECONCILIATION_REQUIRED } := by
  have hbefore : (receiptEvent ref).before = lostEvent.after := wavelengthEvent_before _ _
  rw [hbefore, lost_record.2] at hr
  exact (Option.some.inj hr).symm

theorem run_receipt (ref : String) : WavelengthRun config wavelength py
    ((previewedHistory ++ [lostEvent]) ++ [receiptEvent ref]) (receiptEvent ref).after :=
  wavelengthRun_snoc run_lost _

theorem receipt_foreign : ForeignEvidence wavelength py config lostEvent.after (answering (.ok (activity "bb")))
    (receipt "i" "bb") := by
  have hparse : parseActivityEntry py (.obj [("payment_hash", .str "bb"), ("status", .str "COMPLETE"),
      ("amount_sat", .int (-1000))]) = .ok ⟨"COMPLETE", -1000, 0, "bb"⟩ := rfl
  have hshows : Shows wavelength py (answering (.ok (activity "bb"))).wavecli .send "bb" 1000 :=
    ⟨activity "bb", rfl, .here hparse rfl rfl rfl⟩
  have hnew : lostEvent.after.store.hasReceipt "i" = false := by
    rw [lost_record.1]
    rfl
  refine ⟨_, quote "i" "invoice A" 100, _, lost_record.2, .inr rfl, hnew, rfl, rfl, rfl, hshows, by decide, rfl, ?_⟩
  rw [boundHash_preparedPayload]
  decide

end Sample

/-- A receipt for the payment that was approved settles it. -/
theorem settles_own_payment :
    SettlesOwn Sample.py ((Sample.previewedHistory ++ [Sample.lostEvent]) ++ [Sample.receiptEvent "aa"]) := by
  refine (settles_own_iff (Sample.run_receipt "aa")).mpr ?_
  rintro e he rc hop ⟨r, _, prep, hr, _, _, _, _, _, _, _, hprep, hother⟩
  rcases List.mem_append.mp he with he | he
  · rcases List.mem_append.mp he with he | he
    · exact (Sample.previewed_op e he).2 rc hop
    · obtain rfl := List.mem_singleton.mp he
      cases hop
  · obtain rfl := List.mem_singleton.mp he
    obtain rfl := Op.receiveReceipt.inj hop
    -- the receipt names the hash that the payload binds
    obtain rfl := Sample.receiptEvent_record hr
    obtain rfl := Option.some.inj hprep
    exact hother (boundHash_preparedPayload _ _ _ _)

/-- **A receipt for another payment may settle the intent**: the payload binds the hash aa, the receipt names bb. -/
theorem settled_by_other : ∃ h o r prep rc, WavelengthRun Sample.config Sample.wavelength Sample.py h o ∧
    o.record? "i" = some r ∧ r.state = SETTLED ∧ r.prepared = some prep ∧ r.receipt = some rc ∧
    boundHash Sample.py prep.preparedPayload = some (.text "aa") ∧ rc.settlementRef = "bb" ∧ ¬ SettlesOwn Sample.py h := by
  have hcall : WavelengthCalls Sample.config Sample.wavelength Sample.py Sample.lostEvent.after
      (Sample.receiptEvent "bb").seen (Sample.receiptEvent "bb").after := wavelengthEvent_calls _ _
  obtain ⟨hresult, hrecord⟩ := Sample.receipt_foreign.settles hcall rfl
  refine ⟨_, _, _, _, Sample.receipt "i" "bb", Sample.run_receipt "bb", hrecord _ Sample.lost_record.2, rfl, rfl, rfl,
    boundHash_preparedPayload _ _ _ _, rfl, fun hown => ?_⟩
  have hmem : Sample.receiptEvent "bb" ∈ (Sample.previewedHistory ++ [Sample.lostEvent]) ++ [Sample.receiptEvent "bb"] := by
    simp
  have hsettled := PaymentOrchestrator.stateOf_of_record? (hrecord _ Sample.lost_record.2)
  obtain ⟨r, prep, _, hr, hprep, _, _, hbound⟩ := hown _ hmem _ _ rfl hresult hsettled
  obtain rfl := Sample.receiptEvent_record hr
  obtain rfl := Option.some.inj hprep
  rw [boundHash_preparedPayload] at hbound
  exact absurd hbound (by decide)

end HermesPayments
