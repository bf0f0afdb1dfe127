import HermesPayments.Wavelength.Runs

/-!
# `HermesPayments.Wavelength.Correctness.Agreement` — recovery and receipt verification agree

`reconcile_settlement` and `verify_sender_settlement` scan the same activity, each in its own loop: the one compares the
amount before the status, the other the status before the amount. Entry by entry they come to the same end
(`scans_agree`): both find the payment completed, neither does, or both raise. So over one answer of the wallet
`reconcile_settlement` reports `COMPLETE` exactly when `verify_sender_settlement` verifies (`reconcile_agrees`).
-/

namespace HermesPayments

open Lib WavelengthAdapter

namespace WavelengthAdapter

/-- The two calls come to the same end. -/
inductive Agree : Except AdapterExc ReconcileResult → Except AdapterExc ReceiptVerifyResult → Prop
  | complete {r : ReconcileResult} {v : ReceiptVerifyResult} (hstatus : r.status = "COMPLETE") (hflag : r.verified = true)
      (hverified : v.verified = true) (href : r.settlementRef = v.settlementRef) (hamount : r.amountSat = v.amountSat)
      (hfee : r.feeSat = v.feeSat) : Agree (.ok r) (.ok v)
  | open {r : ReconcileResult} {v : ReceiptVerifyResult} (hstatus : r.status ≠ "COMPLETE") (hflag : r.verified = false)
      (hverified : v.verified = false) : Agree (.ok r) (.ok v)
  | raised (e : AdapterExc) : Agree (.error e) (.error e)

/-- Recovery reports the payment completed exactly when verification succeeds, and both report the same. -/
theorem Agree.iff {x : Except AdapterExc ReconcileResult} {y : Except AdapterExc ReceiptVerifyResult} (h : Agree x y) :
    ((∃ r, x = .ok r ∧ r.status = "COMPLETE") ↔ ∃ v, y = .ok v ∧ v.verified = true) ∧
      ∀ r v, x = .ok r → y = .ok v → r.status = "COMPLETE" →
        r.settlementRef = v.settlementRef ∧ r.amountSat = v.amountSat ∧ r.feeSat = v.feeSat := by
  cases h with
  | complete hstatus _ hverified href hamount hfee =>
      refine ⟨iff_of_true ⟨_, rfl, hstatus⟩ ⟨_, rfl, hverified⟩, ?_⟩
      rintro r v ⟨⟩ ⟨⟩ _
      exact ⟨href, hamount, hfee⟩
  | «open» hstatus _ hverified =>
      refine ⟨iff_of_false ?_ ?_, ?_⟩
      · rintro ⟨_, ⟨⟩, h⟩
        exact hstatus h
      · rintro ⟨_, ⟨⟩, h⟩
        rw [hverified] at h
        cases h
      · rintro r v ⟨⟩ ⟨⟩ h
        exact absurd h hstatus
  | raised e =>
      refine ⟨iff_of_false nofun nofun, ?_⟩
      rintro _ _ ⟨⟩

/-- Recovery flags a payment as verified exactly when it reports it completed. -/
theorem Agree.flag {x : Except AdapterExc ReconcileResult} {y : Except AdapterExc ReceiptVerifyResult} (h : Agree x y)
    {r : ReconcileResult} (hr : x = .ok r) : r.verified = true ↔ r.status = "COMPLETE" := by
  cases h with
  | complete hstatus hflag _ _ _ _ =>
      obtain rfl := Except.ok.inj hr
      exact iff_of_true hflag hstatus
  | «open» hstatus hflag _ =>
      obtain rfl := Except.ok.inj hr
      exact iff_of_false (by rw [hflag]; nofun) hstatus
  | raised e => cases hr

theorem unknown_ne_complete : "UNKNOWN" ≠ "COMPLETE" := by decide

theorem pending_ne_complete : "PENDING" ≠ "COMPLETE" := by decide

section

variable {w : WavelengthAdapter} {py : PyRuntime} {env : WavecliEnv}

/-- **The two scans agree** on every list of entries. -/
theorem scans_agree (ref : PyStr) (amountSat : Int) (entries : List Json) :
    Agree (reconcileScan py ref amountSat entries) (verifyScan py .send ref amountSat entries) := by
  induction entries with
  | nil => exact .open unknown_ne_complete rfl rfl
  | cons entry rest ih =>
      rw [reconcileScan, verifyScan]
      cases hparse : parseActivityEntry py entry with
      | error e =>
          cases e with
          | other m => exact .raised _
          | adapterError m | ambiguousResult m => exact ih
      | ok parsed =>
          simp only
          by_cases hhash : parsed.paymentHash = ref
          swap
          · rw [if_pos hhash, if_pos hhash]
            exact ih
          rw [if_neg (not_not.mpr hhash), if_neg (not_not.mpr hhash)]
          have hsend : ActivityKind.send.amount parsed.amountSat = parsed.amountSat.natAbs := rfl
          rw [hsend]
          by_cases hamount : (parsed.amountSat.natAbs : Int) = amountSat
          · rw [if_neg (not_not.mpr hamount), if_neg (not_not.mpr hamount)]
            by_cases hstatus : parsed.status = "COMPLETE"
            · rw [if_pos hstatus, if_neg (not_not.mpr hstatus)]
              exact .complete rfl rfl rfl rfl rfl rfl
            · rw [if_neg hstatus, if_pos hstatus]
              split
              · exact .open pending_ne_complete rfl rfl
              · exact .open unknown_ne_complete rfl rfl
          · rw [if_pos hamount, if_pos hamount]
            split
            · exact .open unknown_ne_complete rfl rfl
            · exact .open unknown_ne_complete rfl rfl

/-! ## Over one answer of the wallet -/

/-- What recovery makes of the answer to its query. -/
def reconcileAnswer (py : PyRuntime) (ref : PyStr) (amountSat : Int) :
    Except AdapterExc Json → Except AdapterExc ReconcileResult
  | .error (.other m) => .ok
      { status := "UNKNOWN", settlementRef := ref
        error := some s!"sender activity query failed: {redactSensitive py.isAlnum m}" }
  | .error e => .ok
      { status := "UNKNOWN", settlementRef := ref
        error := some s!"cannot query sender activity: {redactSensitive py.isAlnum e.message}" }
  | .ok data => reconcileScan py ref amountSat (activityEntries data)

/-- What receipt verification makes of it. -/
def verifyAnswer (py : PyRuntime) (kind : ActivityKind) (ref : PyStr) (amountSat : Int) :
    Except AdapterExc Json → Except AdapterExc ReceiptVerifyResult
  | .error (.other m) => .ok
      { verified := false, settlementRef := ref, amountSat := 0, feeSat := 0
        error := some s!"activity query failed: {redactSensitive py.isAlnum m}" }
  | .error e => .ok
      { verified := false, settlementRef := ref, amountSat := 0, feeSat := 0
        error := some s!"cannot query activity: {redactSensitive py.isAlnum e.message}" }
  | .ok data => verifyScan py kind ref amountSat (activityEntries data)

theorem answers_agree (ref : PyStr) (amountSat : Int) (answer : Except AdapterExc Json) :
    Agree (reconcileAnswer py ref amountSat answer) (verifyAnswer py .send ref amountSat answer) := by
  cases answer with
  | ok data => exact scans_agree ref amountSat (activityEntries data)
  | error e =>
      cases e with
      | other m | adapterError m | ambiguousResult m => exact .open unknown_ne_complete rfl rfl

theorem result_verifyActivity (kind : ActivityKind) (ref : PyStr) (amountSat : Int) :
    ((w.verifyActivity py env kind ref amountSat).run ()).result
      = verifyAnswer py kind ref amountSat (env.executor (w.activityCmd kind.value)) := by
  rw [verifyActivity, result_run_bind]
  cases env.executor (w.activityCmd kind.value) with
  | ok data => rfl
  | error e => cases e <;> rfl

/-- A payload that is the one prepared, for this payment hash and this amount. -/
structure Prepared (py : PyRuntime) (payload : Bytes) (preparedHash : String) (ref : PyStr) (amountSat : Int) : Prop where
  hash    : computePreparedHash py.sha256 payload = preparedHash
  decodes : ∃ decoded, decodePayload py payload = .ok decoded ∧ decoded.isDict = true ∧
    decoded.getD "payment_hash" (.str "") = .str ref ∧
    (decoded.getD "amount_sat" (.int 0)).toInt py.decimal = .ok amountSat
  ref_ne  : ref ≠ ""

/-- `reconcile_settlement` asks the wallet when the payload is the one prepared for this amount. -/
theorem run_reconcileSettlement_prepared {payload : Bytes} {preparedHash : String} {ref : PyStr} {amountSat : Int}
    (h : Prepared py payload preparedHash ref amountSat) :
    (w.reconcileSettlement py env payload preparedHash amountSat).run ()
      = ⟨reconcileAnswer py ref amountSat (env.executor (w.activityCmd "send")), (), [w.activityCmd "send"]⟩ := by
  obtain ⟨decoded, hdecode, hobject, hjson, hint⟩ := h.decodes
  have href : ((decoded.getD "payment_hash" (.str "")).pyStr?).getD "" = ref := by
    rw [hjson]
    rfl
  have hasked : (env.run (w.activityCmd "send")).run () =
      ⟨.ok (env.executor (w.activityCmd "send")), (), [w.activityCmd "send"]⟩ := rfl
  unfold reconcileSettlement
  rw [if_neg (not_not.mpr h.hash), hdecode]
  simp only
  rw [if_neg (by rw [hobject]; decide), if_neg (by rw [href]; exact h.ref_ne), hint]
  simp only [href]
  rw [if_neg (not_not.mpr rfl), Proc.run_bind_ok hasked]
  cases env.executor (w.activityCmd "send") with
  | ok data => rfl
  | error e => cases e <;> rfl

/-- The wallet was not asked, and what is reported, if anything is, is that nothing is known. -/
def Unasked (out : Outcome (List String) AdapterExc Unit ReconcileResult) : Prop :=
  out.effects = [] ∧ ∀ r, out.result = .ok r → r.status = "UNKNOWN" ∧ r.verified = false

theorem unasked_unknown (settlementRef : PyStr) (error : String) :
    Unasked ((pure { status := "UNKNOWN", settlementRef, error := some error } : Wavecli ReconcileResult).run ()) := by
  refine ⟨rfl, ?_⟩
  rintro r ⟨⟩
  exact ⟨rfl, rfl⟩

theorem unasked_raise (e : AdapterExc) : Unasked ((Proc.raise e : Wavecli ReconcileResult).run ()) := ⟨rfl, nofun⟩

/-- … and only then: without the payload it does not matter what the wallet would answer. -/
theorem reconcileSettlement_unprepared {payload : Bytes} {preparedHash : String} {amountSat : Int}
    (h : ¬ ∃ ref, Prepared py payload preparedHash ref amountSat) :
    ∃ out, Unasked out ∧ ∀ env, (w.reconcileSettlement py env payload preparedHash amountSat).run () = out := by
  unfold reconcileSettlement
  by_cases hhash : computePreparedHash py.sha256 payload = preparedHash
  swap
  · simp only [if_pos hhash]
    exact ⟨_, unasked_unknown _ _, fun _ => rfl⟩
  simp only [if_neg (not_not.mpr hhash)]
  cases hdecode : decodePayload py payload with
  | error e =>
      cases e with
      | limit m => exact ⟨_, unasked_raise _, fun _ => rfl⟩
      | undecodable m => exact ⟨_, unasked_unknown _ _, fun _ => rfl⟩
  | ok decoded =>
      simp only
      by_cases hobject : decoded.isDict = true
      swap
      · have hscalar : (!decoded.isDict) = true := by simpa using hobject
        simp only [if_pos hscalar]
        exact ⟨_, unasked_unknown _ _, fun _ => rfl⟩
      have hscalar : ¬ (!decoded.isDict) = true := by simpa using hobject
      simp only [if_neg hscalar]
      by_cases href : ((decoded.getD "payment_hash" (.str "")).pyStr?).getD "" = ""
      · simp only [if_pos href]
        exact ⟨_, unasked_unknown _ _, fun _ => rfl⟩
      simp only [if_neg href]
      cases hint : (decoded.getD "amount_sat" (.int 0)).toInt py.decimal with
      | error e =>
          cases e with
          | overflowError m => exact ⟨_, unasked_raise _, fun _ => rfl⟩
          | typeError m | valueError m => exact ⟨_, unasked_unknown _ _, fun _ => rfl⟩
      | ok amount =>
          simp only
          by_cases hamount : amount = amountSat
          swap
          · simp only [if_pos hamount]
            exact ⟨_, unasked_unknown _ _, fun _ => rfl⟩
          · -- every check is passed, so the payload is the one prepared
            subst hamount
            cases hjson : decoded.getD "payment_hash" (.str "") with
            | str ref =>
                rw [hjson] at href
                exact absurd ⟨ref, hhash, ⟨decoded, hdecode, hobject, hjson, hint⟩, href⟩ h
            | null | bool _ | int _ | float _ | arr _ | obj _ =>
                rw [hjson] at href
                exact absurd rfl href

end

/-- **Recovery and receipt verification agree** over one answer of the wallet; recovery flags a payment as verified
    only when it reports it completed, and sends the wallet at most one query of its sends. -/
theorem reconcile_agrees (w : WavelengthAdapter) (py : PyRuntime) (env : WavecliEnv) :
    (∀ payload preparedHash ref amountSat, Prepared py payload preparedHash ref amountSat →
      let reconciled := ((w.reconcileSettlement py env payload preparedHash amountSat).run ()).result
      let verified := ((w.verifySenderSettlement py env ref amountSat).run ()).result
      ((∃ r, reconciled = .ok r ∧ r.status = "COMPLETE") ↔ ∃ v, verified = .ok v ∧ v.verified = true) ∧
        ∀ r v, reconciled = .ok r → verified = .ok v → r.status = "COMPLETE" →
          r.settlementRef = v.settlementRef ∧ r.amountSat = v.amountSat ∧ r.feeSat = v.feeSat) ∧
    ∀ payload preparedHash amountSat,
      let out := (w.reconcileSettlement py env payload preparedHash amountSat).run ()
      (∀ r, out.result = .ok r → (r.verified = true ↔ r.status = "COMPLETE")) ∧
        (out.effects = [] ∨ out.effects = [w.activityCmd "send"]) := by
  constructor
  · intro payload preparedHash ref amountSat hprepared reconciled verified
    have hagree : Agree reconciled verified := by
      have hreconciled : reconciled = _ := congrArg Outcome.result (run_reconcileSettlement_prepared hprepared)
      have hverified : verified = _ := result_verifyActivity .send ref amountSat
      rw [hreconciled, hverified]
      exact answers_agree ref amountSat _
    exact hagree.iff
  · intro payload preparedHash amountSat out
    by_cases hprepared : ∃ ref, Prepared py payload preparedHash ref amountSat
    · obtain ⟨ref, hprepared⟩ := hprepared
      have hout : out = _ := run_reconcileSettlement_prepared hprepared
      rw [hout]
      exact ⟨fun r hr => (answers_agree ref amountSat _).flag hr, .inr rfl⟩
    · obtain ⟨_, ⟨hnone, hquiet⟩, hrun⟩ := reconcileSettlement_unprepared hprepared
      have hout : out = _ := hrun env
      rw [hout]
      refine ⟨fun r hr => ?_, .inl hnone⟩
      obtain ⟨hstatus, hflag⟩ := hquiet r hr
      exact iff_of_false (by rw [hflag]; nofun) (by rw [hstatus]; exact unknown_ne_complete)

end WavelengthAdapter

namespace Sample

/-- The payload of the sample payment is the one prepared. -/
theorem payload_prepared : Prepared py (preparedPayload preview "invoice A" 10) "hash" "aa" 1000 := by
  have hhash : payload.getD "payment_hash" (.str "") = .str "aa" := payload_getD _ (.str "aa") _ rfl
  have hamount : payload.getD "amount_sat" (.int 0) = .int 1000 := payload_getD _ (.int 1000) _ rfl
  refine ⟨rfl, ⟨_, decodePayload_prepared py preview _ _ fun _ _ => rfl, rfl, hhash, ?_⟩, by decide⟩
  show (payload.getD "amount_sat" (.int 0)).toInt py.decimal = .ok 1000
  rw [hamount]
  rfl

end Sample

/-- Recovery of the sample payment, once the wallet shows its send as completed. -/
theorem reconcile_agrees_payment : ∃ r,
    ((Sample.wavelength.reconcileSettlement Sample.py (Sample.answering (.ok (Sample.activity "aa"))).wavecli
      (preparedPayload Sample.preview "invoice A" 10) "hash" 1000).run ()).result = .ok r ∧ r.status = "COMPLETE" := by
  refine ((reconcile_agrees Sample.wavelength Sample.py _).1 _ _ _ _ Sample.payload_prepared).1.mpr
    ⟨⟨true, "aa", 1000, 0, none⟩, ?_, rfl⟩
  exact result_verifyActivity .send "aa" 1000

end HermesPayments
