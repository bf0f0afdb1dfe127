import HermesPayments.Policy.Correctness.Expiry

/-!
# `HermesPayments.Policy.Correctness.Execution` — how an execution ends

After `adapter.execute` was called the intent should be settled with its receipt recorded, or be in
`RECONCILIATION_REQUIRED`. `execute` catches `AdapterError` and builds a receipt from a result; an exception of
another class and a result that fails the receipt's validation leave the intent in `EXECUTING`, which neither
`confirmSettled` nor `reconcileSettlement` admits. `execute_closes_iff` names the answers that do end well.
-/

namespace HermesPayments

open Lib PaymentState

/-- The intent is settled with the reference of its receipt in the store, or waits for reconciliation. -/
def ClosedOut (o : PaymentOrchestrator) (id : String) : Prop :=
  ∃ r ∈ o.record? id, (r.state = SETTLED ∧ ∃ rc ∈ r.receipt, o.store.getReceipt id = some rc.settlementRef) ∨
    r.state = RECONCILIATION_REQUIRED

instance (o : PaymentOrchestrator) (id : String) : Decidable (ClosedOut o id) := by
  unfold ClosedOut
  infer_instance

/-- An answer `execute` accounts for: a declared adapter error, or a result whose fee a receipt can carry. -/
def Handled : Except AdapterExc ExecuteResult → Prop
  | .ok res             => 0 ≤ res.feeSat
  | .error (.other _)   => False
  | .error _            => True

/-- `execute`, called now, would be answered by something it accounts for. -/
def AnswerHandled (o : PaymentOrchestrator) (env : Env) : Prop :=
  ∀ f ∈ o.firstIn APPROVED, ∀ prep ∈ f.2.prepared,
    Handled (env.adapter.execute prep.preparedPayload prep.preparedHash)

instance (answer : Except AdapterExc ExecuteResult) : Decidable (Handled answer) := by
  unfold Handled
  split <;> infer_instance

instance (o : PaymentOrchestrator) (env : Env) : Decidable (AnswerHandled o env) := by
  unfold AnswerHandled
  infer_instance

variable {cfg : Config} {o o' : PaymentOrchestrator} {c : Call} {h : History} {id : String}

theorem handled_of_caught {x : AdapterExc} (h : ∀ m, x ≠ .other m) : Handled (.error x) := by
  cases x with
  | other m => exact absurd rfl (h m)
  | _ => trivial

/-- How one dispatch ends. -/
theorem Calls.closedOut_iff (hcall : Calls cfg o c o') (ho : o.Consistent) (hsave : c.env.saves cfg)
    {payload : Bytes} {hash : String} (hd : (id, payload, hash) ∈ dispatches c.effects) :
    ClosedOut o' id ↔ Handled (c.env.adapter.execute payload hash) := by
  have hstep := hcall.step
  obtain ⟨hop, r, prep, hfirst, hprep, rfl, rfl⟩ := hstep.of_dispatch hd
  have hr := (PaymentOrchestrator.record?_of_firstIn hfirst).1
  have hid : r.intent.id = id := (ho.records id r hr).intent_id
  rw [hop] at hstep
  generalize c.result = res at hstep
  generalize c.effects = es at hstep hd
  cases hstep with
  | refused _ _ hquiet _ => rw [dispatches_quiet hquiet] at hd; cases hd
  | dispatchAmbiguous hfirst' hprep' hanswer hcaught _ _ _ _ =>
      obtain ⟨rfl, rfl⟩ := Prod.mk.inj (Option.some.inj (hfirst.symm.trans hfirst'))
      obtain rfl := Option.some.inj (hprep.symm.trans hprep')
      rw [hanswer]
      refine iff_of_true ⟨{ r with state := RECONCILIATION_REQUIRED }, ?_, .inr rfl⟩
        (handled_of_caught hcaught)
      simp [PaymentOrchestrator.record?_update, hr]
  | dispatchStranded hfirst' hprep' hwhy =>
      obtain ⟨rfl, rfl⟩ := Prod.mk.inj (Option.some.inj (hfirst.symm.trans hfirst'))
      obtain rfl := Option.some.inj (hprep.symm.trans hprep')
      refine iff_of_false ?_ ?_
      · rintro ⟨r', hr', hclosed⟩
        have : r' = { r with state := EXECUTING } := by
          simpa [PaymentOrchestrator.record?_update, hr, eq_comm] using hr'
        subst this
        rcases hclosed with ⟨hs, _⟩ | hs <;> cases hs
      · rcases hwhy with ⟨m, hanswer, _, _⟩ | ⟨res, hanswer, hneg, _, _⟩ | ⟨_, _, _, hfails, _, _⟩
        · rw [hanswer]; exact not_false
        · rw [hanswer]; exact Int.not_le.mpr hneg
        · exact absurd hsave hfails
  | dispatchSettled hfirst' hprep' hanswer hfee _ =>
      obtain ⟨rfl, rfl⟩ := Prod.mk.inj (Option.some.inj (hfirst.symm.trans hfirst'))
      obtain rfl := Option.some.inj (hprep.symm.trans hprep')
      rw [hanswer]
      refine iff_of_true ⟨{ r with receipt := some (builtReceipt cfg c.env r _ hfee), state := SETTLED }, ?_,
        .inl ⟨rfl, _, rfl, ?_⟩⟩ hfee
      · simp [PaymentOrchestrator.record?_update, hr]
      · simp [IdempotencyStore.getReceipt, builtReceipt, hid]

/-- No intent is in `EXECUTING`. -/
def NoneExecuting (o : PaymentOrchestrator) : Prop := ∀ id r, o.record? id = some r → r.state ≠ EXECUTING

/-- A call whose dispatch is accounted for leaves no intent in `EXECUTING`. -/
theorem Calls.noneExecuting (hcall : Calls cfg o c o') (ho : o.Consistent) (hsave : c.env.saves cfg)
    (hanswer : c.op.isExecute = true → AnswerHandled o c.env) (hnone : NoneExecuting o) :
    NoneExecuting o' := by
  intro id r' hr' hs'
  revert hs'
  refine hcall.record_of (P := fun r' => r'.state ≠ EXECUTING) hr' ?_ ?_
  · intro i _
    exact nofun
  · intro r hro hrec hs'
    have hbefore := hnone id r hro
    generalize hopc : c.op = op at hrec
    generalize c.result = res at hrec
    cases hrec with
    | kept | quoteOverwritten _ _ _ | reconciled _ => exact hbefore hs'
    | dispatchOpen _ _ _ hmem =>
        have hd := dispatches_mem hmem
        obtain ⟨_, r, prep, hfirst, hprep, hp, hx⟩ := hcall.step.of_dispatch hd
        have hhandled := hanswer (by rw [hopc]; rfl) _ hfirst _ hprep
        rw [← hp, ← hx] at hhandled
        obtain ⟨r'', hr'', hclosed⟩ := (hcall.closedOut_iff ho hsave hd).mpr hhandled
        obtain rfl := Option.some.inj (hr'.symm.trans hr'')
        rcases hclosed with ⟨hs, _⟩ | hs <;> rw [hs'] at hs <;> cases hs
    | _ => cases hs'

end HermesPayments
