import HermesPayments.Process.Handlers

/-!
# `HermesPayments.Process.Answers` — the answers that the effects record

Of a preview and of a check of the wallet's activity the effects record what was asked and what the adapter answered.
The answer is the adapter's (`HandlerStep.answered`), also where the operation goes on to refuse it.
-/

namespace HermesPayments

open Lib PaymentState

/-- The answer that the effect records is the adapter's. -/
def Effect.Answered (env : Env) : Effect → Prop
  | .prepareCall _ instruction amountSat maxFeeSat answer => answer = env.adapter.prepare instruction amountSat maxFeeSat
  | .verifyCall _ ref amountSat answer => answer = env.adapter.verifySenderSettlement ref amountSat
  | .storeSave _ | .auditAppend _ | .executeCall _ _ _ | .reconcileCall _ _ _ _ => True

section

variable (cfg : Config) (env : Env) {α : Type}

abbrev Truthful (m : Policy α) : Prop := Proc.Only (Effect.Answered env) m

/-! ## Parts -/

theorem truthful_audit (event : String) (fields : List (String × AuditValue)) : Truthful env (audit cfg event fields) := by
  intro o w hw
  rw [run_audit] at hw
  unfold Config.audited at hw
  split at hw
  · rw [List.mem_singleton.mp hw]
    trivial
  · cases hw

theorem truthful_save : Truthful env (save cfg env) := by
  refine (Proc.Only.still Proc.Still.get).bind fun o => .guard (.emit fun w hw => ?_)
  unfold Config.saved at hw
  split at hw
  · rw [List.mem_singleton.mp hw]
    trivial
  · cases hw

/-! ## Operations -/

theorem truthful_submit (i : PaymentIntent) : Truthful env (submit cfg env i) := by
  refine (Proc.Only.still Proc.Still.get).bind fun o => .ite (.still (Proc.Still.pure _)) ?_
  refine (Proc.Only.still (Proc.Still.ite (Proc.Still.raise _) (Proc.Still.pure _))).bind fun _ => ?_
  refine (Proc.Only.still (Proc.Still.ite (Proc.Still.pure _) (Proc.Still.raise _))).bind fun _ => ?_
  refine .guard ((Proc.Only.modify _).bind fun _ => Proc.Only.bind ?_ fun _ => truthful_audit cfg env _ _)
  exact (Proc.Only.modify _).bind fun _ => truthful_save cfg env

theorem truthful_receiveQuote (q : PaymentQuote) : Truthful env (receiveQuote cfg env q) := by
  refine (Proc.Only.still (still_getRecord _)).bind fun r => .guard (.guard ?_)
  refine (Proc.Only.modify _).bind fun _ => .guard ?_
  exact (Proc.Only.modify _).bind fun _ => truthful_audit cfg env _ _

theorem still_findByState (state : PaymentState) : (findByState state).Still := by
  refine Proc.Still.get.bind fun o => ?_
  split
  · exact Proc.Still.pure _
  · exact Proc.Still.ite (Proc.Still.raise _) (Proc.Still.raise _)

theorem still_validateRail (rail : Rail) : (validateRail cfg rail).Still := Proc.Still.ite (Proc.Still.pure _) (Proc.Still.raise _)

theorem truthful_prepare : Truthful env (prepare cfg env) := by
  refine (Proc.Only.still (still_findByState _)).bind fun found => ?_
  refine (Proc.Only.still (Proc.Still.ite (Proc.Still.raise _) (Proc.Still.pure _))).bind fun _ => ?_
  refine (Proc.Only.still (still_validateRail cfg _)).bind fun _ => .guard ?_
  cases found.2.quote with
  | none => exact .still (Proc.Still.raise _)
  | some quote =>
      refine (Proc.Only.emit fun w hw => ?_).bind fun _ => ?_
      · rw [List.mem_singleton.mp hw]
        rfl
      · split
        · exact .still (Proc.Still.raise _)
        · exact .still (Proc.Still.raise _)
        · refine .guard ((Proc.Only.still (still_validateRail cfg _)).bind fun _ => ?_)
          refine (Proc.Only.modify _).bind fun _ => ?_
          exact (truthful_audit cfg env _ _).bind fun _ => .still (Proc.Still.pure _)

theorem truthful_record (f : IdempotencyStore → IdempotencyStore) :
    Truthful env (do modifyStore f; save cfg env) :=
  (Proc.Only.modify _).bind fun _ => truthful_save cfg env

theorem truthful_approve (a : PaymentApproval) : Truthful env (approve cfg env a) := by
  refine (Proc.Only.still (still_getRecord _)).bind fun r => ?_
  cases r.quote with
  | none => exact .still (Proc.Still.raise _)
  | some quote =>
      refine .guard ?_
      cases r.prepared with
      | none => exact .still (Proc.Still.raise _)
      | some prepared =>
          refine .guard ((Proc.Only.still Proc.Still.get).bind fun o => ?_)
          refine .guard (.guard ?_)
          refine (truthful_record cfg env _).bind fun _ => (Proc.Only.modify _).bind fun _ => .guard ?_
          exact (Proc.Only.modify _).bind fun _ => truthful_audit cfg env _ _

theorem truthful_execute : Truthful env (execute cfg env) := by
  refine (Proc.Only.still (still_findByState _)).bind fun found => ?_
  obtain ⟨id, r⟩ := found
  have hopen (event what : String) (x : AdapterExc) : Truthful env (reconciliationRequired cfg id event what r x) :=
    (Proc.Only.modify _).bind fun _ => (truthful_audit cfg env _ _).bind fun _ => .still (Proc.Still.raise _)
  dsimp only
  cases r.prepared with
  | none => exact .still (Proc.Still.raise _)
  | some prepared =>
      refine .guard ((Proc.Only.modify _).bind fun _ => (truthful_audit cfg env _ _).bind fun _ => ?_)
      refine (Proc.Only.emit fun w hw => ?_).bind fun _ => ?_
      · rw [List.mem_singleton.mp hw]
        trivial
      split
      · exact hopen _ _ _
      · exact hopen _ _ _
      · exact .still (Proc.Still.raise _)
      · split
        · exact .still (Proc.Still.raise _)
        · refine (truthful_record cfg env _).bind fun _ => (Proc.Only.modify _).bind fun _ => .guard ?_
          refine (Proc.Only.modify _).bind fun _ => ?_
          exact (truthful_audit cfg env _ _).bind fun _ => .still (Proc.Still.pure _)

theorem truthful_receiveReceipt (rc : PaymentReceipt) : Truthful env (receiveReceipt cfg env rc) := by
  refine (Proc.Only.still (still_getRecord _)).bind fun r => .guard ?_
  refine (Proc.Only.still Proc.Still.get).bind fun o => .guard ?_
  refine .ite ((truthful_audit cfg env _ _).bind fun _ => .refuse) (.guard ?_)
  refine (Proc.Only.emit fun w hw => ?_).bind fun _ => ?_
  · rw [List.mem_singleton.mp hw]
    rfl
  cases env.adapter.verifySenderSettlement rc.settlementRef rc.amountSat with
  | error e => exact .still (Proc.Still.raise _)
  | ok verify =>
      refine .ite ((truthful_audit cfg env _ _).bind fun _ => .refuse) (.guard ?_)
      refine (truthful_record cfg env _).bind fun _ => (Proc.Only.modify _).bind fun _ => ?_
      exact (truthful_audit cfg env _ _).bind fun _ => .still (Proc.Still.pure _)

theorem truthful_confirmSettled (id : String) : Truthful env (confirmSettled cfg env id) := by
  refine (Proc.Only.still (still_getRecord _)).bind fun r => .guard ?_
  refine (truthful_record cfg env _).bind fun _ => (Proc.Only.modify _).bind fun _ => ?_
  exact truthful_audit cfg env _ _

theorem truthful_reconcileSettlement (id : String) : Truthful env (reconcileSettlement cfg env id) := by
  refine (Proc.Only.still (still_getRecord _)).bind fun r => .guard ?_
  cases r.prepared with
  | none => exact .still (Proc.Still.raise _)
  | some prepared =>
      refine (Proc.Only.emit fun w hw => ?_).bind fun _ => (Proc.Only.modify _).bind fun _ => ?_
      · rw [List.mem_singleton.mp hw]
        trivial
      · exact (truthful_audit cfg env _ _).bind fun _ => .still (Proc.Still.pure _)

theorem truthful_cancel (id : String) : Truthful env (cancel cfg id) := by
  refine (Proc.Only.still (still_getRecord _)).bind fun r => .guard ?_
  exact (Proc.Only.modify _).bind fun _ => truthful_audit cfg env _ _

theorem truthful_reject (id : String) : Truthful env (reject cfg id) := by
  refine (Proc.Only.still (still_getRecord _)).bind fun r => .guard ?_
  exact (Proc.Only.modify _).bind fun _ => truthful_audit cfg env _ _

theorem truthful_expireAll (ids : List String) : Truthful env (expireAll cfg ids) := by
  induction ids with
  | nil => exact .still (Proc.Still.pure _)
  | cons id rest ih =>
      refine (Proc.Only.still (still_getRecord _)).bind fun r => ?_
      exact .ite ((Proc.Only.modify _).bind fun _ => (truthful_audit cfg env _ _).bind fun _ => ih) ih

theorem truthful_checkExpired (ids : Option (List String)) : Truthful env (checkExpired cfg env ids) := by
  refine (Proc.Only.still Proc.Still.get).bind fun o => ?_
  exact .ite ((truthful_expireAll cfg env _).bind fun _ => .refuse)
    (.still (Proc.Still.pure _))

/-- **Every operation** records what the adapter has answered. -/
theorem truthful_call (op : Op) : Truthful env (call cfg env op) := by
  have hanswer {β : Type} {m : Policy β} {g : β → Answer} (hm : Truthful env m) :
      Truthful env (m >>= fun a => pure (g a)) := hm.bind fun _ => .still (Proc.Still.pure _)
  cases op with
  | submit i => exact hanswer (truthful_submit cfg env i)
  | receiveQuote q => exact hanswer (truthful_receiveQuote cfg env q)
  | prepare => exact hanswer (truthful_prepare cfg env)
  | approve a => exact hanswer (truthful_approve cfg env a)
  | execute => exact hanswer (truthful_execute cfg env)
  | receiveReceipt rc => exact hanswer (truthful_receiveReceipt cfg env rc)
  | confirmSettled id => exact hanswer (truthful_confirmSettled cfg env id)
  | reconcileSettlement id => exact hanswer (truthful_reconcileSettlement cfg env id)
  | cancel id => exact hanswer (truthful_cancel cfg env id)
  | reject id => exact hanswer (truthful_reject cfg env id)
  | checkExpired ids => exact hanswer (truthful_checkExpired cfg env ids)

end

theorem Calls.answered {cfg : Config} {o o' : PaymentOrchestrator} {c : Call} (h : Calls cfg o c o') :
    ∀ w ∈ c.effects, w.Answered c.env := by
  have heffects : c.effects = ((call cfg c.env c.op).run o).effects := (congrArg Outcome.effects h).symm
  rw [heffects]
  exact truthful_call cfg c.env c.op o

/-- **What a handler's effects record** is what the adapter of the line has answered. -/
theorem HandlerStep.answered {config : ProcessConfig} {penv : ProcessEnv} {s s' : ProcessState} {c : Command}
    {es : List ProcessEffect} (h : HandlerStep config penv s c s' es) {effect : Effect}
    (hw : .peer (.policy effect) ∈ es) : effect.Answered penv.env := by
  have hcalled {call : Call} {o' : PaymentOrchestrator} (henv : call.env = penv.env)
      (hcall : Calls config.policy s.orchestrator call o') (hw : .peer (.policy effect) ∈ policyEffects call.effects) :
      effect.Answered penv.env := by
    obtain ⟨effect', hmem, heffect⟩ := List.mem_map.mp hw
    obtain rfl : effect' = effect := by
      cases heffect
      rfl
    exact henv ▸ hcall.answered _ hmem
  cases h with
  | idle hhanded => exact absurd (hhanded _ hw) not_hands_peer
  | received | unverified => cases List.mem_singleton.mp hw
  | called hhanded _ henv hcall => exact hcalled henv hcall ((mem_handed_append hhanded).mp hw)
  | submitted _ _ henv _ hcall =>
      rcases List.mem_append.mp hw with hw | hw
      · exact hcalled henv hcall hw
      · cases List.mem_singleton.mp hw
  | published _ hchecks =>
      rcases List.mem_append.mp hw with hw | hw
      · obtain ⟨_, _, hcheck⟩ := hchecks _ hw
        cases hcheck
      · cases List.mem_singleton.mp hw
  | recovered =>
      have hreads := readOnly_recover penv _ _ s _ hw
      cases effect with
      | auditAppend _ | reconcileCall _ _ _ _ => trivial
      | storeSave _ | prepareCall _ _ _ _ _ | executeCall _ _ _ | verifyCall _ _ _ _ => cases hreads

end HermesPayments
