import HermesPayments.Process.Faults

/-!
# `HermesPayments.Process.Correctness.WriteOnce` — a receipt binding is written once

`record_receipt` overwrites. `receive_receipt` asks the store first; `execute` and `confirm_settled` do not, and after a
kill or a failed write they can be called for an intent that the store file already binds. In every run in which no such
call is made, whatever fails and wherever the process is killed, a durable binding stays (`bindings_kept`).
-/

namespace HermesPayments

open Lib PaymentState

/-! ## The rule and the condition -/

/-- The bindings of a store are bindings of another. -/
def IdempotencyStore.BoundIn (s s' : IdempotencyStore) : Prop :=
  ∀ id ref, s.getReceipt id = some ref → s'.getReceipt id = some ref

/-- No step replaces a binding in the store file. -/
def WriteOnce (h : List (Event Node FaultEvent)) : Prop := ∀ e ∈ h, e.before.world.store.BoundIn e.after.world.store

/-- The call records a receipt under an intent that the store in memory binds to another reference: `execute` does when
    the adapter answers with another one, `confirm_settled` with its own. -/
def Op.Rebinds (env : Env) (o : PaymentOrchestrator) : Op → Prop
  | .execute => ∃ id r prep res ref, o.firstIn APPROVED = some (id, r) ∧ r.prepared = some prep ∧
      env.adapter.execute prep.preparedPayload prep.preparedHash = .ok res ∧ 0 ≤ res.feeSat ∧
      o.store.getReceipt r.intent.id = some ref ∧ ref ≠ res.settlementRef
  | .confirmSettled id => ∃ r ref, o.record? id = some r ∧ r.state = RECONCILIATION_REQUIRED ∧
      o.store.getReceipt id = some ref ∧ ref ≠ s!"manual:{id}"
  | _ => False

def Activity.Rebinds (s : ProcessState) : Activity → Prop
  | .line penv (.ok .execute) => Op.Rebinds penv.env s.orchestrator .execute
  | .line _ _ => False
  | .call env op => op.Rebinds env s.orchestrator

def RebindingStep (e : Event Node FaultEvent) : Prop :=
  ∃ s a, e.before.proc = some s ∧ e.seen.activity? = some a ∧ a.Rebinds s

/-! ## Stores -/

namespace IdempotencyStore.BoundIn

variable {s s' s'' : IdempotencyStore}

theorem refl : s.BoundIn s := fun _ _ h => h

theorem trans (h : s.BoundIn s') (h' : s'.BoundIn s'') : s.BoundIn s'' := fun id ref hs => h' id ref (h id ref hs)

/-- A binding is added where there is none, or the same one. -/
theorem addReceipt {id ref : String} (h : ∀ ref', s.getReceipt id = some ref' → ref' = ref) :
    s.BoundIn (s.addReceipt id ref) := by
  intro i r hs
  show (s.receipts.set id ref).get? i = some r
  by_cases hi : i = id
  · subst hi
    rw [Dict.get?_set_self, h r hs]
  · rw [Dict.get?_set_ne _ _ hi]
    exact hs

/-- … which a store says that has no receipt of the intent. -/
theorem addReceipt_new {id ref : String} (h : s.hasReceipt id = false) : s.BoundIn (s.addReceipt id ref) := by
  refine addReceipt fun ref' hs => ?_
  rw [hasReceipt, show s.receipts.get? id = some ref' from hs] at h
  cases h

end IdempotencyStore.BoundIn

section

variable {cfg : Config} {env : Env} {o o' : PaymentOrchestrator} {op : Op} {res : Except Exc Answer} {es : List Effect}

/-- **What a call does to the bindings**: it adds to them, unless it rebinds. -/
theorem Step.boundIn (h : Step cfg env o op res o' es) (hop : ¬ op.Rebinds env o) : o.store.BoundIn o'.store := by
  cases h with
  | refused hstore _ _ _ =>
      rw [hstore]
      exact .refl
  | seen _ | quoteOverwritten _ _ _ _ | quoted _ _ _ _ | prepared _ _ _ _ _ _ _ | dispatchAmbiguous _ _ _ _ _ _ _ _
  | reconciled _ _ _ | cancelled _ _ | rejected _ _ | noneExpired => exact .refl
  | submitted _ _ _ _ | submittedUnsaved _ _ _ _ | approved _ _ _ _ _ _ _ _ | approvedUnsaved _ _ _ =>
      -- intents and approvals are other collections
      exact fun _ _ hs => hs
  | swept _ _ _ =>
      rw [PaymentOrchestrator.store_expire]
      exact .refl
  | dispatchStranded hfirst hprep hwhy =>
      rcases hwhy with ⟨_, _, _, rfl⟩ | ⟨_, _, _, _, rfl⟩ | ⟨exec, hcall, hfee, _, _, rfl⟩
      · exact .refl
      · exact .refl
      · refine IdempotencyStore.BoundIn.addReceipt fun ref' hs => ?_
        by_contra hne
        exact hop ⟨_, _, _, exec, ref', hfirst, hprep, hcall, hfee, hs, hne⟩
  | @dispatchSettled _ _ _ exec hfirst hprep hcall hfee _ =>
      refine IdempotencyStore.BoundIn.addReceipt fun ref' hs => ?_
      by_contra hne
      exact hop ⟨_, _, _, exec, ref', hfirst, hprep, hcall, hfee, hs, hne⟩
  | receiptSettled _ _ hnew _ _ _ _ _ _ | receiptUnsaved _ _ hnew _ =>
      exact IdempotencyStore.BoundIn.addReceipt_new hnew
  | confirmed hr hstate _ | confirmedUnsaved hr hstate _ =>
      refine IdempotencyStore.BoundIn.addReceipt fun ref' hs => ?_
      by_contra hne
      exact hop ⟨_, ref', hr, hstate, hs, hne⟩

end

/-- Nothing is rebound where nothing is bound. -/
theorem Activity.not_rebinds_of_unbound {s : ProcessState} (h : s.orchestrator.store.receipts.entries = []) (a : Activity) :
    ¬ a.Rebinds s := by
  have hnone (id : String) : s.orchestrator.store.getReceipt id = none := by
    unfold IdempotencyStore.getReceipt Dict.get?
    rw [h]
    rfl
  have hop (env : Env) (op : Op) : ¬ op.Rebinds env s.orchestrator := by
    cases op with
    | execute =>
        rintro ⟨_, r, _, _, ref, _, _, _, _, hbound, _⟩
        rw [hnone] at hbound
        cases hbound
    | confirmSettled id =>
        rintro ⟨_, ref, _, _, hbound, _⟩
        rw [hnone] at hbound
        cases hbound
    | _ => exact id
  cases a with
  | call env op => exact hop env op
  | line penv parsed =>
      cases parsed with
      | error e => exact id
      | ok command =>
          cases command with
          | execute => exact hop penv.env .execute
          | _ => exact id

/-! ## The frame -/

/-- Since the store file held `s₀` its bindings have stayed, in the file and in memory. -/
def bindings (s₀ : IdempotencyStore) : Frame :=
  ⟨fun w => s₀.BoundIn w.store, fun s w => s₀.BoundIn w.store ∧ w.store.BoundIn s.orchestrator.store, And.left⟩

/-- What the effects of the policy engine leave in the store file. -/
theorem store_after {P : IdempotencyStore → Prop} {w : World} (hw : P w.store) {es : List Effect}
    (hes : ∀ content ∈ saves es, P content) :
    P (applyAll World.apply w (es.map fun e => .peer (.policy e))).store := by
  induction es generalizing w with
  | nil => exact hw
  | cons e es ih =>
      rw [List.map_cons, applyAll_cons]
      cases e with
      | storeSave content =>
          have hsaves : saves (.storeSave content :: es) = content :: saves es := rfl
          rw [hsaves] at hes
          exact ih (hes content List.mem_cons_self) fun c hc => hes c (List.mem_cons_of_mem _ hc)
      | auditAppend _ | prepareCall _ _ _ _ _ | executeCall _ _ _ | verifyCall _ _ _ _ | reconcileCall _ _ _ _ =>
          exact ih hw hes

section

variable (config : ProcessConfig) {s₀ : IdempotencyStore}

/-- **A computation of the policy engine** that adds to the bindings, and saves no store but the one it ends with. -/
theorem bindings_saving {α : Type} {P : PaymentOrchestrator → Prop} {m : Policy α}
    (hgrow : ∀ o, P o → o.store.BoundIn (m.run o).state.store)
    (hsaved : ∀ o, P o → ∀ content ∈ saves (m.run o).effects, content = (m.run o).state.store) :
    Crash World.apply (bindings s₀).crash (fun s w => (bindings s₀).holds s w ∧ P s.orchestrator) (Process.policy m)
      (fun _ => (bindings s₀).holds) := by
  rintro s w ⟨⟨hfile, hmemory⟩, hs⟩
  have hgrows := hgrow _ hs
  have hcontent : ∀ content ∈ saves (m.run s.orchestrator).effects, s₀.BoundIn content := by
    intro content hmem
    rw [hsaved _ hs content hmem]
    exact (hfile.trans hmemory).trans hgrows
  rw [run_process_policy]
  refine ⟨fun k => ?_, ?_, ?_⟩
  · rw [← List.map_take]
    refine store_after (P := s₀.BoundIn) hfile fun content hmem => ?_
    exact hcontent content (((List.take_sublist k _).filterMap _).subset hmem)
  · exact store_after (P := s₀.BoundIn) hfile hcontent
  · refine store_after (P := fun x => x.BoundIn _) (hmemory.trans hgrows) fun content hmem => ?_
    rw [hsaved _ hs content hmem]
    exact .refl

/-- **A call that does not rebind** keeps the bindings, wherever it is cut short. -/
theorem bindings_call (env : Env) (op : Op) : Crash World.apply (bindings s₀).crash
    (fun s w => (bindings s₀).holds s w ∧ ¬ op.Rebinds env s.orchestrator)
    (Process.policy (call config.policy env op)) (fun _ => (bindings s₀).holds) := by
  have hstep (o : PaymentOrchestrator) : Step config.policy env o op _ _ _ := (Calls.of_call config.policy env o op).step
  refine bindings_saving (P := fun o => ¬ op.Rebinds env o) (fun o hop => (hstep o).boundIn hop) fun o _ content hmem => ?_
  rcases (hstep o).saves_or config.policy_storePath with ⟨hnone, _⟩ | hone
  · rw [hnone] at hmem
    cases hmem
  · rw [hone] at hmem
    exact List.mem_singleton.mp hmem

/-- A computation of the policy engine that leaves the store alone. -/
theorem bindings_policy {α : Type} {m : Policy α} (hstore : ∀ o, (m.run o).state.store = o.store)
    (hsaves : ∀ o, saves (m.run o).effects = []) : (bindings s₀).Keeps (Process.policy m) := by
  have hsaving := @bindings_saving s₀ _ (fun _ => True) m (fun o _ => by rw [hstore]; exact .refl) fun o _ content hmem => by
    rw [hsaves] at hmem
    cases hmem
  exact hsaving.pre fun _ _ h => ⟨h, trivial⟩

/-- An operation that never rebinds. -/
theorem bindings_safe (env : Env) {op : Op} (hop : ∀ o, ¬ op.Rebinds env o) :
    (bindings s₀).Keeps (Process.policy (call config.policy env op)) :=
  (bindings_call config env op).pre fun s _ h => ⟨h, hop s.orchestrator⟩

/-! ## Snapshot and recovery -/

theorem bindings_snapshotState : (bindings s₀).Keeps snapshotState := by
  refine Crash.of_effect (w := fun s => .snapshotSave s.snapshot) (fun s => by rw [run_snapshotState]) ?_
  intro s w h
  rw [run_snapshotState]
  exact ⟨h.1, h.1, h⟩

theorem bindings_readsBack : (bindings s₀).ReadsBack config where
  logs event fields := by
    refine bindings_policy (fun o => ?_) fun o => ?_
    · rw [run_audit]
      rfl
    · rw [run_audit]
      show saves (config.policy.audited _) = []
      exact saves_audited _
  assigns id r := bindings_policy (fun _ => rfl) fun _ => rfl
  reconciles env id := by
    have hcall : (bindings s₀).Keeps (Process.policy (call config.policy env (.reconcileSettlement id))) :=
      bindings_safe config env fun _ h => h
    exact Frame.Keeps.policy_of_map (g := Answer.reconciled) hcall

theorem bindings_ignoresInbox : (bindings s₀).IgnoresInbox := fun _ _ _ h => h

theorem bindings_maybeRecover (env : String → Env) (reconcile : Bool) :
    (bindings s₀).Keeps (maybeRecover config env reconcile) :=
  bindings_ignoresInbox.maybeRecover config env reconcile bindings_snapshotState fun _ _ _ _ _ =>
    (bindings_readsBack config).recoverRecords env reconcile _

/-! ## Activities -/

theorem bindings_admits (penv : ProcessEnv) : (bindings s₀).Admits config penv where
  call op hop := by
    refine bindings_safe config penv.env fun o h => ?_
    cases op with
    | execute | confirmSettled _ => cases hop
    | _ => exact h
  verify _ _ := Crash.emit fun _ _ h => ⟨h.1, h.1, h⟩
  recover _ := bindings_maybeRecover config _ true

theorem bindings_handler (penv : ProcessEnv) (command : Command) (hexecute : command ≠ .execute) :
    (bindings s₀).Keeps (handler config penv command) :=
  (bindings_admits config penv).handler_inbox bindings_ignoresInbox command hexecute

theorem bindings_handleExecute (penv : ProcessEnv) : Crash World.apply (bindings s₀).crash
    (fun s w => (bindings s₀).holds s w ∧ ¬ Op.Rebinds penv.env s.orchestrator .execute) (handleExecute config penv)
    (fun _ => (bindings s₀).holds) := by
  have hcall := @bindings_call config s₀ penv.env .execute
  have hmap : Process.policy (call config.policy penv.env .execute) =
      Process.policy (execute config.policy penv.env) >>= fun receipt => pure (.receipt receipt) :=
    Frame.Keeps.policy_eq_map _ _
  rw [hmap] at hcall
  exact Crash.seq hcall.of_map (fun _ => Frame.Keeps.still (still_respond _ _)) fun _ _ h => h

/-- **An activity that does not rebind** keeps the bindings, wherever it is cut short. -/
theorem bindings_run (a : Activity) (written : Bool) : Crash World.apply (bindings s₀).crash
    (fun s w => (bindings s₀).holds s w ∧ ¬ a.Rebinds s) (a.run config written) (fun _ => (bindings s₀).holds) := by
  have hbody : Crash World.apply (bindings s₀).crash (fun s w => (bindings s₀).holds s w ∧ ¬ a.Rebinds s) (a.body config)
      (fun _ => (bindings s₀).holds) := by
    cases a with
    | call env op => exact Crash.seq (bindings_call config env op) (fun _ => Frame.Keeps.still (Proc.Still.pure _)) fun _ _ h => h
    | line penv parsed =>
        cases parsed with
        | error e => exact (Frame.Keeps.still (Proc.Still.raise e)).pre fun _ _ h => h.1
        | ok command =>
            by_cases hexecute : command = .execute
            · subst hexecute
              exact Crash.seq (bindings_handleExecute config penv) (fun _ => Frame.Keeps.still (Proc.Still.pure _)) fun _ _ h => h
            · have hhandler : (bindings s₀).Keeps (handler config penv command) :=
                bindings_handler config penv command hexecute
              exact (hhandler.respond fun _ => Proc.Still.pure _).pre fun _ _ h => h.1
  exact Activity.crash hbody bindings_snapshotState written

end

/-! ## Runs -/

section

variable {config : ProcessConfig} {n n' : Node} {i : FaultEvent} {h : List (Event Node FaultEvent)}

/-- The process in memory knows every binding of the store file. -/
def Node.Bound (n : Node) : Prop := ∀ s, n.proc = some s → n.world.store.BoundIn s.orchestrator.store

/-- **Every step** that does not rebind keeps the bindings in the file, and the process knows them. -/
theorem FaultStep.boundIn (hstep : FaultStep config n i n') (hn : n.Bound) (hop : ¬ RebindingStep ⟨n, i, n'⟩) :
    n.world.store.BoundIn n'.world.store ∧ n'.Bound := by
  have hframe : (bindings n.world.store).Covers n' := by
    refine hstep.covers (fun _ _ _ h => h) ?_ ?_
    · rintro w s a written rfl ha
      exact bindings_run config a written s w ⟨⟨.refl, hn s rfl⟩, fun hbad => hop ⟨s, a, rfl, ha, hbad⟩⟩
    · rintro w pass rfl _
      exact bindings_maybeRecover config pass.env true w.boot w ⟨.refl, .refl⟩
  exact ⟨hframe.1, fun s hs => (hframe.2 s hs).2⟩

/-- **Durable bindings are written once** in every run in which neither `execute` nor `confirm_settled` records another
    receipt under an intent that the store in memory binds. -/
theorem bindings_kept (hrun : FaultRun config h n) (hop : ∀ e ∈ h, ¬ RebindingStep e) : WriteOnce h := by
  have hboth : WriteOnce h ∧ n.Bound := by
    induction hrun with
    | nil hinit =>
        refine ⟨fun e he => absurd he List.not_mem_nil, ?_⟩
        cases hinit
        nofun
    | @snoc h n n' i hrun hstep ih =>
        obtain ⟨hpast, hn⟩ := ih fun e he => hop e (List.mem_append_left _ he)
        have hlast : (⟨n, i, n'⟩ : Event Node FaultEvent) ∈ h ++ [⟨n, i, n'⟩] :=
          List.mem_append_right _ (List.mem_singleton_self _)
        obtain ⟨hkept, hn'⟩ := hstep.boundIn hn (hop _ hlast)
        refine ⟨fun e he => ?_, hn'⟩
        rcases List.mem_append.mp he with he | he
        · exact hpast e he
        · obtain rfl := List.mem_singleton.mp he
          exact hkept
  exact hboth.1

end

namespace Sample

/-- A payment whose dispatch failed. -/
def stuck : World × ProcessState :=
  performs process booted (calls (approved "i" 0 ++ [(.execute, env 0 (.error (.adapterError "down")))]))

def acceptReceipt : Activity := .call (env 0 paid) (.receiveReceipt (receipt "i" "ref"))

/-- The process is killed after the store file has been replaced, and before the snapshot is. -/
def killedInReceipt : World := (Cut.mk 2 .nothing).world stuck.1 ((acceptReceipt.run process true).run stuck.2).effects

/-- It is started again, and its operator confirms the payment. -/
def confirming : Activity := .call (env 0 paid) (.confirmSettled "i")

/-- The history up to the start after the kill. -/
def restartHistory : List (Event Node FaultEvent) :=
  [⟨⟨.empty, none⟩, .started pass, ⟨booted.1, some booted.2⟩⟩] ++
    performsHistory process booted (calls (approved "i" 0 ++ [(.execute, env 0 (.error (.adapterError "down")))])) ++
      [⟨⟨stuck.1, some stuck.2⟩,
          .killed acceptReceipt true (((acceptReceipt.run process true).run stuck.2).effects.take 2), ⟨killedInReceipt, none⟩⟩] ++
        [⟨⟨killedInReceipt, none⟩, .started pass,
          ⟨killedInReceipt.after (killedInReceipt.start process pass).effects, some (killedInReceipt.start process pass).state⟩⟩]

theorem restartHistory_run : FaultRun process restartHistory
    ⟨killedInReceipt.after (killedInReceipt.start process pass).effects, some (killedInReceipt.start process pass).state⟩ := by
  have hstuck := booted_faultRun.performs process
    (calls (approved "i" 0 ++ [(.execute, env 0 (.error (.adapterError "down")))]))
  have hkilled := hstuck.snoc (FaultStep.killed _ _ acceptReceipt true ⟨2, .nothing⟩)
  exact hkilled.snoc (FaultStep.started killedInReceipt pass (by decide) (by decide))

end Sample

/-- A confirmation replaces the binding of a receipt. -/
theorem binding_replaced : ¬ ∀ (config : ProcessConfig) (h : List (Event Node FaultEvent)) (n : Node),
    FaultRun config h n → WriteOnce h := by
  intro hall
  have hconfirmed := Sample.restartHistory_run.snoc (FaultStep.performed _ _ Sample.confirming true)
  have hkept := hall _ _ _ hconfirmed _ (List.mem_append_right _ (List.mem_singleton_self _)) "i" "ref" (by decide)
  exact absurd hkept (by decide)

/-- Without the confirmation the binding stays. -/
theorem bindings_kept_receipt : WriteOnce Sample.restartHistory := by
  refine bindings_kept Sample.restartHistory_run ?_
  rintro e he ⟨s, a, hs, ha, hbad⟩
  rcases List.mem_append.mp he with he | he
  · rcases List.mem_append.mp he with he | he
    · rcases List.mem_append.mp he with he | he
      · obtain rfl := List.mem_singleton.mp he
        cases hs
      · -- nothing is bound yet
        have hunbound : ∀ e ∈ performsHistory Sample.process Sample.booted
              (Sample.calls (Sample.approved "i" 0 ++ [(.execute, Sample.env 0 (.error (.adapterError "down")))])),
            e.before.proc.all (fun s => s.orchestrator.store.receipts.entries = []) = true := by decide
        have hnone := hunbound e he
        rw [hs] at hnone
        exact Activity.not_rebinds_of_unbound (of_decide_eq_true hnone) a hbad
    · obtain rfl := List.mem_singleton.mp he
      cases ha
      exact hbad
  · obtain rfl := List.mem_singleton.mp he
    cases ha

end HermesPayments
