import HermesPayments.Lib.Resumed
import HermesPayments.Policy.Correctness.AuditTrail
import HermesPayments.Process.Handlers
import HermesPayments.Process.Restart

/-!
# `HermesPayments.Process.Trail` — what the audit file tells

The lines of the audit file about an intent are those of an automaton that is interrupted (`World.Logged`): a call of the
policy engine leads on, and a process that reads its snapshot back goes on from the state it finds there, which is one that
the file shows. Wherever the effects are cut, the line that announces a dispatch stands before it.
-/

namespace HermesPayments

open Lib PaymentState

/-! ## Audit entries -/

/-- The state the entry shows for the intent, when it is about that intent. -/
def AuditEntry.shownState? (id : String) (entry : AuditEntry) : Option (Option AuditValue) :=
  if entry.field? "intent_id" = some (.str id) then some (entry.field? "state") else none

/-- The entry announces that the payment of the intent is dispatched. -/
def AuditEntry.executes (id : String) (entry : AuditEntry) : Bool :=
  entry.event = "executing" && entry.field? "intent_id" = some (.str id)

def Effect.entry? : Effect → Option AuditEntry
  | .auditAppend entry => some entry
  | _ => none

/-- The entries appended among the effects. -/
def auditEntries (es : List Effect) : List AuditEntry := es.filterMap Effect.entry?

/-- The intents dispatched among the effects. -/
def dispatchedIds (es : List Effect) : List String := (dispatches es).map Prod.fst

/-- Wherever the effects are cut, each dispatch of the intent has an entry that announced it. -/
def Announces (id : String) (es : List Effect) : Prop :=
  ∀ k, (dispatchedIds (es.take k)).count id ≤ (auditEntries (es.take k)).countP (AuditEntry.executes id)

section

variable {cfg : Config} {env : Env} {o o' : PaymentOrchestrator} {op : Op} {res : Except Exc Answer} {es : List Effect}
  {id : String}

theorem auditStates_eq (es : List Effect) :
    auditStates id es = (auditEntries es).filterMap (AuditEntry.shownState? id) := by
  unfold auditStates auditEntries
  rw [List.filterMap_filterMap]
  congr 1
  funext e
  cases e <;> rfl

/-- A path cut short is a path. -/
theorem PaymentState.Leads.take {s t : PaymentState} {path : List PaymentState} (h : s.Leads path t) (k : Nat) :
    ∃ u, s.Leads (path.take k) u := by
  induction path generalizing s k with
  | nil => exact ⟨s, by rw [List.take_nil]; rfl⟩
  | cons v path ih =>
      cases k with
      | zero => exact ⟨s, rfl⟩
      | succ k =>
          obtain ⟨u, hu⟩ := ih h.2 k
          exact ⟨u, h.1, hu⟩

/-- An automaton that goes along a path logs the path. -/
theorem PaymentState.Leads.resumed {s t : PaymentState} {path log : List PaymentState} (hlead : s.Leads path t)
    (h : Resumed PaymentState.Moves DRAFT log s) : Resumed PaymentState.Moves DRAFT (log ++ path) t := by
  induction path generalizing s log with
  | nil =>
      rw [List.append_nil, ← show s = t from hlead]
      exact h
  | cons v path ih =>
      have hgoes := ih hlead.2 (h.move hlead.1)
      rwa [List.append_assoc, List.singleton_append] at hgoes

/-- What has been logged when the effects are cut. -/
theorem auditStates_take {s t : PaymentState} {path : List PaymentState} (hes : auditStates id es = path.map shown)
    (hlead : s.Leads path t) (k : Nat) :
    ∃ path' u, auditStates id (es.take k) = List.map shown path' ∧ s.Leads path' u := by
  have hprefix : auditStates id (es.take k) <+: auditStates id es := (List.take_prefix k es).filterMap _
  rw [hes, List.prefix_iff_eq_take, ← List.map_take] at hprefix
  obtain ⟨u, hu⟩ := hlead.take (auditStates id (es.take k)).length
  exact ⟨_, u, hprefix, hu⟩

theorem Announces.of_none (h : dispatches es = []) : Announces id es := by
  intro k
  have hsub : (dispatches (es.take k)).Sublist (dispatches es) := (List.take_sublist k es).filterMap _
  rw [h, List.sublist_nil] at hsub
  rw [dispatchedIds, hsub]
  exact Nat.zero_le _

/-- The entry, then the dispatch, then no other. -/
theorem Announces.of_dispatch (hpath : cfg.auditPath.isSome = true) {entry : AuditEntry} {k hash : String} {payload : Bytes}
    {rest : List Effect} (hexecutes : entry.executes k = true) (hrest : dispatches rest = []) :
    Announces id (cfg.audited entry ++ .executeCall k payload hash :: rest) := by
  rw [Config.audited, if_pos hpath]
  intro j
  rcases j with _ | _ | j
  · exact Nat.zero_le _
  · exact Nat.zero_le _
  · have hsub : (dispatches (rest.take j)).Sublist (dispatches rest) := (List.take_sublist j rest).filterMap _
    rw [hrest, List.sublist_nil] at hsub
    show (k :: dispatchedIds (rest.take j)).count id ≤ (entry :: auditEntries (rest.take j)).countP _
    rw [dispatchedIds, hsub, List.map_nil, List.count_singleton]
    by_cases hk : k = id
    · -- the entry stands before the dispatch, so the count of entries is ahead
      subst hk
      rw [List.countP_cons_of_pos hexecutes]
      simp
    · rw [if_neg (by simpa using hk)]
      exact Nat.zero_le _

/-- **A call announces what it dispatches.** -/
theorem Step.announces (hstep : Step cfg env o op res o' es) (hpath : cfg.auditPath.isSome = true) (ho : o.Consistent)
    (id : String) : Announces id es := by
  have hexecutes {k : String} {r : IntentRecord} (hfirst : o.firstIn APPROVED = some (k, r)) (seq : Nat)
      (state : AuditValue) :
      AuditEntry.executes k ⟨seq, "executing", [("intent_id", .str r.intent.id), ("state", state)]⟩ = true := by
    have hr := (PaymentOrchestrator.record?_of_firstIn hfirst).1
    rw [(ho.records k r hr).intent_id]
    simp [AuditEntry.executes, AuditEntry.field?]
  rcases hstep.dispatches with hnone | ⟨rfl, _⟩
  · exact .of_none hnone
  cases hstep with
  | refused _ _ hquiet _ => exact .of_none (dispatches_quiet hquiet)
  | dispatchAmbiguous hfirst _ _ _ _ _ _ _ => exact .of_dispatch hpath (hexecutes hfirst _ _) (dispatches_audited _)
  | dispatchStranded hfirst _ _ => exact .of_dispatch hpath (hexecutes hfirst _ _) rfl
  | dispatchSettled hfirst _ _ _ _ =>
      refine .of_dispatch hpath (hexecutes hfirst _ _) ?_
      rw [dispatches_append, dispatches_saved, dispatches_audited]
      rfl

end

/-! ## The file -/

/-- The states that the entries in the audit file show for an intent. -/
def World.shown (id : String) (w : World) : List (Option AuditValue) :=
  w.audit.written.filterMap (AuditEntry.shownState? id)

/-- The state of an intent in the snapshot file. -/
def World.stateOf (id : String) (w : World) : PaymentState := (w.record? id).elim DRAFT SnapshotRecord.state

/-- The audit file shows for the intent what an automaton logs that is now in state `s`. The state in the snapshot file is
    among what it shows, and each dispatch was announced. -/
structure World.Logged (id : String) (s : PaymentState) (w : World) : Prop where
  trail     : ∃ path, w.shown id = List.map PaymentState.shown path ∧ Resumed PaymentState.Moves DRAFT path s ∧
    w.stateOf id ∈ DRAFT :: path
  announced : w.dispatched.count id ≤ w.audit.written.countP (AuditEntry.executes id)

section

variable {config : ProcessConfig} {id : String} {s t : PaymentState} {w : World}

theorem World.logged_empty : World.empty.Logged id DRAFT :=
  ⟨⟨[], rfl, .start, List.mem_cons_self⟩, Nat.zero_le _⟩

/-- What is read back from the snapshot goes on from there. -/
theorem World.Logged.resume (h : w.Logged id s) : w.Logged id (w.stateOf id) := by
  obtain ⟨⟨path, hshown, hresumed, hfile⟩, hannounced⟩ := h
  exact ⟨⟨path, hshown, hresumed.resume hfile, hfile⟩, hannounced⟩

/-- What a new process has not read yet starts over. -/
theorem World.Logged.fresh (h : w.Logged id s) : w.Logged id DRAFT := by
  obtain ⟨⟨path, hshown, hresumed, hfile⟩, hannounced⟩ := h
  exact ⟨⟨path, hshown, hresumed.resume List.mem_cons_self, hfile⟩, hannounced⟩

/-- The snapshot of what is in memory. -/
theorem World.Logged.saved (h : w.Logged id s) {p : ProcessState} (hp : p.orchestrator.stateOf id = s) :
    (w.apply (.snapshotSave p.snapshot)).Logged id s := by
  obtain ⟨⟨path, hshown, hresumed, _⟩, hannounced⟩ := h
  refine ⟨⟨path, hshown, hresumed, ?_⟩, hannounced⟩
  have hstate : (w.apply (.snapshotSave p.snapshot)).stateOf id = s := by
    show (p.snapshot.records.get? id).elim DRAFT SnapshotRecord.state = s
    rw [p.get?_snapshot, ← hp, PaymentOrchestrator.stateOf]
    cases p.orchestrator.record? id <;> rfl
  rw [hstate]
  exact hresumed.mem

/-- The files after the effects of the policy engine. -/
theorem World.after_policyEffects (w : World) (es : List Effect) :
    (w.after (policyEffects es)).audit.written = w.audit.written ++ auditEntries es ∧
      (w.after (policyEffects es)).dispatched = w.dispatched ++ dispatchedIds es ∧
      (w.after (policyEffects es)).snapshot = w.snapshot := by
  induction es generalizing w with
  | nil => exact ⟨(List.append_nil _).symm, (List.append_nil _).symm, rfl⟩
  | cons e es ih =>
      obtain ⟨haudit, hdispatched, hsnapshot⟩ := ih (w.apply (.peer (.policy e)))
      show (World.after _ (policyEffects es)).audit.written = _ ∧ (World.after _ (policyEffects es)).dispatched = _ ∧
        (World.after _ (policyEffects es)).snapshot = _
      rw [haudit, hdispatched, hsnapshot]
      cases e with
      | auditAppend entry =>
          refine ⟨?_, rfl, rfl⟩
          rw [World.apply, AuditFile.written_append, List.append_assoc]
          rfl
      | executeCall id payload hash => exact ⟨rfl, List.append_assoc _ _ _, rfl⟩
      | storeSave _ | prepareCall _ _ _ _ _ | verifyCall _ _ _ _ | reconcileCall _ _ _ _ => exact ⟨rfl, rfl, rfl⟩

/-- Effects of the policy engine that lead on, and announce what they dispatch. -/
theorem World.Logged.policy (h : w.Logged id s) {es : List Effect} {path : List PaymentState}
    (hes : auditStates id es = List.map PaymentState.shown path) (hlead : s.Leads path t)
    (hannounces : (dispatchedIds es).count id ≤ (auditEntries es).countP (AuditEntry.executes id)) :
    (w.after (policyEffects es)).Logged id t := by
  obtain ⟨⟨before, hshown, hresumed, hfile⟩, hannounced⟩ := h
  obtain ⟨haudit, hdispatched, hsnapshot⟩ := w.after_policyEffects es
  have hstate : (w.after (policyEffects es)).stateOf id = w.stateOf id := by
    unfold World.stateOf World.record?
    rw [hsnapshot]
  refine ⟨⟨before ++ path, ?_, ?_, ?_⟩, ?_⟩
  · rw [World.shown, haudit, List.filterMap_append, ← auditStates_eq, hes, List.map_append, ← hshown, World.shown]
  · exact hlead.resumed hresumed
  · rw [hstate, ← List.cons_append]
    exact List.mem_append_left _ hfile
  · rw [hdispatched, haudit, List.count_append, List.countP_append]
    omega

/-- … wherever they are cut. -/
theorem World.Logged.policy_take (h : w.Logged id s) {es : List Effect} {path : List PaymentState}
    (hes : auditStates id es = path.map PaymentState.shown) (hlead : s.Leads path t) (hannounces : Announces id es)
    (k : Nat) : ∃ u, (w.after ((policyEffects es).take k)).Logged id u := by
  obtain ⟨path', u, hes', hlead'⟩ := auditStates_take hes hlead k
  refine ⟨u, ?_⟩
  -- a cut of the effects is a cut of the lines, and of the path they show
  have hafter := h.policy hes' hlead' (hannounces k)
  rwa [policyEffects, List.map_take] at hafter

/-- **A call of the policy engine** leads from the state before it to the state after it. -/
theorem World.Logged.call {o o' : PaymentOrchestrator} {c : Call} (hcall : Calls config.policy o c o') (ho : o.Consistent)
    (hsave : c.env.saves config.policy) (h : w.Logged id (o.stateOf id)) :
    (∀ k, ∃ u, (w.after ((policyEffects c.effects).take k)).Logged id u) ∧
      (w.after (policyEffects c.effects)).Logged id (o'.stateOf id) := by
  obtain ⟨path, hes, hlead⟩ := hcall.step.audits rfl hsave ho id
  have hannounces := hcall.step.announces rfl ho id
  refine ⟨h.policy_take hes hlead hannounces, h.policy hes hlead ?_⟩
  have hall := hannounces c.effects.length
  rwa [List.take_length] at hall

end

/-! ## Recovery -/

/-- The effects show the states of `path` for the intent, and pay nothing. -/
def Tells (id : String) (path : List PaymentState) (es : List ProcessEffect) : Prop :=
  ∃ fs, es = policyEffects fs ∧ dispatches fs = [] ∧ auditStates id fs = List.map PaymentState.shown path

section

variable {config : ProcessConfig} {env : Env} {id j : String} {path path' : List PaymentState} {es fs : List ProcessEffect}
  {w : World} {s t : PaymentState} {d : SnapshotRecord}

theorem Tells.nil : Tells id [] [] := ⟨[], rfl, rfl, rfl⟩

theorem Tells.append (hes : Tells id path es) (hfs : Tells id path' fs) : Tells id (path ++ path') (es ++ fs) := by
  obtain ⟨es, rfl, hesd, hess⟩ := hes
  obtain ⟨fs, rfl, hfsd, hfss⟩ := hfs
  refine ⟨es ++ fs, List.map_append.symm, ?_, ?_⟩
  · rw [dispatches_append, hesd, hfsd]
    rfl
  · rw [auditStates_append, hess, hfss, List.map_append]

variable (config) in
/-- A line about an intent. -/
theorem Tells.audited {entry : AuditEntry} (hid : entry.field? "intent_id" = some (.str j))
    (hst : entry.field? "state" = some (.str s.value)) :
    Tells id (if id = j then [s] else []) (policyEffects (config.policy.audited entry)) := by
  refine ⟨_, rfl, dispatches_audited _, ?_⟩
  rw [auditStates_audited rfl hid hst]
  split <;> rfl

/-- What is told leads on. -/
theorem World.Logged.told (h : w.Logged id s) (htells : Tells id path es) (hlead : s.Leads path t) :
    (∀ k, ∃ u, (w.after (es.take k)).Logged id u) ∧ (w.after es).Logged id t := by
  obtain ⟨fs, rfl, hdispatches, hshown⟩ := htells
  have hannounces : Announces id fs := .of_none hdispatches
  refine ⟨h.policy_take hshown hlead hannounces, h.policy hshown hlead ?_⟩
  have hall := hannounces fs.length
  rwa [List.take_length] at hall

variable (config env id) in
/-- A query for an intent in reconciliation shows it there. -/
theorem tells_reconcileSettlement {o : PaymentOrchestrator} {r : IntentRecord} (hr : o.record? j = some r)
    (hrec : r.Consistent j) : ∃ path,
    Tells id path (policyEffects ((reconcileSettlement config.policy env j).run o).effects) ∧ (id ≠ j → path = []) ∧
      ∀ u ∈ path, u = r.state := by
  by_cases hstate : r.state = RECONCILIATION_REQUIRED
  swap
  · refine ⟨[], ?_, fun _ => rfl, fun _ hu => absurd hu List.not_mem_nil⟩
    simp [reconcileSettlement, Proc.run_bind, run_getRecord_some hr, hstate, Tells.nil]
  cases hprep : r.prepared with
  | none =>
      refine ⟨[], ?_, fun _ => rfl, fun _ hu => absurd hu List.not_mem_nil⟩
      simp [reconcileSettlement, Proc.run_bind, run_getRecord_some hr, hstate, hprep, Tells.nil]
  | some prep =>
      let result := queryResult config.policy.isAlnum env r.intent.amountSat prep
      let entry : AuditEntry := ⟨o.auditSeq, "settlement_reconciled", [("intent_id", .str r.intent.id),
        ("status", .str result.status), ("amount_sat", .int result.amountSat), ("fee_sat", .int result.feeSat),
        ("state", .str RECONCILIATION_REQUIRED.value)]⟩
      have hrun : ((reconcileSettlement config.policy env j).run o).effects =
          .reconcileCall j prep.preparedPayload prep.preparedHash r.intent.amountSat :: config.policy.audited entry := by
        simp only [reconcileSettlement, Proc.run_bind, run_getRecord_some hr, hstate, hprep, ne_eq,
          not_true_eq_false, if_false, Proc.run_emit, Proc.run_pure, run_updateRecord, run_audit, Proc.after_mk]
        rw [List.nil_append, List.nil_append, List.append_nil]
        rfl
      refine ⟨if id = j then [RECONCILIATION_REQUIRED] else [], ?_, fun hne => if_neg hne, ?_⟩
      · rw [hrun]
        have hcall : Tells id []
            (policyEffects [.reconcileCall j prep.preparedPayload prep.preparedHash r.intent.amountSat]) :=
          ⟨_, rfl, rfl, rfl⟩
        exact hcall.append (Tells.audited config (by rw [← hrec.intent_id]; rfl) rfl)
      · intro u hu
        split at hu
        · rw [List.mem_singleton.mp hu, hstate]
        · cases hu

variable (config env id) in
/-- The record goes to memory silently, and the query leaves it where it is. -/
theorem tells_putBack (p : ProcessState) (hd : d.restore.Consistent j) : ∃ path,
    Tells id path ((putBack config env true j d.recovered).run p).effects ∧ (id ≠ j → path = []) ∧
      ∀ u ∈ path, u = d.recovered.state := by
  let o' : PaymentOrchestrator := { p.orchestrator with intents := p.orchestrator.intents.set j d.recovered }
  have hrecord : o'.record? j = some d.recovered := by
    show (p.orchestrator.intents.set j d.recovered).get? j = _
    rw [p.orchestrator.intents.get?_set, if_pos rfl]
  have hset : (Process.policy
      (Proc.modify fun o : PaymentOrchestrator => { o with intents := o.intents.set j d.recovered })).run p
        = ⟨.ok (), { p with orchestrator := o' }, []⟩ := run_process_policy _ _
  rw [putBack, Proc.run_bind_ok hset, Proc.after_nil]
  by_cases hstate : d.recovered.state = RECONCILIATION_REQUIRED
  · obtain ⟨path, htells, hpath⟩ := tells_reconcileSettlement config env id hrecord
      (SnapshotRecord.recovered_consistent hd)
    refine ⟨path, ?_, hpath⟩
    rw [if_pos (by simpa using hstate), (Proc.run_map _ _ _).1, run_process_policy]
    exact htells
  · refine ⟨[], ?_, fun _ => rfl, fun _ hu => absurd hu List.not_mem_nil⟩
    rw [if_neg (by simpa using hstate)]
    exact .nil

variable (config env id) in
/-- **A record that is read back**: for the intent itself, a dispatch that was under way is shown as one to reconcile. -/
theorem tells_recoverRecord (p : ProcessState) (hd : d.restore.Consistent j) : ∃ path,
    Tells id path ((recoverRecord config env true j d).run p).effects ∧ (id ≠ j → path = []) ∧
      (id = j → d.state.Leads path d.recovered.state) := by
  rw [recoverRecord_eq]
  by_cases hexec : d.state = EXECUTING
  · have hlog : (Process.policy (audit config.policy "recovered_executing"
        [("intent_id", .str j), ("state", .str RECONCILIATION_REQUIRED.value)])).run p
        = ⟨.ok (), { p with orchestrator := p.orchestrator.logged },
          policyEffects (config.policy.audited ⟨p.orchestrator.auditSeq, "recovered_executing",
            [("intent_id", .str j), ("state", .str RECONCILIATION_REQUIRED.value)]⟩)⟩ := by
      rw [run_process_policy, run_audit]
    obtain ⟨path, htells, hother, hstay⟩ := tells_putBack config env id
      { p with orchestrator := p.orchestrator.logged } hd
    rw [if_pos hexec, Proc.run_bind_ok hlog]
    refine ⟨_, Tells.append (Tells.audited config (s := RECONCILIATION_REQUIRED) rfl rfl) htells, ?_, ?_⟩
    · intro hne
      rw [if_neg hne, hother hne]
      rfl
    · intro hid
      -- the line of the recovery is the one move, and a query stays where it led
      have hrecovered : d.recovered.state = RECONCILIATION_REQUIRED := if_pos hexec
      rw [if_pos hid, hexec, hrecovered]
      refine ⟨by decide, .stay fun u hu => ?_⟩
      rw [hstay u hu, hrecovered]
  · obtain ⟨path, htells, hother, hstay⟩ := tells_putBack config env id p hd
    have hrecovered : d.recovered.state = d.state := if_neg hexec
    rw [if_neg hexec]
    refine ⟨path, htells, hother, fun _ => ?_⟩
    rw [hrecovered] at hstay ⊢
    exact .stay hstay

variable (config id) in
/-- The loop over records with distinct ids. -/
theorem tells_recoverRecords (env : String → Env) (entries : List (String × SnapshotRecord)) (p : ProcessState)
    (hnd : (entries.map Prod.fst).Nodup) (hcons : ∀ e ∈ entries, e.2.restore.Consistent e.1) : ∃ path,
    Tells id path ((recoverRecords config env true entries).run p).effects ∧
      (id ∉ entries.map Prod.fst → path = []) ∧
      ∀ d, (id, d) ∈ entries → d.state.Leads path d.recovered.state := by
  induction entries generalizing p with
  | nil => exact ⟨[], .nil, fun _ => rfl, fun _ hd => absurd hd List.not_mem_nil⟩
  | cons e rest ih =>
      obtain ⟨j, d⟩ := e
      obtain ⟨hfresh, hnd⟩ := List.nodup_cons.mp hnd
      obtain ⟨hd, hcons⟩ := List.forall_mem_cons.mp hcons
      obtain ⟨p', es, hrun, _, _⟩ := run_recoverRecord config (env j) p hd
      obtain ⟨path, htells, hother, hlead⟩ := tells_recoverRecord config (env j) id p hd
      obtain ⟨path', htells', hout, hin⟩ := ih p' hnd hcons
      rw [hrun] at htells
      rw [recoverRecords, Proc.run_bind_ok hrun]
      refine ⟨path ++ path', htells.append htells', ?_, ?_⟩
      · intro hid
        rw [List.map_cons, List.mem_cons, not_or] at hid
        rw [hother hid.1, hout hid.2]
        rfl
      · intro d' hmem
        rcases List.mem_cons.mp hmem with heq | hmem
        · -- the later records do not speak of this intent
          cases heq
          rw [hout hfresh, List.append_nil]
          exact hlead rfl
        · have hne : id ≠ j := by
            intro hid
            exact hfresh (hid ▸ List.mem_map.mpr ⟨_, hmem, rfl⟩)
          rw [hother hne]
          exact hin d' hmem

/-- The snapshot is written after what led to the state in memory. -/
theorem World.Logged.snapshot {p : ProcessState} (hcut : ∀ k, ∃ u, (w.after (es.take k)).Logged id u)
    (h : (w.after es).Logged id (p.orchestrator.stateOf id)) :
    (∀ k, ∃ u, (w.after ((es ++ [ProcessEffect.snapshotSave p.snapshot]).take k)).Logged id u) ∧
      (w.after (es ++ [ProcessEffect.snapshotSave p.snapshot])).Logged id (p.orchestrator.stateOf id) := by
  have hsaved := h.saved rfl
  refine ⟨forall_take_append (C := fun w => ∃ u, World.Logged id u w) hcut fun k => ?_, ?_⟩
  · cases k with
    | zero => exact ⟨_, h⟩
    | succ k =>
        rw [List.take_succ_cons, List.take_nil]
        exact ⟨_, hsaved⟩
  · rw [World.after, applyAll_append]
    exact hsaved

/-- What an intent of the snapshot is recovered in, and that the others stay. -/
theorem Recovers.stateOf {snapshot : ProcessSnapshot} {p p' : ProcessState} (h : Recovers snapshot p p') (id : String) :
    p'.orchestrator.stateOf id =
      ((snapshot.records.get? id).map fun d => d.recovered.state).getD (p.orchestrator.stateOf id) := by
  cases hd : snapshot.records.get? id with
  | none =>
      unfold PaymentOrchestrator.stateOf
      rw [h.others id hd]
      rfl
  | some d =>
      obtain ⟨r, hr, _, rfl⟩ := h.records id d hd
      have hstate := PaymentOrchestrator.stateOf_of_record? hr
      exact hstate

variable (config) in
/-- **Recovery**, over the snapshot in the file and whatever is in memory, leads on. -/
theorem World.Logged.maybeRecover (env : String → Env) {p : ProcessState} (h : w.Logged id (p.orchestrator.stateOf id))
    (hfile : p.file = w.snapshot) (hcons : ∀ j d, w.record? j = some d → d.restore.Consistent j) :
    let out := (HermesPayments.maybeRecover config env true).run p
    (∀ k, ∃ u, (w.after (out.effects.take k)).Logged id u) ∧
      (w.after out.effects).Logged id (out.state.orchestrator.stateOf id) := by
  intro out
  have hout : out = (HermesPayments.maybeRecover config env true).run p := rfl
  cases hsnap : w.snapshot with
  | none =>
      have hrun : out = ⟨.ok (), p, []⟩ := by
        rw [hout, HermesPayments.maybeRecover, Proc.run_bind_ok (Proc.run_get p), hfile, hsnap]
        rfl
      rw [hrun]
      exact h.told .nil rfl
  | some snapshot =>
      have hcons' : ∀ e ∈ snapshot.records.entries, e.2.restore.Consistent e.1 := by
        intro e he
        refine hcons e.1 e.2 ?_
        rw [World.record?, hsnap]
        exact Dict.get?_of_mem he
      have hsnapshot : p.file = some snapshot := hfile.trans hsnap
      obtain ⟨p', es, hrun, hrecovers⟩ := run_maybeRecover config env hsnapshot hcons'
      obtain ⟨p₁, es₁, hloop, _⟩ := run_recoverRecords config env snapshot.records.entries p snapshot.records.nodup hcons'
      obtain ⟨path, htells, hothers, hlead⟩ := tells_recoverRecords config id env
        snapshot.records.entries p snapshot.records.nodup hcons'
      rw [hloop] at htells
      -- the trail goes on from the state in the snapshot, if the intent is there
      have hgoes : ∃ s, w.Logged id s ∧ s.Leads path (p'.orchestrator.stateOf id) := by
        rw [hrecovers.stateOf]
        cases hd : snapshot.records.get? id with
        | none =>
            refine ⟨_, h, ?_⟩
            rw [hothers (snapshot.records.get?_eq_none_iff.mp hd)]
            rfl
        | some d =>
            have hstate : w.stateOf id = d.state := by
              rw [World.stateOf, World.record?, hsnap]
              show (snapshot.records.get? id).elim DRAFT _ = _
              rw [hd]
              rfl
            exact ⟨_, hstate ▸ h.resume, hlead d (snapshot.records.get?_eq_some_iff.mp hd)⟩
      obtain ⟨s, hs, hleads⟩ := hgoes
      obtain ⟨hcut, hafter⟩ := hs.told htells hleads
      -- unless the snapshot holds no record, it is written again at the end
      have hshape : out.state.orchestrator = p₁.orchestrator ∧ (out.effects = es₁ ∨
          ∃ q : ProcessState, q.orchestrator = p₁.orchestrator ∧ out.effects = es₁ ++ [.snapshotSave q.snapshot]) := by
        rw [hout, HermesPayments.maybeRecover]
        simp only [Proc.run_bind, Proc.run_get, Proc.after_nil, hsnapshot, hloop, Proc.run_modify, Proc.run_ite,
          run_snapshotState, Proc.run_pure]
        split
        · exact ⟨rfl, .inr ⟨⟨p₁.orchestrator, snapshot.inbox.foldl Inbox.add p₁.inbox, p₁.file⟩, rfl, rfl⟩⟩
        · exact ⟨rfl, .inl (List.append_nil _)⟩
      have hstate : out.state = p' := congrArg Outcome.state hrun
      rw [← hstate] at hafter
      obtain ⟨horch, heffects | ⟨q, hq, heffects⟩⟩ := hshape
      · rw [heffects]
        exact ⟨hcut, hafter⟩
      · rw [horch, ← hq] at hafter ⊢
        rw [heffects]
        exact World.Logged.snapshot hcut hafter

end

end HermesPayments
