import HermesPayments.Process.Frame
import HermesPayments.Process.Runs

/-!
# `HermesPayments.Process.Restart` — a start over files in order succeeds, and what it recovers

`crash_start` says that a start keeps the files in order. Here is the other half (`start_resumes`): over files
in order the start returns, every intent of the snapshot is in memory with its quote, its payload and its
approval, in its state or, for `EXECUTING`, in `RECONCILIATION_REQUIRED`, and the inbox is the snapshot's.
-/

namespace HermesPayments

open Lib PaymentState

/-- The record recovery leaves: the snapshot's, with whatever the adapter said about it. -/
def SnapshotRecord.Resumed (d : SnapshotRecord) (r : IntentRecord) : Prop :=
  ∃ reconciliation, r = { d.recovered with reconciliation := reconciliation }

/-- What a query makes known: the adapter's answer, or `UNKNOWN` when it fails. -/
def queryResult (isAlnum : Char → Bool) (env : Env) (amountSat : Int) (prep : PrepareResult) : ReconcileResult :=
  match env.adapter.reconcileSettlement prep.preparedPayload prep.preparedHash amountSat with
  | .ok result => result
  | .error e =>
      { status := "UNKNOWN",
        error := some s!"reconciliation query failed: {redactSensitive isAlnum e.message}" }

/-- The record one pass leaves: that of the snapshot, with the answer of the query if it is in reconciliation. -/
def SnapshotRecord.answered (isAlnum : Char → Bool) (env : Env) (d : SnapshotRecord) : IntentRecord :=
  if d.recovered.state = RECONCILIATION_REQUIRED then
    { d.recovered with reconciliation := d.prepared.map (queryResult isAlnum env d.intent.amountSat) }
  else d.recovered

theorem SnapshotRecord.answered_resumed (isAlnum : Char → Bool) (env : Env) (d : SnapshotRecord) :
    d.Resumed (d.answered isAlnum env) := by
  unfold answered
  split
  · exact ⟨_, rfl⟩
  · exact ⟨d.recovered.reconciliation, rfl⟩

/-! ## Effects -/

/-- A query of the adapter or an audit line: nothing is prepared, dispatched or saved in the store. -/
def Effect.readOnly : Effect → Bool
  | .auditAppend _ | .reconcileCall _ _ _ _ => true
  | .storeSave _ | .prepareCall _ _ _ _ _ | .executeCall _ _ _ | .verifyCall _ _ _ _ => false

/-- … or the snapshot of the process. -/
def ProcessEffect.readOnly : ProcessEffect → Bool
  | .peer (.policy effect) => effect.readOnly
  | .snapshotSave _ => true
  | .peer (.send _) | .peer (.receive _) | .verifyReceiptCall _ _ | .acceptCall _ => false

theorem readOnly_policy {es : List Effect} (h : ∀ e ∈ es, e.readOnly = true) :
    ∀ e ∈ es.map (fun w => ProcessEffect.peer (.policy w)), e.readOnly = true := by
  intro e he
  obtain ⟨w, hw, rfl⟩ := List.mem_map.mp he
  exact h w hw

theorem readOnly_audited {cfg : Config} {entry : AuditEntry} {e : Effect} (h : e ∈ cfg.audited entry) :
    e.readOnly = true := by
  unfold Config.audited at h
  split at h
  · rw [List.mem_singleton.mp h]
    rfl
  · cases h

section

variable {config : ProcessConfig} {lost : String → Prop}

/-! ## Reading the records back -/

/-- A query for an intent in reconciliation returns, whatever the adapter does. -/
theorem run_reconcileSettlement (cfg : Config) (env : Env) {o : PaymentOrchestrator} {id : String}
    {r : IntentRecord} {prep : PrepareResult} (hr : o.record? id = some r)
    (hstate : r.state = RECONCILIATION_REQUIRED) (hprep : r.prepared = some prep) :
    let result := queryResult cfg.isAlnum env r.intent.amountSat prep
    ∃ es, (reconcileSettlement cfg env id).run o
      = ⟨.ok result, (o.update id (fun r => { r with reconciliation := some result })).logged, es⟩ ∧
        ∀ e ∈ es, e.readOnly = true := by
  intro result
  simp only [reconcileSettlement, Proc.run_bind, run_getRecord_some hr, hstate, hprep, ne_eq,
    not_true_eq_false, if_false, Proc.run_emit, Proc.run_pure, run_updateRecord, run_audit,
    Proc.after_mk]
  refine ⟨_, rfl, ?_⟩
  simp only [List.nil_append, List.append_nil]
  exact List.forall_mem_append.mpr ⟨List.forall_mem_singleton.mpr rfl, fun _ he => readOnly_audited he⟩

/-- What reading one record back does to the state in memory. -/
structure ReadBack (isAlnum : Char → Bool) (env : Env) (id : String) (d : SnapshotRecord) (s s' : ProcessState) :
    Prop where
  store  : s'.orchestrator.store = s.orchestrator.store
  inbox  : s'.inbox = s.inbox
  record : s'.orchestrator.record? id = some (d.answered isAlnum env)
  others : ∀ j, j ≠ id → s'.orchestrator.record? j = s.orchestrator.record? j

theorem run_putBack (config : ProcessConfig) (env : Env) (s : ProcessState) {id : String} {d : SnapshotRecord}
    (hd : d.restore.Consistent id) :
    ∃ s' es, (putBack config env true id d.recovered).run s = ⟨.ok (), s', es⟩ ∧
      ReadBack config.isAlnum env id d s s' ∧ ∀ e ∈ es, e.readOnly = true := by
  let o' : PaymentOrchestrator := { s.orchestrator with intents := s.orchestrator.intents.set id d.recovered }
  have hrecord (j : String) : o'.record? j = if j = id then some d.recovered else s.orchestrator.record? j :=
    s.orchestrator.intents.get?_set id j _
  simp only [putBack, Proc.run_bind, run_process_policy, Proc.run_modify, List.map_nil, Proc.after_nil,
    Bool.true_and, decide_eq_true_eq, Proc.run_ite, Proc.run_pure]
  by_cases hstate : d.recovered.state = RECONCILIATION_REQUIRED
  · have hprepared : d.recovered.prepared.isSome = true :=
      (SnapshotRecord.recovered_consistent hd).prepared_isSome (by rw [hstate]; rfl)
    obtain ⟨prep, hprep⟩ := Option.isSome_iff_exists.mp hprepared
    obtain ⟨es, hrun, hes⟩ := run_reconcileSettlement config.policy env (o := o')
      (by rw [hrecord, if_pos rfl]) hstate hprep
    rw [if_pos hstate]
    simp only [o'] at hrun
    simp only [hrun, Proc.after_mk]
    refine ⟨_, _, rfl, ⟨rfl, rfl, ?_, ?_⟩, ?_⟩
    · show (o'.update id _).record? id = _
      have hprep' : d.prepared = some prep := hprep
      rw [PaymentOrchestrator.record?_update, if_pos rfl, hrecord, if_pos rfl, SnapshotRecord.answered, if_pos hstate,
        hprep']
      rfl
    · intro j hj
      show (o'.update id _).record? j = _
      rw [PaymentOrchestrator.record?_update, if_neg hj, hrecord, if_neg hj]
    · rw [List.append_nil]
      exact readOnly_policy hes
  · rw [if_neg hstate]
    refine ⟨_, _, rfl, ⟨rfl, rfl, ?_, ?_⟩, fun e he => absurd he List.not_mem_nil⟩
    · rw [SnapshotRecord.answered, if_neg hstate]
      exact (hrecord id).trans (if_pos rfl)
    · intro j hj
      exact (hrecord j).trans (if_neg hj)

/-- A consistent record is read back, whatever the adapter says about it. -/
theorem run_recoverRecord (config : ProcessConfig) (env : Env) (s : ProcessState) {id : String} {d : SnapshotRecord}
    (hd : d.restore.Consistent id) :
    ∃ s' es, (recoverRecord config env true id d).run s = ⟨.ok (), s', es⟩ ∧
      ReadBack config.isAlnum env id d s s' ∧ ∀ e ∈ es, e.readOnly = true := by
  rw [recoverRecord_eq]
  by_cases hexec : d.state = EXECUTING
  · rw [if_pos hexec, Proc.run_bind, run_process_policy, run_audit]
    -- the audit line has moved nothing but the sequence number
    obtain ⟨s', es, hrun, hback, hes⟩ :=
      run_putBack config env { s with orchestrator := s.orchestrator.logged } hd
    simp only [hrun, Proc.after_mk]
    refine ⟨s', _, rfl, ⟨hback.store, hback.inbox, hback.record, hback.others⟩, ?_⟩
    exact List.forall_mem_append.mpr ⟨readOnly_policy fun _ hw => readOnly_audited hw, hes⟩
  · rw [if_neg hexec]
    exact run_putBack config env s hd

/-- The loop, over records with distinct ids. -/
theorem run_recoverRecords (config : ProcessConfig) (env : String → Env)
    (entries : List (String × SnapshotRecord)) (s : ProcessState)
    (hnd : (entries.map Prod.fst).Nodup) (hcons : ∀ e ∈ entries, e.2.restore.Consistent e.1) :
    ∃ s' es, (recoverRecords config env true entries).run s = ⟨.ok (), s', es⟩ ∧
      s'.orchestrator.store = s.orchestrator.store ∧ s'.inbox = s.inbox ∧
      (∀ id d, (id, d) ∈ entries → s'.orchestrator.record? id = some (d.answered config.isAlnum (env id))) ∧
      (∀ id, id ∉ entries.map Prod.fst → s'.orchestrator.record? id = s.orchestrator.record? id) ∧
      ∀ e ∈ es, e.readOnly = true := by
  induction entries generalizing s with
  | nil =>
      exact ⟨s, [], rfl, rfl, rfl, fun _ _ hmem => absurd hmem List.not_mem_nil, fun _ _ => rfl,
        fun _ he => absurd he List.not_mem_nil⟩
  | cons e rest ih =>
      obtain ⟨id, d⟩ := e
      have hfresh : id ∉ rest.map Prod.fst := (List.nodup_cons.mp hnd).1
      obtain ⟨s₁, es₁, hrun₁, hback, hes₁⟩ := run_recoverRecord config (env id) s
        (hcons (id, d) List.mem_cons_self)
      obtain ⟨s₂, es₂, hrun₂, hstore, hinbox, hread, hothers, hes₂⟩ := ih s₁ (List.nodup_cons.mp hnd).2
        (fun e he => hcons e (List.mem_cons_of_mem _ he))
      refine ⟨s₂, es₁ ++ es₂, ?_, hstore.trans hback.store, hinbox.trans hback.inbox, ?_, ?_,
        List.forall_mem_append.mpr ⟨hes₁, hes₂⟩⟩
      · rw [recoverRecords, Proc.run_bind_ok hrun₁, hrun₂, Proc.after_mk]
      · intro j d' hmem
        rcases List.mem_cons.mp hmem with heq | hmem
        · cases heq
          -- the later records leave this one alone
          exact (hothers id hfresh).trans hback.record
        · exact hread j d' hmem
      · intro j hj
        rw [List.map_cons, List.mem_cons, not_or] at hj
        rw [hothers j hj.2, hback.others j hj.1]

/-- The process has read its file, and not written it. -/
def unwritten (file : Option ProcessSnapshot) : Frame := ⟨fun _ => True, fun s _ => s.file = file, fun _ => trivial⟩

theorem unwritten_policy {α : Type} (file : Option ProcessSnapshot) (m : Policy α) :
    (unwritten file).Keeps (Process.policy m) := fun _ _ h => ⟨fun _ => trivial, h⟩

/-- The loop leaves the file to the write at the end. -/
theorem file_recoverRecords (config : ProcessConfig) (env : String → Env) (reconcile : Bool)
    (entries : List (String × SnapshotRecord)) (s : ProcessState) :
    ((recoverRecords config env reconcile entries).run s).state.file = s.file := by
  have hreads : (unwritten s.file).ReadsBack config :=
    ⟨fun _ _ => unwritten_policy _ _, fun _ _ => unwritten_policy _ _, fun _ _ => unwritten_policy _ _⟩
  exact (hreads.recoverRecords env reconcile entries s World.empty rfl).2

/-- What recovery over a snapshot does to a process. -/
structure Recovers (snapshot : ProcessSnapshot) (s s' : ProcessState) : Prop where
  store   : s'.orchestrator.store = s.orchestrator.store
  inbox   : s'.inbox = snapshot.inbox.foldl Inbox.add s.inbox
  records : ∀ id d, snapshot.records.get? id = some d → ∃ r, s'.orchestrator.record? id = some r ∧ d.Resumed r
  others  : ∀ id, snapshot.records.get? id = none → s'.orchestrator.record? id = s.orchestrator.record? id
  file    : s'.file = some (if snapshot.records.entries = [] then snapshot else s'.snapshot)

/-- Recovery over a snapshot of consistent records: what it does to memory and file, the record it leaves of each intent of
    the snapshot, and the effects it performs. -/
theorem run_maybeRecover_answered (config : ProcessConfig) (env : String → Env) {s : ProcessState}
    {snapshot : ProcessSnapshot} (hfile : s.file = some snapshot)
    (hcons : ∀ e ∈ snapshot.records.entries, e.2.restore.Consistent e.1) :
    ∃ s' es, (maybeRecover config env true).run s = ⟨.ok (), s', es⟩ ∧ Recovers snapshot s s' ∧
      (∀ id d, snapshot.records.get? id = some d →
        s'.orchestrator.record? id = some (d.answered config.isAlnum (env id))) ∧ ∀ e ∈ es, e.readOnly = true := by
  obtain ⟨s₁, es, hrun, hstore, hinbox, hread, hothers, hes⟩ := run_recoverRecords config env snapshot.records.entries s
    snapshot.records.nodup hcons
  have hkeep : s₁.file = s.file := by
    have hloop := file_recoverRecords config env true snapshot.records.entries s
    rw [hrun] at hloop
    exact hloop
  have hrecords (id : String) (d : SnapshotRecord) (hd : snapshot.records.get? id = some d) :
      s₁.orchestrator.record? id = some (d.answered config.isAlnum (env id)) :=
    hread id d (snapshot.records.get?_eq_some_iff.mp hd)
  have hrecovers (file : Option ProcessSnapshot)
      (hf : file = some (if snapshot.records.entries = [] then snapshot
        else ProcessState.snapshot ⟨s₁.orchestrator, snapshot.inbox.foldl Inbox.add s₁.inbox, file⟩)) :
      Recovers snapshot s ⟨s₁.orchestrator, snapshot.inbox.foldl Inbox.add s₁.inbox, file⟩ := by
    refine ⟨hstore, by rw [hinbox], ?_, ?_, hf⟩
    · intro id d hd
      exact ⟨_, hrecords id d hd, d.answered_resumed _ _⟩
    · intro id hid
      exact hothers id (snapshot.records.get?_eq_none_iff.mp hid)
  rw [maybeRecover]
  simp only [Proc.run_bind, Proc.run_get, Proc.after_nil, hfile, hrun, Proc.run_modify, Proc.run_ite, run_snapshotState,
    Proc.run_pure]
  split
  · next hne =>
      refine ⟨_, _, rfl, hrecovers _ ?_, hrecords, List.forall_mem_append.mpr ⟨hes, List.forall_mem_singleton.mpr rfl⟩⟩
      rw [if_neg hne]
      rfl
  · next he =>
      refine ⟨_, _, rfl, hrecovers _ ?_, hrecords, ?_⟩
      · rw [if_pos (not_not.mp he), hkeep, hfile]
      · rw [List.append_nil]
        exact hes

/-- **Recovery over a snapshot of consistent records returns**, whatever the process holds and the adapter says. -/
theorem run_maybeRecover (config : ProcessConfig) (env : String → Env) {s : ProcessState} {snapshot : ProcessSnapshot}
    (hfile : s.file = some snapshot) (hcons : ∀ e ∈ snapshot.records.entries, e.2.restore.Consistent e.1) :
    ∃ s' es, (maybeRecover config env true).run s = ⟨.ok (), s', es⟩ ∧ Recovers snapshot s s' := by
  obtain ⟨s', es, hrun, hrecovers, _, _⟩ := run_maybeRecover_answered config env hfile hcons
  exact ⟨s', es, hrun, hrecovers⟩

/-! ## A new process -/

/-- What a restart brings back of a process. -/
structure Resumes (w : World) (s : ProcessState) : Prop where
  store   : s.orchestrator.store = w.store
  inbox   : s.inbox.messages = w.inbox
  records : ∀ id d, w.record? id = some d → ∃ r, s.orchestrator.record? id = some r ∧ d.Resumed r
  others  : ∀ id, w.record? id = none → s.orchestrator.record? id = none

/-- **A start over files in order returns**, and brings back what the snapshot holds. -/
theorem start_resumes {w : World} (h : Durable lost ⟨w, none⟩) (pass : StartPass) :
    (w.start config pass).result = .ok () ∧ Resumes w (w.start config pass).state := by
  have hboot : w.boot.file = w.snapshot := rfl
  unfold World.start
  cases hsnap : w.snapshot with
  | none =>
      have hnone (id : String) : w.record? id = none := by
        rw [World.record?, hsnap]
        rfl
      rw [maybeRecover, Proc.run_bind, Proc.run_get]
      simp only [Proc.after_nil, hboot, hsnap, Proc.run_pure]
      refine ⟨trivial, rfl, ?_, ?_, fun _ _ => rfl⟩
      · rw [World.inbox, hsnap]
        rfl
      · intro id d hd
        rw [hnone] at hd
        cases hd
  | some snap =>
      have hrecord (id : String) : w.record? id = snap.records.get? id := by
        rw [World.record?, hsnap]
        rfl
      have hcons (e : String × SnapshotRecord) (he : e ∈ snap.records.entries) :
          e.2.restore.Consistent e.1 :=
        (h.records e.1 e.2 ((hrecord e.1).trans (Dict.get?_of_mem he))).1
      obtain ⟨s, es, hrun, hrec⟩ := run_maybeRecover config pass.env (hboot.trans hsnap) hcons
      rw [hrun]
      refine ⟨rfl, hrec.store, ?_, ?_, ?_⟩
      · have hw : w.inbox = snap.inbox := by rw [World.inbox, hsnap]; rfl
        have hnd := h.inbox
        rw [hw] at hnd ⊢
        rw [hrec.inbox]
        exact Inbox.messages_foldl_add snap.inbox Inbox.empty hnd
      · intro id d hd
        rw [hrecord] at hd
        exact hrec.records id d hd
      · intro id hid
        rw [hrecord] at hid
        exact hrec.others id hid

end

end HermesPayments
