import HermesPayments.Process.Calls

/-!
# `HermesPayments.Process.Recovery` — writing the snapshot and reading it back

A consistent record survives the round through the snapshot file (`IntentRecord.Consistent.snapshot`), so what
`snapshotState` writes is what `maybeRecover` needs. Reading one record back puts it in memory in a state that
is past dispatch if the snapshot's was: `EXECUTING` becomes `RECONCILIATION_REQUIRED` and nothing else moves.
-/

namespace HermesPayments

open Lib PaymentState

section

variable {lost unread : String → Prop} {α : Type}

/-! ## Writing -/

theorem run_snapshotState (s : ProcessState) :
    snapshotState.run s = ⟨.ok (), { s with file := some s.snapshot }, [.snapshotSave s.snapshot]⟩ := by
  simp [snapshotState, Proc.run_bind]

/-- The snapshot follows a handler, however it ends. -/
theorem run_handleLine {config : ProcessConfig} {penv : ProcessEnv} {command : Command} {s s' : ProcessState}
    {res : Except Exc Response} {es : List ProcessEffect} (h : (handler config penv command).run s = ⟨res, s', es⟩) :
    s.handle config penv (.ok command)
      = ⟨res.map fun resp => (Json.obj (("event", .str command.name) :: resp)).dumps responseOptions,
          { s' with file := some s'.snapshot }, es ++ [.snapshotSave s'.snapshot]⟩ := by
  have htry : (Proc.tryFinally (handler config penv command) snapshotState).run s
      = ⟨res, { s' with file := some s'.snapshot }, es ++ [.snapshotSave s'.snapshot]⟩ := by
    rw [Proc.run_tryFinally (run_snapshotState _), h]
  rw [ProcessState.handle, handleLine]
  cases res with
  | error e => exact Proc.run_bind_error htry
  | ok resp =>
      rw [Proc.run_bind_ok htry, Proc.run_pure, Proc.after_mk, List.append_nil]
      rfl

/-- What the snapshot of a state holds of an intent. -/
theorem ProcessState.get?_snapshot (s : ProcessState) (id : String) :
    s.snapshot.records.get? id = (s.orchestrator.record? id).map IntentRecord.snapshot := by
  show (s.orchestrator.intents.mapValues IntentRecord.snapshot).sortKeys.get? id = _
  rw [Dict.get?_sortKeys, Dict.get?_mapValues]
  rfl

/-- A consistent record is consistent again when it is read back. -/
theorem IntentRecord.Consistent.snapshot {id : String} {r : IntentRecord} (h : r.Consistent id) :
    r.snapshot.restore.Consistent id := by
  refine ⟨h.intent_id, rfl, h.state, ?_, h.quote_isSome, h.prepared_isSome, h.approval, h.approval_isSome,
    h.approval_none⟩
  intro q hq
  have hrq : r.quote = some q := hq
  refine ⟨(h.quote q hrq).1, ?_⟩
  show r.quote.elim 0 (fun q => q.expiresAt) = q.expiresAt
  rw [hrq]
  rfl

/-- The snapshot file holds what the process holds in memory. -/
structure Synced (s : ProcessState) (w : World) : Prop where
  records : ∀ id, w.record? id = (s.orchestrator.record? id).map IntentRecord.snapshot
  inbox   : w.inbox = s.inbox.messages

/-- The `finally` block of a command. -/
theorem crash_snapshotState :
    Crash Watched.apply (Durable lost) (Running lost) snapshotState
      (fun _ s t => Ready lost s t ∧ Synced s t.world) := by
  refine Crash.of_effect (w := fun s => .snapshotSave s.snapshot) (fun s => by rw [run_snapshotState]) ?_
  intro s t h
  have hrecord (id : String) : (t.apply (.snapshotSave s.snapshot)).world.record? id
      = (s.orchestrator.record? id).map IntentRecord.snapshot := s.get?_snapshot id
  have hspent (id : String) (hlost : ¬ lost id) (hmem : id ∈ t.world.dispatched) :
      ∃ d, (t.apply (.snapshotSave s.snapshot)).world.record? id = some d ∧ d.state.spent = true := by
    obtain ⟨r, hr, hspent⟩ := h.memory id hlost hmem not_false
    exact ⟨r.snapshot, by rw [hrecord, hr]; rfl, hspent⟩
  have hdurable : Durable lost (t.apply (.snapshotSave s.snapshot)) := by
    refine ⟨?_, s.inbox.nodup, h.once, h.known, fun id hlost hmem => .inr (hspent id hlost hmem)⟩
    intro id d hd
    rw [hrecord] at hd
    obtain ⟨r, hr, rfl⟩ := Option.map_eq_some_iff.mp hd
    refine ⟨(h.consistent.records id r hr).snapshot, ?_⟩
    show t.world.store.hasIntent id = true
    rw [← h.store]
    exact h.consistent.known id r hr
  refine ⟨h.toDurable, hdurable, ?_, ?_⟩
  · rw [run_snapshotState]
    exact ⟨⟨hdurable, h.store, h.consistent, rfl, h.memory⟩, rfl⟩
  · rw [run_snapshotState]
    exact ⟨hrecord, rfl⟩

/-! ## Reading one record back -/

/-- The record `maybeRecover` puts in memory, before it asks the adapter. -/
def SnapshotRecord.recovered (d : SnapshotRecord) : IntentRecord :=
  { d.restore with state := if d.state = EXECUTING then RECONCILIATION_REQUIRED else d.state }

theorem SnapshotRecord.recovered_spent {d : SnapshotRecord} (h : d.state.spent = true) :
    d.recovered.state.spent = true := by
  show (if d.state = EXECUTING then RECONCILIATION_REQUIRED else d.state).spent = true
  split
  · rfl
  · exact h

theorem SnapshotRecord.recovered_consistent {d : SnapshotRecord} {id : String}
    (h : d.restore.Consistent id) : d.recovered.Consistent id := by
  by_cases hexec : d.state = EXECUTING
  · have hrec : d.recovered = { d.restore with state := RECONCILIATION_REQUIRED } := by
      rw [recovered, if_pos hexec]
    have hstate : d.restore.state = EXECUTING := hexec
    rw [hrec]
    exact ⟨h.intent_id, h.expiresAt, nofun, h.quote, fun _ => h.quote_isSome (by rw [hstate]; rfl),
      fun _ => h.prepared_isSome (by rw [hstate]; rfl), h.approval,
      fun _ => h.approval_isSome (by rw [hstate]; rfl), nofun⟩
  · have hrec : d.recovered = d.restore := by
      rw [recovered, if_neg hexec]
      rfl
    rw [hrec]
    exact h

/-- The second part of `recoverRecord`: the record goes to memory, and the adapter is asked about it. -/
def putBack (config : ProcessConfig) (env : Env) (reconcile : Bool) (id : String) (record : IntentRecord) :
    Process Unit := do
  Process.policy (Proc.modify (fun o => { o with intents := o.intents.set id record }))
  if reconcile && record.state = RECONCILIATION_REQUIRED then
    let _ ← Process.policy (reconcileSettlement config.policy env id)

theorem recoverRecord_eq (config : ProcessConfig) (env : Env) (reconcile : Bool) (id : String)
    (d : SnapshotRecord) : recoverRecord config env reconcile id d = (do
      if d.state = EXECUTING then
        Process.policy (audit config.policy "recovered_executing"
          [("intent_id", .str id), ("state", .str RECONCILIATION_REQUIRED.value)])
      putBack config env reconcile id d.recovered) := by
  have hstate : d.restore.state = d.state := rfl
  by_cases hexec : d.state = EXECUTING
  · have hrec : d.recovered = { d.restore with state := RECONCILIATION_REQUIRED } := by
      rw [SnapshotRecord.recovered, if_pos hexec]
    simp only [recoverRecord, hstate, hexec, if_true, hrec]
    rfl
  · have hrec : d.recovered = d.restore := by
      rw [SnapshotRecord.recovered, if_neg hexec]
      rfl
    simp only [recoverRecord, hstate, hexec, if_false, hrec]
    rfl

section Triples

variable (config : ProcessConfig) {env : Env} {file : Option ProcessSnapshot}

/-- A process while it reads back the snapshot in its file. -/
abbrev Reading (lost unread : String → Prop) (s : ProcessState) (t : Watched) : Prop :=
  Idle lost unread s.file s.orchestrator t

theorem crash_process_policy {P Q : Option ProcessSnapshot → PaymentOrchestrator → Watched → Prop}
    {m : Policy α}
    (h : ∀ file, Crash (fun t w => Watched.apply t (.peer (.policy w))) (Durable lost) (P file) m
      (fun _ => Q file)) :
    Crash Watched.apply (Durable lost) (fun s t => P s.file s.orchestrator t) (Process.policy m)
      (fun _ s t => Q s.file s.orchestrator t) :=
  crash_process_peer fun file => crash_peer_policy (h file)

/-- An audit line changes nothing the assertions speak of. -/
theorem crash_audit (event : String) (fields : List (String × AuditValue)) :
    Crash (fun t w => Watched.apply t (.peer (.policy w))) (Durable lost) (Idle lost unread file)
      (audit config.policy event fields) (fun _ => Idle lost unread file) := by
  refine Crash.of_effect (w := fun o => .auditAppend ⟨o.auditSeq, event, fields⟩)
    (fun o => by rw [run_audit]; rfl) ?_
  intro o t h
  have hdurable : Durable lost (t.apply (.peer (.policy (.auditAppend ⟨o.auditSeq, event, fields⟩)))) :=
    ⟨h.records, h.inbox, h.once, h.known, h.spent⟩
  rw [run_audit]
  exact ⟨h.toDurable, hdurable, ⟨⟨hdurable, h.store, ⟨h.consistent.known, h.consistent.records⟩,
    h.file, h.memory⟩, h.pending⟩⟩

/-- A record of the snapshot is put in memory. -/
theorem Idle.recovered {o : PaymentOrchestrator} {t : Watched} (h : Idle lost unread file o t)
    {id : String} {d : SnapshotRecord} (hd : t.world.record? id = some d) :
    Idle lost (fun j => unread j ∧ j ≠ id) file { o with intents := o.intents.set id d.recovered } t := by
  have hrecord (j : String) :
      PaymentOrchestrator.record? { o with intents := o.intents.set id d.recovered } j
        = if j = id then some d.recovered else o.record? j := o.intents.get?_set id j _
  refine ⟨⟨h.toDurable, h.store, ⟨?_, ?_⟩, h.file, ?_⟩, h.pending⟩
  · intro j r hr
    show o.store.hasIntent j = true
    rw [hrecord] at hr
    by_cases hj : j = id
    · rw [hj, h.store]
      exact (h.records id d hd).2
    · rw [if_neg hj] at hr
      exact h.consistent.known j r hr
  · intro j r hr
    rw [hrecord] at hr
    by_cases hj : j = id
    · rw [if_pos hj] at hr
      cases hr
      rw [hj]
      exact SnapshotRecord.recovered_consistent (h.records id d hd).1
    · rw [if_neg hj] at hr
      exact h.consistent.records j r hr
  · intro j hlost hmem hread
    rw [hrecord]
    by_cases hj : j = id
    · -- a dispatched intent is past dispatch in the snapshot, so it is in memory
      subst hj
      rw [if_pos rfl]
      rcases h.spent j hlost hmem with hpending | ⟨d', hd', hspent⟩
      · rw [h.pending] at hpending
        cases hpending
      · rw [hd] at hd'
        cases hd'
        exact ⟨_, rfl, SnapshotRecord.recovered_spent hspent⟩
    · rw [if_neg hj]
      exact h.memory j hlost hmem (fun hu => hread ⟨hu, hj⟩)

/-- Fewer intents left to read is more. -/
theorem Idle.mono {unread' : String → Prop} {o : PaymentOrchestrator} {t : Watched}
    (h : Idle lost unread file o t) (hsub : ∀ id, unread id → unread' id) : Idle lost unread' file o t :=
  ⟨⟨h.toDurable, h.store, h.consistent, h.file,
    fun id hlost hmem hread => h.memory id hlost hmem (fun hu => hread (hsub id hu))⟩, h.pending⟩

theorem crash_putBack (hsave : env.saves config.policy) (reconcile : Bool) {snap : ProcessSnapshot}
    {id : String} {d : SnapshotRecord} (hmem : (id, d) ∈ snap.records.entries) :
    Crash Watched.apply (Durable lost) (fun s t => s.file = some snap ∧ Reading lost unread s t)
      (putBack config env reconcile id d.recovered)
      (fun _ s t => s.file = some snap ∧ Reading lost (fun j => unread j ∧ j ≠ id) s t) := by
  refine Crash.seq (R := fun s t => s.file = some snap ∧ Reading lost (fun j => unread j ∧ j ≠ id) s t)
    ?_ ?_ (fun _ _ h => h)
  · refine crash_process_policy
      (P := fun file o t => file = some snap ∧ Idle lost unread file o t)
      (Q := fun file o t => file = some snap ∧ Idle lost (fun j => unread j ∧ j ≠ id) file o t) ?_
    intro file
    refine Crash.modify ?_
    rintro o t ⟨hfile, h⟩
    have hd : t.world.record? id = some d := by
      rw [World.record?, ← h.file, hfile]
      exact Dict.get?_of_mem hmem
    exact ⟨h.toDurable, hfile, h.recovered hd⟩
  · intro _
    refine Crash.ite (fun _ => ?_) (fun _ => Crash.pure fun s t h => ⟨h.2.toDurable, h⟩)
    refine Crash.seq ?_ (fun _ => Crash.pure fun s t h => ⟨h.2.toDurable, h⟩) (fun _ _ h => h)
    refine crash_process_policy
      (P := fun file o t => file = some snap ∧ Idle lost (fun j => unread j ∧ j ≠ id) file o t)
      (Q := fun file o t => file = some snap ∧ Idle lost (fun j => unread j ∧ j ≠ id) file o t) ?_
    intro file o t ⟨hfile, h⟩
    obtain ⟨hcrash, hlive, hpending⟩ := crash_op (.reconcileSettlement id) rfl config.policy_storePath hsave
      (.inr nofun) o t h
    exact ⟨hcrash, hfile, hlive, hpending nofun⟩

theorem crash_recoverRecord (hsave : env.saves config.policy) (reconcile : Bool) {snap : ProcessSnapshot}
    {id : String} {d : SnapshotRecord} (hmem : (id, d) ∈ snap.records.entries) :
    Crash Watched.apply (Durable lost) (fun s t => s.file = some snap ∧ Reading lost unread s t)
      (recoverRecord config env reconcile id d)
      (fun r s t => s.file = some snap ∧ Reading lost unread s t ∧
        (r = .ok () → Reading lost (fun j => unread j ∧ j ≠ id) s t)) := by
  rw [recoverRecord_eq]
  have hput := (crash_putBack config hsave reconcile hmem).post
    (S := fun r s t => s.file = some snap ∧ Reading lost unread s t ∧
      (r = .ok () → Reading lost (fun j => unread j ∧ j ≠ id) s t))
    (fun _ s t h => ⟨h.1, h.2.mono fun _ hu => hu.1, fun _ => h.2⟩)
  refine Crash.ite (fun _ => ?_) (fun _ => hput)
  refine Crash.bind (S := fun _ s t => s.file = some snap ∧ Reading lost unread s t) ?_ (fun _ => hput) ?_
  · refine crash_process_policy (P := fun file o t => file = some snap ∧ Idle lost unread file o t)
      (Q := fun file o t => file = some snap ∧ Idle lost unread file o t) ?_
    intro file o t ⟨hfile, h⟩
    obtain ⟨hcrash, hidle⟩ := crash_audit config _ _ o t h
    exact ⟨hcrash, hfile, hidle⟩
  · intro e s t h
    exact ⟨h.1, h.2, nofun⟩

/-- The loop over the records: those it has passed are read, also when it stops early. -/
theorem crash_recoverRecords {env : String → Env} (hsave : ∀ id, (env id).saves config.policy)
    (reconcile : Bool) {snap : ProcessSnapshot} (entries : List (String × SnapshotRecord))
    (unread : String → Prop) (hsub : ∀ e ∈ entries, e ∈ snap.records.entries) :
    Crash Watched.apply (Durable lost) (fun s t => s.file = some snap ∧ Reading lost unread s t)
      (recoverRecords config env reconcile entries)
      (fun r s t => s.file = some snap ∧ Reading lost unread s t ∧
        (r = .ok () → Reading lost (fun j => unread j ∧ j ∉ entries.map Prod.fst) s t)) := by
  induction entries generalizing unread with
  | nil =>
      refine Crash.pure fun s t h => ⟨h.2.toDurable, h.1, h.2, fun _ => ?_⟩
      exact h.2.mono fun _ hu => ⟨hu, List.not_mem_nil⟩
  | cons e rest ih =>
      obtain ⟨id, d⟩ := e
      have hmem : (id, d) ∈ snap.records.entries := hsub _ List.mem_cons_self
      refine Crash.bind (crash_recoverRecord config (hsave id) reconcile hmem) ?_ ?_
      · intro _
        have hrest := ih (fun j => unread j ∧ j ≠ id) fun e he => hsub e (List.mem_cons_of_mem _ he)
        refine hrest.weaken (fun s t h => ⟨h.1, h.2.2 rfl⟩) ?_
        rintro r s t ⟨hfile, hreading, hok⟩
        refine ⟨hfile, hreading.mono fun _ hu => hu.1, fun hr => (hok hr).mono ?_⟩
        rintro j ⟨⟨hu, hne⟩, hout⟩
        refine ⟨hu, fun hj => ?_⟩
        rcases List.mem_cons.mp hj with hj | hj
        · exact hne hj
        · exact hout hj
      · rintro e s t ⟨hfile, hreading, _⟩
        exact ⟨hfile, hreading, nofun⟩

/-- When every record of the snapshot has been read, every dispatched intent is in memory. -/
theorem Reading.ready {s : ProcessState} {t : Watched} (h : Reading lost unread s t)
    (hread : ∀ id d, t.world.record? id = some d → ¬ unread id) : Ready lost s t := by
  refine ⟨⟨h.toDurable, h.store, h.consistent, h.file, fun id hlost hmem _ => ?_⟩, h.pending⟩
  rcases h.spent id hlost hmem with hpending | ⟨d, hd, _⟩
  · rw [h.pending] at hpending
    cases hpending
  · exact h.memory id hlost hmem (hread id d hd)

/-- **Recovery**, from a process that has read any part of the snapshot back: it ends with everything read, and
    synced with the snapshot if that holds a record. -/
theorem crash_maybeRecover {env : String → Env} (hsave : ∀ id, (env id).saves config.policy)
    (reconcile : Bool) :
    Crash Watched.apply (Durable lost) (fun s t => s.file = file ∧ Reading lost unread s t)
      (maybeRecover config env reconcile)
      (fun r s t => Reading lost unread s t ∧ (r = .ok () → Ready lost s t ∧
        ((∃ snap, file = some snap ∧ snap.records.entries ≠ []) → Synced s t.world))) := by
  rw [maybeRecover]
  refine Crash.get_bind fun a => ?_
  cases hfile : a.file with
  | none =>
      refine Crash.pure fun s t h => ?_
      obtain ⟨rfl, hsame, h⟩ := h
      have hready : Ready lost s t := h.ready fun id d hd => by
        rw [World.record?, ← h.file, hfile] at hd
        cases hd
      refine ⟨h.toDurable, h, fun _ => ⟨hready, ?_⟩⟩
      rintro ⟨snap, hsome, _⟩
      rw [← hsame, hfile] at hsome
      cases hsome
  | some snap =>
      by_cases hsame : file = some snap
      swap
      · -- not the file the process holds
        rintro s t ⟨rfl, hsame', _⟩
        exact absurd (hsame'.symm.trans hfile) hsame
      refine Crash.bind ((crash_recoverRecords config hsave reconcile snap.records.entries unread
        fun _ he => he).pre ?_) ?_ ?_
      · rintro s t ⟨rfl, _, h⟩
        exact ⟨hfile, h⟩
      · -- the loop has read every record
        intro _
        refine Crash.bind (S := fun _ s t => Reading lost unread s t ∧ Ready lost s t)
          (Crash.modify ?_) (fun _ => Crash.ite (fun hne => ?_) (fun hnil => ?_)) ?_
        · rintro s t ⟨hfile', hreading, hok⟩
          have hready : Ready lost s t := (hok rfl).ready fun id d hd => by
            rw [World.record?, ← hreading.file, hfile'] at hd
            have hkey : id ∈ snap.records.keys := Dict.mem_keys_iff.mpr ⟨d, hd⟩
            exact fun hu => hu.2 hkey
          exact ⟨hreading.toDurable, hreading, hready⟩
        · refine crash_snapshotState.weaken (fun s t h => h.2.toLive) ?_
          rintro r s t ⟨hready, hsynced⟩
          exact ⟨hready.mono fun _ hf => hf.elim, fun _ => ⟨hready, fun _ => hsynced⟩⟩
        · refine Crash.pure ?_
          rintro s t ⟨hreading, hready⟩
          refine ⟨hreading.toDurable, hreading, fun _ => ⟨hready, ?_⟩⟩
          rintro ⟨snap', hsome, hne⟩
          rw [hsame] at hsome
          cases hsome
          exact absurd hne hnil
        · rintro e s t ⟨hreading, _⟩
          exact ⟨hreading, nofun⟩
      · rintro e s t ⟨_, h, _⟩
        exact ⟨h, nofun⟩

end Triples

end

end HermesPayments
