import HermesPayments.Process.Returns

/-!
# `HermesPayments.Process.Correctness.Retry` — can an approval or a receipt be retried after a crash?

Both commands make their replay record durable in the store file before the snapshot says that the operation
took effect. A kill between the two leaves a record that the retry is refused by. Nothing else does, but for an audit file
that no process can be started over: one with two entries on a line (`retriable_iff`).
-/

namespace HermesPayments

open Lib PaymentState

/-! ## Where the command is cut -/

/-- The replay record is durable and the snapshot is not. -/
def Interrupted (performed : List ProcessEffect) : Prop :=
  (∃ content, .peer (.policy (.storeSave content)) ∈ performed) ∧
    ∀ content, .snapshotSave content ∉ performed

/-- The three durable effects of an approval or a receipt. -/
def commit (store : IdempotencyStore) (entry : AuditEntry) (snap : ProcessSnapshot) : List ProcessEffect :=
  [.peer (.policy (.storeSave store)), .peer (.policy (.auditAppend entry)), .snapshotSave snap]

/-- The message that may be handed over before them, and the query. -/
def ProcessEffect.isQuery : ProcessEffect → Bool
  | .acceptCall _ | .peer (.policy (.verifyCall _ _ _ _)) => true
  | _ => false

theorem ProcessEffect.not_isAuditAppend {e : ProcessEffect} (h : e.isQuery = true) : e.isAuditAppend = false := by
  unfold ProcessEffect.isQuery at h
  split at h
  · rfl
  · rfl
  · cases h

/-- The audit file opens after these effects: it does so now, and no entry is appended to a line that has not ended. -/
def AuditFile.Takes (f : AuditFile) (es : List ProcessEffect) : Prop :=
  f.opens = true ∧ (f.last = .blank ∨ ∀ e ∈ es, e.isAuditAppend = false)

theorem AuditFile.takes_cons {f : AuditFile} {e : ProcessEffect} {es : List ProcessEffect} (he : e.isAuditAppend = false) :
    f.Takes (e :: es) ↔ f.Takes es := by
  simp [Takes, he]

theorem World.opens_after {w : World} {es : List ProcessEffect} :
    (w.after es).audit.opens = true ↔ w.audit.Takes es := by
  induction es generalizing w with
  | nil => simp [AuditFile.Takes]
  | cons e es ih =>
      rw [World.after, applyAll_cons]
      refine ih.trans ?_
      rcases w.audit_apply e with ⟨entry, rfl, haudit⟩ | ⟨hquiet, haudit⟩
      · -- the file ends in a newline from here on
        have hblank : (w.audit.append entry).last = .blank := rfl
        simp only [AuditFile.Takes, haudit, hblank, true_or, and_true, AuditFile.opens_append]
        constructor
        · rintro ⟨hopens, hended⟩
          exact ⟨hopens, .inl hended⟩
        · rintro ⟨hopens, hended | hquiet⟩
          · exact ⟨hopens, hended⟩
          · cases hquiet _ List.mem_cons_self
      · rw [haudit, AuditFile.takes_cons hquiet]

/-- What a cut of such a command leaves: nothing, the replay record alone, or everything. -/
inductive CutAt (w w' : World) (store : IdempotencyStore) (snap : ProcessSnapshot) (performed : List ProcessEffect) :
    Prop
  | before (hcut : ¬ Interrupted performed) (hstore : w'.store = w.store) (hsnap : w'.snapshot = w.snapshot)
      (hopens : w'.audit.opens = true ↔ w.audit.Takes performed)
  | between (hcut : Interrupted performed) (hstore : w'.store = store) (hsnap : w'.snapshot = w.snapshot)
  | done (hcut : ¬ Interrupted performed) (hsnap : w'.snapshot = some snap)
      (hopens : w'.audit.opens = true ↔ w.audit.Takes performed)

theorem World.after_query {w : World} {query : List ProcessEffect} (hquery : ∀ e ∈ query, e.isQuery = true) :
    w.after query = w := by
  induction query with
  | nil => rfl
  | cons e rest ih =>
      have he : w.apply e = w := by
        have hq := hquery e List.mem_cons_self
        unfold ProcessEffect.isQuery at hq
        split at hq
        · rfl
        · rfl
        · cases hq
      show (w.apply e).after rest = w
      rw [he]
      exact ih fun e he => hquery e (List.mem_cons_of_mem _ he)

theorem Cut.cutAt {w : World} {store : IdempotencyStore} {entry : AuditEntry} {snap : ProcessSnapshot}
    (query : List ProcessEffect) (hquery : ∀ e ∈ query, e.isQuery = true) (c : Cut) :
    CutAt w (c.world w (query ++ commit store entry snap)) store snap
      ((query ++ commit store entry snap).take c.performed) := by
  obtain ⟨k, left⟩ := c
  have hsaves (content : IdempotencyStore) : .peer (.policy (.storeSave content)) ∉ query :=
    fun hmem => absurd (hquery _ hmem) Bool.false_ne_true
  have hsnaps (content : ProcessSnapshot) : .snapshotSave content ∉ query :=
    fun hmem => absurd (hquery _ hmem) Bool.false_ne_true
  by_cases hk : k ≤ query.length
  · -- before the store file is replaced
    have htake : (query ++ commit store entry snap).take k = query.take k :=
      List.take_append_of_le_length hk
    have hafter : w.after (query.take k) = w :=
      World.after_query fun e he => hquery e (List.mem_of_mem_take he)
    have hworld : (Cut.mk k left).world w (query ++ commit store entry snap) =
        w.after ((query ++ commit store entry snap).take k) := by
      refine Cut.world_of_next w fun e he => ?_
      change (query ++ commit store entry snap)[k]? = some e at he
      by_cases hlt : k < query.length
      · rw [List.getElem?_append_left hlt] at he
        exact ProcessEffect.not_isAuditAppend (hquery e (List.mem_of_getElem? he))
      · rw [List.getElem?_append_right (by omega), show k - query.length = 0 by omega] at he
        cases he
        rfl
    have hopens := @World.opens_after w ((query ++ commit store entry snap).take k)
    rw [hworld]
    show CutAt w _ _ _ ((query ++ commit store entry snap).take k)
    rw [htake, hafter] at hopens ⊢
    refine .before ?_ rfl rfl hopens
    rintro ⟨⟨content, hmem⟩, _⟩
    exact hsaves content (List.mem_of_mem_take hmem)
  · obtain ⟨j, rfl⟩ : ∃ j, k = query.length + (j + 1) := ⟨k - query.length - 1, by omega⟩
    have htake : (query ++ commit store entry snap).take (query.length + (j + 1))
        = query ++ (commit store entry snap).take (j + 1) := List.take_length_add_append _
    have hafter : w.after (query ++ (commit store entry snap).take (j + 1))
        = w.after ((commit store entry snap).take (j + 1)) := by
      rw [World.after, applyAll_append]
      exact congrArg (applyAll World.apply · _) (World.after_query hquery)
    -- the store file has been replaced; has the snapshot?
    have hsave (es : List ProcessEffect) : ∃ content, ProcessEffect.peer (.policy (.storeSave content)) ∈
        query ++ ProcessEffect.peer (.policy (.storeSave store)) :: es :=
      ⟨store, List.mem_append_right _ List.mem_cons_self⟩
    rcases j with _ | _ | j
    · -- the audit line is being written, and the kill may leave any part of it
      obtain ⟨audit, hworld⟩ := (Cut.mk (query.length + (0 + 1)) left).world_eq w (query ++ commit store entry snap)
      rw [hworld]
      show CutAt w { w.after ((query ++ commit store entry snap).take (query.length + (0 + 1))) with audit := audit } _ _
        ((query ++ commit store entry snap).take (query.length + (0 + 1)))
      rw [htake, hafter]
      refine .between ⟨hsave [], fun content hmem => ?_⟩ rfl rfl
      rcases List.mem_append.mp hmem with hmem | hmem
      · exact hsnaps content hmem
      · simp [commit] at hmem
    · have hworld : (Cut.mk (query.length + (0 + 1 + 1)) left).world w (query ++ commit store entry snap) =
          w.after ((query ++ commit store entry snap).take (query.length + (0 + 1 + 1))) := by
        refine Cut.world_of_next w fun e he => ?_
        change (query ++ commit store entry snap)[query.length + (0 + 1 + 1)]? = some e at he
        rw [List.getElem?_append_right (by omega), Nat.add_sub_cancel_left] at he
        cases he
        rfl
      rw [hworld]
      show CutAt w _ _ _ ((query ++ commit store entry snap).take (query.length + (0 + 1 + 1)))
      rw [htake, hafter]
      refine .between ⟨hsave [_], fun content hmem => ?_⟩ rfl rfl
      rcases List.mem_append.mp hmem with hmem | hmem
      · exact hsnaps content hmem
      · simp [commit] at hmem
    · have hworld : (Cut.mk (query.length + (j + 1 + 1 + 1)) left).world w (query ++ commit store entry snap) =
          w.after ((query ++ commit store entry snap).take (query.length + (j + 1 + 1 + 1))) := by
        refine Cut.world_of_next w fun e he => ?_
        have hnone : (query ++ commit store entry snap)[query.length + (j + 1 + 1 + 1)]? = none := by
          rw [List.getElem?_eq_none_iff, List.length_append]
          show query.length + 3 ≤ _
          omega
        rw [show (Cut.mk _ left).performed = query.length + (j + 1 + 1 + 1) from rfl, hnone] at he
        cases he
      have hopens := @World.opens_after w ((query ++ commit store entry snap).take (query.length + (j + 1 + 1 + 1)))
      have hall : (commit store entry snap).take (j + 1 + 1 + 1) = commit store entry snap := by
        simp [commit]
      rw [hworld]
      show CutAt w _ _ _ ((query ++ commit store entry snap).take (query.length + (j + 1 + 1 + 1)))
      rw [htake, hall] at hopens ⊢
      rw [hall] at hafter
      rw [hafter] at hopens ⊢
      refine .done ?_ rfl hopens
      rintro ⟨_, hno⟩
      exact hno snap (by simp [commit])

/-! ## What a restart brings back -/

/-- What becomes of a record over a restart. -/
structure IntentRecord.Survives (r r' : IntentRecord) : Prop where
  intent   : r'.intent = r.intent
  quote    : r'.quote = r.quote
  prepared : r'.prepared = r.prepared
  state    : r'.state = if r.state = EXECUTING then RECONCILIATION_REQUIRED else r.state

theorem IntentRecord.Survives.of_resumed {r r' : IntentRecord} (h : r.snapshot.Resumed r') : r.Survives r' := by
  obtain ⟨reconciliation, rfl⟩ := h
  exact ⟨rfl, rfl, rfl, rfl⟩

section

variable {config : ProcessConfig} {w w' : World} {s s' : ProcessState}

/-- A tracked record comes back, when the snapshot is the one the process was synced with. -/
theorem Resumes.survives (hres : Resumes w' s') (hsynced : Synced s w) (hsnap : w'.snapshot = w.snapshot)
    {id : String} {r : IntentRecord} (hr : s.orchestrator.record? id = some r) :
    ∃ r', s'.orchestrator.record? id = some r' ∧ r.Survives r' := by
  have hrecord : w'.record? id = some r.snapshot := by
    have hsame : w'.record? id = w.record? id := by rw [World.record?, World.record?, hsnap]
    rw [hsame, hsynced.records, hr]
    rfl
  obtain ⟨r', hr', hresumed⟩ := hres.records id _ hrecord
  exact ⟨r', hr', .of_resumed hresumed⟩

/-- … and so does the inbox. -/
theorem Resumes.receiptNamed (hres : Resumes w' s') (hsynced : Synced s w) (hsnap : w'.snapshot = w.snapshot)
    (id : String) : s'.receiptNamed id = s.receiptNamed id := by
  have hinbox : s'.inbox.messages = s.inbox.messages := by
    rw [hres.inbox, World.inbox, hsnap]
    exact hsynced.inbox
  rw [ProcessState.receiptNamed, ProcessState.receiptNamed, hinbox]

/-- A record the snapshot already shows as done. -/
theorem Resumes.of_snapshot (hres : Resumes w' s') {s₁ : ProcessState} (hsnap : w'.snapshot = some s₁.snapshot)
    {id : String} {r : IntentRecord} (hr : s₁.orchestrator.record? id = some r) :
    ∃ r', s'.orchestrator.record? id = some r' ∧ r.Survives r' := by
  have hrecord : w'.record? id = some r.snapshot := by
    rw [World.record?, hsnap]
    show s₁.snapshot.records.get? id = _
    rw [s₁.get?_snapshot, hr]
    rfl
  obtain ⟨r', hr', hresumed⟩ := hres.records id _ hrecord
  exact ⟨r', hr', .of_resumed hresumed⟩

/-! ## Retrying -/

/-- Does a command approve or accept a receipt? -/
def Command.commits : Command → Bool
  | .approve _ _ _ | .acceptReceipt _ => true
  | _ => false

/-- The tracked record shows the command's operation as done. -/
def ProcessState.Shows (s : ProcessState) : Command → Prop
  | .approve intentId _ _ => ∃ r, s.orchestrator.record? intentId = some r ∧ r.state = APPROVED
  | .acceptReceipt id => ∃ rc r, s.receiptNamed id = some rc ∧
      s.orchestrator.record? rc.intentId = some r ∧ r.state = SETTLED
  | _ => False

/-- A process starts over the files, and shows the operation as done or carries it out now. -/
def Retriable (config : ProcessConfig) (w : World) (pass : StartPass) (penv : ProcessEnv) (command : Command) :
    Prop :=
  w.audit.opens = true ∧ (w.start config pass).result = .ok () ∧
    ((w.start config pass).state.Shows command ∨
      ∃ line, ((w.start config pass).state.handle config penv (.ok command)).result = .ok line)

variable {lost lost' : String → Prop} {pass : StartPass} {penv penv' : ProcessEnv}
  {performed : List ProcessEffect} {s₁ : ProcessState}

theorem approve_retriable {intentId quoteId preparedHash : String} {approver : AgentIdentity}
    (hready : Ready lost s ⟨w, none⟩) (hsynced : Synced s w) (hdurable : Durable lost' ⟨w', none⟩)
    (happrover : config.approver = some approver)
    (hok : Approvable s.orchestrator intentId quoteId
      (resolveHash (s.orchestrator.record? intentId) preparedHash))
    (hdone : ∃ r, s₁.orchestrator.record? intentId = some r ∧ r.state = APPROVED)
    (hcut : CutAt w w' (s.orchestrator.store.addApproval intentId quoteId
      (resolveHash (s.orchestrator.record? intentId) preparedHash)) s₁.snapshot performed) :
    Retriable config w' pass penv' (.approve intentId quoteId preparedHash) ↔
      ¬ Interrupted performed ∧ w.audit.Takes performed := by
  obtain ⟨hstart, hres⟩ := start_resumes hdurable pass
  obtain ⟨r, q, prep, hr, hquote, hqid, hprep, hhash, hnew, hstate⟩ := hok
  cases hcut with
  | before hcut hstore hsnap hopens =>
      -- nothing has happened: the approval passes every check again
      refine ⟨fun hretry => ⟨hcut, hopens.mp hretry.1⟩, fun htakes => ⟨hopens.mpr htakes.2, hstart, .inr ?_⟩⟩
      obtain ⟨r', hr', hsurvives⟩ := hres.survives hsynced hsnap hr
      have hresolve : resolveHash ((w'.start config pass).state.orchestrator.record? intentId) preparedHash
          = resolveHash (s.orchestrator.record? intentId) preparedHash := by
        rw [hr', hr, resolveHash, resolveHash, Option.bind_some, Option.bind_some, hsurvives.prepared]
      have hstore' : (w'.start config pass).state.orchestrator.store = s.orchestrator.store := by
        rw [hres.store, hstore]
        exact hready.store.symm
      have hagain : Approvable (w'.start config pass).state.orchestrator intentId quoteId
          (resolveHash ((w'.start config pass).state.orchestrator.record? intentId) preparedHash) := by
        rw [hresolve]
        refine ⟨r', q, prep, hr', hsurvives.quote.trans hquote, hqid, hsurvives.prepared.trans hprep, hhash, ?_,
          ?_⟩
        · rw [hstore']
          exact hnew
        · rw [hsurvives.state, hstate]
          rfl
      obtain ⟨line, _, _, hretry, _⟩ := approve_handled happrover hagain
      exact ⟨line, by rw [hretry]⟩
  | between hcut hstore hsnap =>
      -- the replay record is there, the approval is not
      refine iff_of_false ?_ (fun hno => hno.1 hcut)
      obtain ⟨r', hr', hsurvives⟩ := hres.survives hsynced hsnap hr
      have hstate' : r'.state = PREPARED := by
        rw [hsurvives.state, hstate]
        rfl
      rintro ⟨_, _, ⟨r'', hr'', happroved⟩ | ⟨line, hline⟩⟩
      · rw [hr'] at hr''
        cases hr''
        rw [hstate'] at happroved
        cases happroved
      · obtain ⟨_, r'', q', prep', hr'', hquote', hqid', hprep', hhash', hnew', _⟩ := approve_checked hline
        rw [hr'] at hr''
        cases hr''
        rw [hsurvives.prepared, hprep] at hprep'
        cases hprep'
        rw [← hhash', hhash, hres.store, hstore] at hnew'
        simp [IdempotencyStore.hasApproval] at hnew'
  | done hcut hsnap hopens =>
      refine ⟨fun hretry => ⟨hcut, hopens.mp hretry.1⟩, fun htakes => ⟨hopens.mpr htakes.2, hstart, .inl ?_⟩⟩
      obtain ⟨r₁, hr₁, hstate₁⟩ := hdone
      obtain ⟨r', hr', hsurvives⟩ := hres.of_snapshot hsnap hr₁
      refine ⟨r', hr', ?_⟩
      rw [hsurvives.state, hstate₁]
      rfl

theorem acceptReceipt_retriable {id : String} {rc : PaymentReceipt}
    (hready : Ready lost s ⟨w, none⟩) (hsynced : Synced s w) (hdurable : Durable lost' ⟨w', none⟩)
    (hnamed : s.receiptNamed id = some rc) (hrecipient : RecipientMatches s.orchestrator rc)
    (hok : Settleable s.orchestrator penv.adapter rc)
    (hanswers : ∀ ref amount, penv'.adapter.verifySenderSettlement ref amount
      = penv.adapter.verifySenderSettlement ref amount)
    (hinbox : s₁.inbox = s.inbox)
    (hdone : ∃ r, s₁.orchestrator.record? rc.intentId = some r ∧ r.state = SETTLED)
    (hcut : CutAt w w' (s.orchestrator.store.addReceipt rc.intentId rc.settlementRef) s₁.snapshot performed) :
    Retriable config w' pass penv' (.acceptReceipt id) ↔ ¬ Interrupted performed ∧ w.audit.Takes performed := by
  obtain ⟨hstart, hres⟩ := start_resumes hdurable pass
  obtain ⟨r, q, v, hr, hstate, hnew, hamount, hquote, hqid, hverify, hverified⟩ := hok
  have hnotSettled {r' : IntentRecord} (hsurvives : r.Survives r') : r'.state = RECONCILIATION_REQUIRED := by
    rw [hsurvives.state]
    rcases hstate with hstate | hstate <;> rw [hstate] <;> rfl
  cases hcut with
  | before hcut hstore hsnap hopens =>
      -- nothing has happened: the receipt passes every gate again
      refine ⟨fun hretry => ⟨hcut, hopens.mp hretry.1⟩, fun htakes => ⟨hopens.mpr htakes.2, hstart, .inr ?_⟩⟩
      obtain ⟨r', hr', hsurvives⟩ := hres.survives hsynced hsnap hr
      have hstore' : (w'.start config pass).state.orchestrator.store = s.orchestrator.store := by
        rw [hres.store, hstore]
        exact hready.store.symm
      have hintent : (w'.start config pass).state.orchestrator.getIntent rc.intentId
          = s.orchestrator.getIntent rc.intentId := by
        show ((w'.start config pass).state.orchestrator.record? rc.intentId).map IntentRecord.intent
          = (s.orchestrator.record? rc.intentId).map IntentRecord.intent
        rw [hr', hr, Option.map_some, Option.map_some, hsurvives.intent]
      have hrecipient' : RecipientMatches (w'.start config pass).state.orchestrator rc := by
        unfold RecipientMatches
        rw [hintent]
        exact hrecipient
      have hagain : Settleable (w'.start config pass).state.orchestrator penv'.adapter rc := by
        refine ⟨r', q, v, hr', .inr (hnotSettled hsurvives), ?_, ?_, hsurvives.quote.trans hquote, hqid, ?_,
          hverified⟩
        · rw [hstore']
          exact hnew
        · rw [hsurvives.intent]
          exact hamount
        · rw [hanswers]
          exact hverify
      obtain ⟨line, _, _, _, hretry, _⟩ := acceptReceipt_handled
        ((hres.receiptNamed hsynced hsnap id).trans hnamed) hrecipient' hagain
      exact ⟨line, by rw [hretry]⟩
  | between hcut hstore hsnap =>
      -- the binding is there, the settlement is not
      refine iff_of_false ?_ (fun hno => hno.1 hcut)
      obtain ⟨r', hr', hsurvives⟩ := hres.survives hsynced hsnap hr
      have hnamed' := (hres.receiptNamed hsynced hsnap id).trans hnamed
      rintro ⟨_, _, ⟨rc'', r'', hnamed'', hr'', hsettled⟩ | ⟨line, hline⟩⟩
      · rw [hnamed'] at hnamed''
        cases hnamed''
        rw [hr'] at hr''
        cases hr''
        rw [hnotSettled hsurvives] at hsettled
        cases hsettled
      · obtain ⟨rc'', hnamed'', _, _, _, _, _, _, hnew', _⟩ := acceptReceipt_checked hline
        rw [hnamed'] at hnamed''
        cases hnamed''
        rw [hres.store, hstore] at hnew'
        simp [IdempotencyStore.hasReceipt] at hnew'
  | done hcut hsnap hopens =>
      refine ⟨fun hretry => ⟨hcut, hopens.mp hretry.1⟩, fun htakes => ⟨hopens.mpr htakes.2, hstart, .inl ?_⟩⟩
      obtain ⟨r₁, hr₁, hstate₁⟩ := hdone
      obtain ⟨r', hr', hsurvives⟩ := hres.of_snapshot hsnap hr₁
      have hmessages : (w'.start config pass).state.inbox.messages = s.inbox.messages := by
        rw [hres.inbox, World.inbox, hsnap, ← hinbox]
        rfl
      refine ⟨rc, r', ?_, hr', ?_⟩
      · rw [← hnamed, ProcessState.receiptNamed, ProcessState.receiptNamed, hmessages]
      · rw [hsurvives.state, hstate₁]
        rfl

/-- **An approval or a receipt that is cut short can be retried after a restart** exactly when it is not cut between the
    replacement of the store file and the replacement of the snapshot, and no two entries stand on one line of the audit
    file. -/
theorem retriable_iff {h : List (Event Node NodeEvent)} {command : Command} {line : String} {c : Cut}
    (hrun : NodeRun config h ⟨w, some s⟩) (hcommand : command.commits = true)
    (hok : (s.handle config penv (.ok command)).result = .ok line) (pass : StartPass)
    (hanswers : ∀ ref amount, penv'.adapter.verifySenderSettlement ref amount
      = penv.adapter.verifySenderSettlement ref amount) :
    Retriable config (c.world w (s.handle config penv (.ok command)).effects) pass penv' command ↔
      ¬ Interrupted ((s.handle config penv (.ok command)).effects.take c.performed) ∧
        w.audit.Takes ((s.handle config penv (.ok command)).effects.take c.performed) := by
  -- the state before the command, and the files after the kill, are in order
  have hsound := NodeRun.sound (hrun.snoc (.killed w s penv (.ok command) c))
  have hdurable : Durable _ ⟨c.world w (s.handle config penv (.ok command)).effects, none⟩ := hsound
  obtain ⟨hready, hsynced⟩ := NodeRun.sound hrun
  cases command with
  | approve intentId quoteId preparedHash =>
      obtain ⟨happrover, happrovable⟩ := approve_checked hok
      obtain ⟨approver, happrover⟩ := Option.isSome_iff_exists.mp happrover
      obtain ⟨_, s₁, entry, hhandle, hdone⟩ := approve_handled happrover happrovable
      rw [hhandle] at hdurable ⊢
      exact approve_retriable hready hsynced hdurable happrover happrovable hdone
        (c.cutAt [] (by simp))
  | acceptReceipt id =>
      obtain ⟨rc, hnamed, hrecipient, hsettleable⟩ := acceptReceipt_checked hok
      obtain ⟨_, s₁, query, entry, hhandle, hinbox, hdone⟩ :=
        acceptReceipt_handled hnamed hrecipient hsettleable
      rw [hhandle] at hdurable ⊢
      exact acceptReceipt_retriable hready hsynced hdurable hnamed hrecipient hsettleable hanswers hinbox hdone
        (c.cutAt [_, _] (by simp [ProcessEffect.isQuery]))
  | _ => cases hcommand

end

namespace Sample

/-- A process with a prepared payment, about to be approved. -/
def prepared : World × ProcessState :=
  commands process penv booted
    [.submitIntent (intent "i" 100), .submitQuoteLocal (quote "i" "invoice A" 100), .prepare]

def approveCommand : Command := .approve "i" "quote 1" "hash"

/-- The process is killed right after the store file has been replaced, and started again. -/
def restarted : ProcessState :=
  (((Cut.mk 1 .nothing).world prepared.1 (prepared.2.handle process penv (.ok approveCommand)).effects).start process
    pass).state

end Sample

/-- An approval that is killed right after the store file has been replaced is refused as a replay. -/
theorem not_retriable :
    ¬ ∀ (config : ProcessConfig) (h : List (Event Node NodeEvent)) (w : World) (s : ProcessState)
      (command : Command) (line : String) (c : Cut) (pass : StartPass) (penv penv' : ProcessEnv),
      NodeRun config h ⟨w, some s⟩ → command.commits = true →
      (s.handle config penv (.ok command)).result = .ok line →
      (∀ ref amount, penv'.adapter.verifySenderSettlement ref amount
        = penv.adapter.verifySenderSettlement ref amount) →
      Retriable config (c.world w (s.handle config penv (.ok command)).effects) pass penv' command := by
  intro hall
  obtain ⟨h, hrun, hlost⟩ := Sample.booted_run
  obtain ⟨g, hrun', _⟩ := hrun.commands hlost Sample.penv
    [.submitIntent (Sample.intent "i" 100), .submitQuoteLocal (Sample.quote "i" "invoice A" 100), .prepare]
  obtain ⟨_, _, hretry⟩ := hall _ _ _ _ Sample.approveCommand _ ⟨1, .nothing⟩ Sample.pass Sample.penv Sample.penv hrun'
    rfl rfl (fun _ _ => rfl)
  change Sample.restarted.Shows _ ∨ ∃ line, (Sample.restarted.handle _ _ _).result = .ok line at hretry
  rcases hretry with ⟨r, hr, happroved⟩ | ⟨line, hline⟩
  · have hstate : (Sample.restarted.orchestrator.record? "i").map IntentRecord.state = some PREPARED := by decide
    rw [hr, Option.map_some, happroved] at hstate
    cases hstate
  · obtain ⟨_, _, _, _, _, _, _, _, _, hnew, _⟩ := approve_checked hline
    exact absurd hnew (by decide)

/-- An approval that is killed before anything is written can be retried. -/
theorem retriable_iff_untouched :
    Retriable Sample.process ((Cut.mk 0 .nothing).world Sample.prepared.1
        (Sample.prepared.2.handle Sample.process Sample.penv (.ok Sample.approveCommand)).effects)
      Sample.pass Sample.penv Sample.approveCommand := by
  obtain ⟨h, hrun, hlost⟩ := Sample.booted_run
  obtain ⟨g, hrun', _⟩ := hrun.commands hlost Sample.penv
    [.submitIntent (Sample.intent "i" 100), .submitQuoteLocal (Sample.quote "i" "invoice A" 100), .prepare]
  refine (retriable_iff (c := ⟨0, .nothing⟩) hrun' rfl rfl Sample.pass (fun _ _ => rfl)).mpr ⟨?_, ?_⟩
  · rintro ⟨⟨content, hmem⟩, _⟩
    exact absurd hmem List.not_mem_nil
  · exact ⟨by decide, .inl (by decide)⟩

end HermesPayments
