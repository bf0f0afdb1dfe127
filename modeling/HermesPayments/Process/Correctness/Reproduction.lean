import HermesPayments.Process.Faults
import HermesPayments.Process.Restart
import HermesPayments.Process.Snapshot.RoundTrip

/-!
# `HermesPayments.Process.Correctness.Reproduction` — a restart reproduces the process

What a process holds of an intent is what the snapshot keeps of it: the two cached expiry times are those of the intent
and of the quote (`IntentRecord.Restorable`). This holds of every record in every run, whatever writes fail and wherever
the process is killed (`FaultRun.restorable`). So once a snapshot has been written, a new process over the files holds the
same records and the same inbox, only an intent found in `EXECUTING` is in `RECONCILIATION_REQUIRED` and what the adapter
says about it is new; and recovering again changes no more than that (`restart_reproduces`).
-/

namespace HermesPayments

open Lib PaymentState

/-! ## Restorable records -/

/-- The record is consistent, and nothing of it is lost in the snapshot. -/
structure IntentRecord.Restorable (id : String) (r : IntentRecord) : Prop where
  consistent : r.Consistent id
  restore    : r.snapshot.restore = r

/-- The snapshot leaves out the two cached expiry times. -/
theorem IntentRecord.restore_iff {r : IntentRecord} : r.snapshot.restore = r ↔
    r.quoteExpiresAt = r.quote.elim 0 (fun q => q.expiresAt) ∧ r.expiresAt = r.intent.expiresAt := by
  constructor
  · intro h
    exact ⟨(congrArg IntentRecord.quoteExpiresAt h).symm, (congrArg IntentRecord.expiresAt h).symm⟩
  · rintro ⟨hquote, hexpires⟩
    obtain ⟨intent, state, quote, prepared, approval, receipt, reconciliation, quoteExpiresAt, expiresAt⟩ := r
    simp only at hquote hexpires
    subst hquote hexpires
    rfl

theorem restorable_submitted (i : PaymentIntent) : (PaymentOrchestrator.submittedRecord i).Restorable i.id :=
  ⟨consistent_submitted i, rfl⟩

/-- A call keeps a record restorable: it changes the quote and its expiry together. -/
theorem RecordStep.restorable {env : Env} {es : List Effect} {op : Op} {res : Except Exc Answer} {id : String}
    {r r' : IntentRecord} (h : RecordStep env es op res id r r') (hr : r.Restorable id) : r'.Restorable id := by
  refine ⟨h.consistent hr.consistent, ?_⟩
  obtain ⟨hquote, hexpires⟩ := IntentRecord.restore_iff.mp hr.restore
  rw [IntentRecord.restore_iff]
  cases h with
  | quoteOverwritten _ _ _ | quoted _ _ _ => exact ⟨rfl, hexpires⟩
  | kept | prepared _ _ _ _ _ _ | approved _ _ _ _ _ | dispatchSettled _ _ _ | dispatchOpen _ _ _ _
  | receiptSettled _ _ _ _ _ _ | confirmed _ | reconciled _ | cancelled _ | rejected _ | swept _ =>
      exact ⟨hquote, hexpires⟩

/-- What recovery puts in memory is restorable. -/
theorem SnapshotRecord.recovered_restorable {d : SnapshotRecord} {id : String} (h : d.restore.Consistent id) :
    d.recovered.Restorable id := ⟨SnapshotRecord.recovered_consistent h, rfl⟩

/-- Every tracked record is restorable. -/
def PaymentOrchestrator.Restorable (o : PaymentOrchestrator) : Prop := ∀ id r, o.record? id = some r → r.Restorable id

theorem Calls.restorable {cfg : Config} {o o' : PaymentOrchestrator} {c : Call} (h : Calls cfg o c o') (ho : o.Restorable) :
    o'.Restorable := by
  intro id r hr
  refine h.record_of hr ?_ ?_
  · intro i hid
    exact hid ▸ restorable_submitted i
  · intro r₀ hr₀ hrec
    exact hrec.restorable (ho id r₀ hr₀)

/-- A snapshot that recovery can read: consistent records, and messages with ids of their own. -/
structure ProcessSnapshot.Sound (snapshot : ProcessSnapshot) : Prop where
  records : ∀ e ∈ snapshot.records.entries, e.2.restore.Consistent e.1
  inbox   : (snapshot.inbox.map PeerMessage.messageId).Nodup

theorem ProcessState.snapshot_sound {s : ProcessState} (h : s.orchestrator.Restorable) : s.snapshot.Sound where
  records e he := by
    have hget : s.snapshot.records.get? e.1 = some e.2 := Dict.get?_of_mem he
    rw [s.get?_snapshot] at hget
    obtain ⟨r, hr, hd⟩ := Option.map_eq_some_iff.mp hget
    exact hd ▸ (h e.1 r hr).consistent.snapshot
  inbox := s.inbox.nodup

/-! ## The frame -/

/-- Memory and file can be read back one from the other. -/
def restorable : Frame where
  crash w := ∀ snapshot, w.snapshot = some snapshot → snapshot.Sound
  holds s w := (∀ snapshot, w.snapshot = some snapshot → snapshot.Sound) ∧ s.file = w.snapshot ∧
    s.orchestrator.Restorable
  sound := And.left

section

variable (config : ProcessConfig)

/-- A computation of the policy engine that keeps records restorable. -/
theorem restorable_policy {α : Type} {m : Policy α} (hm : ∀ o, o.Restorable → (m.run o).state.Restorable) :
    restorable.Keeps (Process.policy m) := by
  rintro s w ⟨hsound, hfile, hrecords⟩
  unfold Process.policy Process.peer
  rw [Proc.run_zoom]
  have hsame (es : List PeerEffect) : ∀ snapshot, (w.after (es.map ProcessEffect.peer)).snapshot = some snapshot →
      snapshot.Sound := by
    rw [w.after_peer es]
    exact hsound
  refine ⟨fun k => ?_, hsame _, ?_, hm _ hrecords⟩
  · rw [← List.map_take]
    exact hsame _
  · rw [w.after_peer _]
    exact hfile

theorem restorable_call (env : Env) (op : Op) : restorable.Keeps (Process.policy (call config.policy env op)) :=
  restorable_policy fun o ho => (Calls.of_call config.policy env o op).restorable ho

theorem restorable_op {α : Type} {m : Policy α} {g : α → Answer} (env : Env) (op : Op)
    (hm : call config.policy env op = m >>= fun a => pure (g a)) : restorable.Keeps (Process.policy m) := by
  have hcall := restorable_call config env op
  rw [hm] at hcall
  exact Frame.Keeps.policy_of_map hcall

theorem restorable_snapshotState : restorable.Keeps snapshotState := by
  refine Crash.of_effect (w := fun s => .snapshotSave s.snapshot) (fun s => by rw [run_snapshotState]) ?_
  rintro s w ⟨hsound, hfile, hrecords⟩
  have hwritten : ∀ snapshot, (w.apply (.snapshotSave s.snapshot)).snapshot = some snapshot → snapshot.Sound := by
    intro snapshot hsnapshot
    cases hsnapshot
    exact s.snapshot_sound hrecords
  rw [run_snapshotState]
  exact ⟨hsound, hwritten, hwritten, rfl, hrecords⟩

/-! ## Recovery -/

theorem restorable_recoverRecord (env : Env) (reconcile : Bool) {id : String} {d : SnapshotRecord}
    (hd : d.restore.Consistent id) : restorable.Keeps (recoverRecord config env reconcile id d) := by
  have hlog : restorable.Keeps (Process.policy (audit config.policy "recovered_executing"
      [("intent_id", .str id), ("state", .str RECONCILIATION_REQUIRED.value)])) := by
    refine restorable_policy fun o ho => ?_
    rw [run_audit]
    exact ho
  have hassign : restorable.Keeps
      (Process.policy (Proc.modify fun o => { o with intents := o.intents.set id d.recovered })) := by
    refine restorable_policy fun o ho => ?_
    intro j r hr
    have hset : (o.intents.set id d.recovered).get? j = some r := hr
    rw [o.intents.get?_set] at hset
    split at hset
    · next hj =>
        cases hset
        exact hj ▸ SnapshotRecord.recovered_restorable hd
    · exact ho j r hset
  have hput : restorable.Keeps (putBack config env reconcile id d.recovered) := by
    refine hassign.bind fun _ => ?_
    refine .ite ?_ (.still (Proc.Still.pure _))
    exact .respond (restorable_op config env (.reconcileSettlement id) rfl) fun _ => Proc.Still.pure _
  rw [recoverRecord_eq]
  exact .ite (hlog.bind fun _ => hput) hput

theorem restorable_recoverRecords (env : String → Env) (reconcile : Bool) (entries : List (String × SnapshotRecord))
    (hcons : ∀ e ∈ entries, e.2.restore.Consistent e.1) :
    restorable.Keeps (recoverRecords config env reconcile entries) := by
  induction entries with
  | nil => exact .still (Proc.Still.pure _)
  | cons e rest ih =>
      obtain ⟨he, hrest⟩ := List.forall_mem_cons.mp hcons
      exact (restorable_recoverRecord config (env e.1) reconcile he).bind fun _ => ih hrest

theorem restorable_ignoresInbox : restorable.IgnoresInbox := fun _ _ _ h => h

theorem restorable_maybeRecover (env : String → Env) (reconcile : Bool) :
    restorable.Keeps (maybeRecover config env reconcile) := by
  refine restorable_ignoresInbox.maybeRecover config env reconcile restorable_snapshotState ?_
  rintro s w snapshot ⟨hsound, hsame, _⟩ hfile
  exact restorable_recoverRecords config env reconcile _ (hsound snapshot (hsame.symm.trans hfile)).records

/-! ## Activities -/

theorem restorable_admits (penv : ProcessEnv) : restorable.Admits config penv where
  call op _ := restorable_call config penv.env op
  verify _ _ := Crash.emit fun _ _ h => ⟨h.1, h.1, h⟩
  recover _ := restorable_maybeRecover config _ true

theorem restorable_handler (penv : ProcessEnv) (command : Command) : restorable.Keeps (handler config penv command) :=
  (restorable_admits config penv).handler_all restorable_ignoresInbox (restorable_call config penv.env .execute) command

/-- **Every activity** keeps memory and file restorable, wherever it is cut short. -/
theorem restorable_run (a : Activity) (written : Bool) : restorable.Keeps (a.run config written) := by
  have hbody : restorable.Keeps (a.body config) := by
    cases a with
    | call env op => exact .respond (restorable_call config env op) fun _ => Proc.Still.pure _
    | line penv parsed =>
        cases parsed with
        | error e => exact .still (Proc.Still.raise e)
        | ok command => exact .respond (restorable_handler config penv command) fun _ => Proc.Still.pure _
  exact Activity.crash hbody restorable_snapshotState written

end

/-! ## Runs -/

/-- The files can be read back, and so can the memory of the process, if one runs. -/
def Node.Restorable (n : Node) : Prop := restorable.crash n.world ∧ ∀ s, n.proc = some s → restorable.holds s n.world

section

variable {config : ProcessConfig} {n n' : Node} {i : FaultEvent} {h : List (Event Node FaultEvent)}

variable (config) in
/-- A start over files that can be read back. -/
theorem restorable_start {w : World} (hw : restorable.crash w) (pass : StartPass) :
    (∀ k, restorable.crash (w.after ((w.start config pass).effects.take k))) ∧
      restorable.holds (w.start config pass).state (w.after (w.start config pass).effects) := by
  have hrecords : w.boot.orchestrator.Restorable := by
    intro id r hr
    have hnone : w.boot.orchestrator.record? id = none := rfl
    rw [hnone] at hr
    cases hr
  exact restorable_maybeRecover config pass.env true w.boot w ⟨hw, rfl, hrecords⟩

theorem FaultStep.restorable (hstep : FaultStep config n i n') (hn : n.Restorable) : n'.Restorable := by
  refine hstep.covers (fun _ _ _ h => h) ?_ ?_
  · rintro w s a written rfl _
    exact restorable_run config a written s w (hn.2 s rfl)
  · rintro w pass rfl _
    exact restorable_start config hn.1 pass

/-- **Every run** leaves memory and files restorable. -/
theorem FaultRun.restorable (hrun : FaultRun config h n) : n.Restorable := by
  refine hrun.invariant ?_ fun _ _ _ hn hstep => hstep.restorable hn
  rintro n rfl
  exact ⟨nofun, nofun⟩

end

/-! ## What a restart reproduces -/

/-- The record a new process finds in place of another process's. -/
def IntentRecord.restarted (r : IntentRecord) : IntentRecord :=
  { r with state := if r.state = EXECUTING then RECONCILIATION_REQUIRED else r.state }

/-- The process `t` holds the intents of `s`, each as `f` leaves it but for what the adapter said, and its inbox. -/
structure Reproduces (f : IntentRecord → IntentRecord) (s t : ProcessState) : Prop where
  tracked   : ∀ id r, s.orchestrator.record? id = some r →
    ∃ reconciliation, t.orchestrator.record? id = some { f r with reconciliation := reconciliation }
  untracked : ∀ id, s.orchestrator.record? id = none → t.orchestrator.record? id = none
  inbox     : t.inbox.messages = s.inbox.messages

/-- `_maybe_recover` of a process, over the text of its snapshot file. -/
def ProcessState.recoverFile (rt : Runtime) (decimal : Char → Option Nat) (config : ProcessConfig) (s : ProcessState)
    (pass : StartPass) : Outcome ProcessEffect RecoverExc ProcessState Unit :=
  (maybeRecoverFile rt decimal config pass.env true (s.file.map ProcessSnapshot.text)).run s

/-- `HermesRegtestProcess.__init__`, over the text of the snapshot file. -/
def World.startFile (rt : Runtime) (decimal : Char → Option Nat) (config : ProcessConfig) (w : World) (pass : StartPass) :
    Outcome ProcessEffect RecoverExc ProcessState Unit := w.boot.recoverFile rt decimal config pass

section

variable {rt : Runtime} {decimal : Char → Option Nat} {config : ProcessConfig} {s s' t : ProcessState}

/-- The record that recovery makes of the snapshot of a restorable one. -/
theorem IntentRecord.Restorable.recovered {id : String} {r : IntentRecord} (h : r.Restorable id) :
    r.snapshot.recovered = r.restarted := by
  rw [SnapshotRecord.recovered, h.restore]
  rfl

/-- Recovery over the snapshot of a process leaves its own snapshot in the file. -/
theorem Recovers.file_eq (h : Recovers t.snapshot s s')
    (hnone : ∀ id, t.orchestrator.record? id = none → s.orchestrator.record? id = none)
    (hinbox : s'.inbox.messages = t.inbox.messages) : s'.file = some s'.snapshot := by
  rw [h.file]
  split
  · next hempty =>
      have hget (id : String) : t.snapshot.records.get? id = none := by
        rw [Dict.get?, hempty]
        rfl
      have hempty' : s'.snapshot.records.entries = [] := by
        refine Dict.entries_eq_nil_of_get? fun id => ?_
        have hid := hget id
        rw [t.get?_snapshot, Option.map_eq_none_iff] at hid
        rw [s'.get?_snapshot, h.others id (hget id), hnone id hid]
        rfl
      have hrecords : t.snapshot.records = s'.snapshot.records := Dict.eq_of_entries (hempty.trans hempty'.symm)
      have hmessages : t.snapshot.inbox = s'.snapshot.inbox := hinbox.symm
      exact congrArg some (congrArg₂ ProcessSnapshot.mk hrecords hmessages)
  · rfl

/-- Recovery over the text of a snapshot that a process has written. -/
theorem recoverFile_eq (hint : rt.ReadsIntegers) (hfile : s.file = some t.snapshot)
    (hlimit : rt.limit t.snapshot.text = none) (pass : StartPass) :
    s.recoverFile rt decimal config pass = ((maybeRecover config pass.env true).mapError .exc).run s := by
  refine run_maybeRecoverFile config pass.env true hint s fun snapshot hsnapshot => ?_
  obtain rfl := Option.some.inj (hfile.symm.trans hsnapshot)
  exact ⟨t.snapshot_sorted, hlimit⟩

/-- Recovery over the snapshot of a process, from nothing or over the process itself, returns and reproduces it. -/
theorem recoverFile_reproduces (hint : rt.ReadsIntegers) (hrestorable : t.orchestrator.Restorable)
    (hfile : s.file = some t.snapshot) (hlimit : rt.limit t.snapshot.text = none)
    (hnone : ∀ id, t.orchestrator.record? id = none → s.orchestrator.record? id = none)
    (hinbox : s.inbox.messages = [] ∨ s.inbox = t.inbox) (pass : StartPass) :
    let out := s.recoverFile rt decimal config pass
    out.result = .ok () ∧ out.state.file = some out.state.snapshot ∧ Reproduces IntentRecord.restarted t out.state := by
  intro out
  obtain ⟨s', es, hrun, hrecovers⟩ :=
    run_maybeRecover config pass.env hfile (ProcessState.snapshot_sound hrestorable).records
  have hout : out = ⟨.ok (), s', es⟩ := by
    have htext : out = _ := recoverFile_eq hint hfile hlimit pass
    rw [Proc.run_mapError, hrun] at htext
    exact htext
  have hmessages : s'.inbox.messages = t.inbox.messages := by
    have hread : s'.inbox = t.inbox.messages.foldl Inbox.add s.inbox := hrecovers.inbox
    rw [hread]
    rcases hinbox with hempty | hsame
    · rw [Inbox.messages_foldl_add, hempty, List.nil_append]
      rw [hempty]
      exact t.inbox.nodup
    · rw [hsame, Inbox.foldl_add_known]
      intro m hm
      exact List.mem_map_of_mem hm
  rw [hout]
  refine ⟨rfl, hrecovers.file_eq hnone hmessages, ?_, ?_, hmessages⟩
  · intro id r hr
    have hget : t.snapshot.records.get? id = some r.snapshot := by rw [t.get?_snapshot, hr]; rfl
    obtain ⟨r', hr', reconciliation, rfl⟩ := hrecovers.records id _ hget
    refine ⟨reconciliation, ?_⟩
    rw [hr', (hrestorable id r hr).recovered]
  · intro id hid
    have hget : t.snapshot.records.get? id = none := by rw [t.get?_snapshot, hid]; rfl
    rw [hrecovers.others id hget, hnone id hid]

/-- No intent of a process that was restarted is in `EXECUTING`. -/
theorem Reproduces.state_ne (h : Reproduces IntentRecord.restarted s t) {id : String} {r : IntentRecord}
    (hr : t.orchestrator.record? id = some r) : r.state ≠ EXECUTING := by
  cases hs : s.orchestrator.record? id with
  | none =>
      rw [h.untracked id hs] at hr
      cases hr
  | some r₀ =>
      obtain ⟨reconciliation, hr'⟩ := h.tracked id r₀ hs
      obtain rfl := Option.some.inj (hr.symm.trans hr')
      show (if r₀.state = EXECUTING then RECONCILIATION_REQUIRED else r₀.state) ≠ EXECUTING
      split
      · nofun
      · next hne => exact hne

/-- A process without such intents is reproduced as it is. -/
theorem Reproduces.same (h : Reproduces IntentRecord.restarted s t)
    (hstate : ∀ id r, s.orchestrator.record? id = some r → r.state ≠ EXECUTING) : Reproduces id s t := by
  refine ⟨?_, h.untracked, h.inbox⟩
  intro i r hr
  obtain ⟨reconciliation, hr'⟩ := h.tracked i r hr
  refine ⟨reconciliation, ?_⟩
  rw [hr', IntentRecord.restarted, if_neg (hstate i r hr)]
  rfl

/-- The file holds the snapshot of the state that an activity leaves. -/
theorem file_run (config : ProcessConfig) (a : Activity) (s : ProcessState) :
    ((a.run config true).run s).state.file = some ((a.run config true).run s).state.snapshot := by
  rw [Activity.run, if_pos rfl, Proc.run_tryFinally (run_snapshotState _)]
  rfl

variable (rt decimal config) in
/-- A new process starts over the files and holds what the process `t` held; recovering again, in that process or in
    another new one, changes no more than what the adapter says. -/
def World.Reproduces (w : World) (t : ProcessState) : Prop :=
  ∀ pass : StartPass,
    let started := w.startFile rt decimal config pass
    w.audit.opens = true ∧ started.result = .ok () ∧ HermesPayments.Reproduces IntentRecord.restarted t started.state ∧
      (rt.limit started.state.snapshot.text = none → ∀ pass' : StartPass,
        let again := started.state.recoverFile rt decimal config pass'
        let w' := w.after started.effects
        let restarted := w'.startFile rt decimal config pass'
        again.result = .ok () ∧ HermesPayments.Reproduces id started.state again.state ∧
          w'.audit.opens = true ∧ restarted.result = .ok () ∧ HermesPayments.Reproduces id started.state restarted.state)

/-- Intact files that hold the snapshot of a restorable process. -/
theorem World.reproduces_of_intact (hint : rt.ReadsIntegers) {w : World} (haudit : w.audit.Intact)
    (hrecords : t.orchestrator.Restorable) (hwritten : w.snapshot = some t.snapshot)
    (hlimit : rt.limit t.snapshot.text = none) : World.Reproduces rt decimal config w t := by
  intro pass started
  have hsound : restorable.crash w := by
    intro snapshot hsnapshot
    obtain rfl := Option.some.inj (hwritten.symm.trans hsnapshot)
    exact t.snapshot_sound hrecords
  obtain ⟨hok, hstarted, hreproduces⟩ := @recoverFile_reproduces rt decimal config w.boot _ hint hrecords hwritten
    hlimit (fun _ _ => rfl) (.inl rfl) pass
  refine ⟨haudit.opens, hok, hreproduces, fun hlimit' pass' => ?_⟩
  -- the new process is one that the typed start makes
  have hstart : started = _ := @recoverFile_eq rt decimal config w.boot t hint hwritten hlimit pass
  have hstate : started.state = (w.start config pass).state := by rw [hstart]; rfl
  have heffects : started.effects = (w.start config pass).effects := by rw [hstart]; rfl
  obtain ⟨_, hfile', hrecords'⟩ := (restorable_start config hsound pass).2
  rw [← hstate, ← heffects] at hfile'
  rw [← hstate] at hrecords'
  have hrewritten : (w.after started.effects).boot.file = some started.state.snapshot := hfile'.symm.trans hstarted
  obtain ⟨hagain, _, hsame⟩ := @recoverFile_reproduces rt decimal config _ _ hint hrecords' hstarted hlimit'
    (fun _ hid => hid) (.inr rfl) pass'
  obtain ⟨hrestarted, _, hsame'⟩ := @recoverFile_reproduces rt decimal config _ _ hint hrecords' hrewritten
    hlimit' (fun _ _ => rfl) (.inl rfl) pass'
  have hsettled (id : String) (r : IntentRecord) (hr : started.state.orchestrator.record? id = some r) :
      r.state ≠ EXECUTING := hreproduces.state_ne hr
  exact ⟨hagain, hsame.same hsettled, (World.intact_after haudit started.effects).opens, hrestarted, hsame'.same hsettled⟩

/-- **A restart reproduces the process**: after any activity whose snapshot is written, in any run in which no process was
    started over an audit file whose last line has no newline. -/
theorem restart_reproduces (hint : rt.ReadsIntegers) {h : List (Event Node FaultEvent)} {w : World} {s : ProcessState}
    (hrun : FaultRun config h ⟨w, some s⟩) (hstarts : StartsOnNewLine h) (a : Activity)
    (hlimit : rt.limit ((a.run config true).run s).state.snapshot.text = none) :
    World.Reproduces rt decimal config (w.after ((a.run config true).run s).effects) ((a.run config true).run s).state := by
  have hnode : Node.Restorable ⟨w.after ((a.run config true).run s).effects, some ((a.run config true).run s).state⟩ :=
    FaultRun.restorable (hrun.snoc (.performed w s a true))
  obtain ⟨_, hfile, hrecords⟩ := hnode.2 _ rfl
  have haudit := World.intact_after ((hrun.audited hstarts).intact s rfl) ((a.run config true).run s).effects
  exact World.reproduces_of_intact hint haudit hrecords (hfile.symm.trans (file_run config a s)) hlimit

end

namespace Sample

/-- A process whose payment is approved. -/
def readyToPay : World × ProcessState := performs process booted (calls (approved "i" 0))

/-- The adapter fails while the payment is dispatched. -/
def failingExecute : Activity :=
  .line { penv with adapter := adapter (.error (.other "connection lost")) } (.ok .execute)

/-- The files that the command leaves. -/
def leftBehind : World := readyToPay.1.after ((failingExecute.run process true).run readyToPay.2).effects

/-- A command with a line of its own in the audit file. -/
def submissionOf (id : String) : Activity := .line penv (.ok (.submitIntent (intent id 100)))

/-- The first process is killed when the line has all but its newline. -/
def unended : World := (Cut.mk 1 .text).world booted.1 ((submissionOf "i").run process true |>.run booted.2).effects

/-- The second process starts over the file … -/
def resumed : World × ProcessState :=
  (unended.after (unended.start process pass).effects, (unended.start process pass).state)

/-- … and writes on. -/
def writtenOn : World := resumed.1.after ((submissionOf "j").run process true |>.run resumed.2).effects

end Sample

/-- A payment that is left in `EXECUTING` comes back in `RECONCILIATION_REQUIRED`, with its payload. -/
theorem restart_reproduces_dispatched :
    let started := Sample.leftBehind.startFile Sample.runtime (fun _ => none) Sample.process Sample.pass
    Sample.leftBehind.audit.opens = true ∧ started.result = .ok () ∧ ∃ r, started.state.orchestrator.record? "i" = some r ∧
      r.state = RECONCILIATION_REQUIRED ∧ r.prepared = some ⟨2, "hash", .LIGHTNING, [1, 2, 3]⟩ := by
  unfold Sample.leftBehind
  have hrun : FaultRun Sample.process _ ⟨Sample.readyToPay.1, some Sample.readyToPay.2⟩ :=
    Sample.booted_faultRun.performs Sample.process (Sample.calls (Sample.approved "i" 0))
  have hstarts := Sample.booted_startsOnNewLine.performs Sample.process Sample.booted (Sample.calls (Sample.approved "i" 0))
  have hlimit (text : String) : Sample.runtime.limit text = none := rfl
  obtain ⟨hopens, hok, hreproduces, _⟩ := @restart_reproduces Sample.runtime (fun _ => none) Sample.process
    Sample.runtime_readsIntegers _ _ _ hrun hstarts Sample.failingExecute (hlimit _) Sample.pass
  obtain ⟨r, hr, hstate, hprepared⟩ : ∃ r, ((Sample.failingExecute.run Sample.process true).run
      Sample.readyToPay.2).state.orchestrator.record? "i" = some r ∧ r.state = EXECUTING ∧
        r.prepared = some ⟨2, "hash", .LIGHTNING, [1, 2, 3]⟩ := ⟨_, rfl, rfl, rfl⟩
  obtain ⟨reconciliation, hrestarted⟩ := hreproduces.tracked "i" r hr
  refine ⟨hopens, hok, _, hrestarted, ?_, hprepared⟩
  show (if r.state = EXECUTING then RECONCILIATION_REQUIRED else r.state) = RECONCILIATION_REQUIRED
  rw [if_pos hstate]

/-- Two entries on one line of the audit file, and no process can be started any more. -/
theorem restart_refused : ¬ ∀ (rt : Runtime) (decimal : Char → Option Nat) (config : ProcessConfig)
    (h : List (Event Node FaultEvent)) (w : World) (s : ProcessState) (a : Activity), rt.ReadsIntegers →
      FaultRun config h ⟨w, some s⟩ → rt.limit ((a.run config true).run s).state.snapshot.text = none →
      World.Reproduces rt decimal config (w.after ((a.run config true).run s).effects)
        ((a.run config true).run s).state := by
  intro hall
  have hkilled := Sample.booted_faultRun.snoc (FaultStep.killed _ _ (Sample.submissionOf "i") true ⟨1, .text⟩)
  have hresumed := hkilled.snoc (FaultStep.started Sample.unended Sample.pass (by decide) (by decide))
  have hopens := (hall Sample.runtime (fun _ => none) _ _ _ _ (Sample.submissionOf "j") Sample.runtime_readsIntegers hresumed
    rfl Sample.pass).1
  have hglued : Sample.writtenOn.audit.opens = false := by decide
  exact Bool.false_ne_true (hglued.symm.trans hopens)

end HermesPayments
