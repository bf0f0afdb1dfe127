import HermesPayments.Process.Commands

/-!
# `HermesPayments.Process.Frame` — what every handler keeps

A `Frame` is an assertion about memory and files that implies a condition on the files alone. A handler reads, calls the
policy engine at most once, sends, and answers; `recover` loops over recovery passes. So a frame that the calls and a pass
of recovery keep is kept by every handler, and the condition holds wherever the handler is cut short (`Admits.handler`).
`receive`, which writes the inbox, and `execute`, which dispatches, are left to the frame; one that does not mind what the
inbox in memory holds keeps `receive` too (`IgnoresInbox`).
-/

namespace HermesPayments

open Lib PaymentState

/-- A computation of the policy engine, as part of the process. -/
theorem run_process_policy {α : Type} (m : Policy α) (s : ProcessState) :
    (Process.policy m).run s = ⟨(m.run s.orchestrator).result,
      { s with orchestrator := (m.run s.orchestrator).state },
      (m.run s.orchestrator).effects.map (fun w => .peer (.policy w))⟩ := by
  show Outcome.mk _ _ (((m.run s.orchestrator).effects.map PeerEffect.policy).map ProcessEffect.peer) = _
  rw [List.map_map]
  rfl

/-- Handing a message over comes before everything the peer does. -/
theorem run_process_accept {α β : Type} (message : PaymentMessage) (m : Peer α) (f : α → Process β) (s : ProcessState) :
    (Process.accept message m >>= f).run s = Proc.after [.acceptCall message] ((Process.peer m >>= f).run s) := by
  have haccept : (Process.accept message m).run s = Proc.after [.acceptCall message] ((Process.peer m).run s) := rfl
  rcases hpeer : (Process.peer m).run s with ⟨e | a, s', es⟩
  · rw [hpeer] at haccept
    rw [Proc.run_bind_error haccept, Proc.run_bind_error hpeer]
    rfl
  · rw [hpeer] at haccept
    rw [Proc.run_bind_ok haccept, Proc.run_bind_ok hpeer]
    rfl

/-- Nothing the peer does touches the snapshot. -/
theorem World.after_peer (w : World) (es : List PeerEffect) :
    (w.after (es.map ProcessEffect.peer)).snapshot = w.snapshot := by
  induction es generalizing w with
  | nil => rfl
  | cons e es ih =>
      rw [List.map_cons, World.after, applyAll_cons, ih (w.apply (.peer e))]
      cases e with
      | policy effect => cases effect <;> rfl
      | send _ | receive _ => rfl

/-- An assertion about memory and files, and the condition on the files that it implies. -/
structure Frame where
  crash : World → Prop
  holds : ProcessState → World → Prop
  sound : ∀ {s w}, holds s w → crash w

namespace Frame

variable {F : Frame} {α β : Type}

/-- The computation keeps the assertion, and the condition wherever it is cut short. -/
abbrev Keeps (F : Frame) (m : Process α) : Prop := Crash World.apply F.crash F.holds m (fun _ => F.holds)

namespace Keeps

theorem still {m : Process α} (hm : m.Still) : F.Keeps m := Crash.still hm fun _ _ h => F.sound h

theorem bind {m : Process α} {f : α → Process β} (hm : F.Keeps m) (hf : ∀ x, F.Keeps (f x)) : F.Keeps (m >>= f) :=
  Crash.seq hm hf fun _ _ h => h

theorem ite {c : Prop} [Decidable c] {m n : Process α} (hm : F.Keeps m) (hn : F.Keeps n) :
    F.Keeps (if c then m else n) := Crash.ite (fun _ => hm) (fun _ => hn)

/-- A refusal, whatever would follow. -/
theorem refuse {e : Exc} {f : β → Process α} : F.Keeps (Proc.raise e >>= f) :=
  Crash.raise_bind fun _ _ h => ⟨F.sound h, h⟩

/-- A computation, then an answer. -/
theorem respond {m : Process α} {f : α → Process β} (hm : F.Keeps m) (hf : ∀ x, (f x).Still) : F.Keeps (m >>= f) :=
  hm.bind fun x => still (hf x)

/-! ## Calls -/

/-- A sequence of the peer is the sequence of its parts. -/
theorem peer_eq_bind (m : Peer α) (f : α → Peer β) :
    Process.peer (m >>= f) = Process.peer m >>= fun x => Process.peer (f x) := by
  unfold Process.peer
  refine Proc.zoom_bind ?_ ?_ m f
  · intro o s
    rfl
  · intro o o' s
    rfl

theorem policy_eq_map (m : Policy α) (g : α → β) :
    Process.policy (m >>= fun a => pure (g a)) = Process.policy m >>= fun a => pure (g a) := by
  have hpeer : Peer.policy (m >>= fun a => pure (g a)) = Peer.policy m >>= fun a => Peer.policy (pure (g a)) := by
    unfold Peer.policy
    refine Proc.zoom_bind ?_ ?_ m _
    · intro o s
      rfl
    · intro o o' s
      rfl
  unfold Process.policy
  rw [hpeer, peer_eq_bind]
  rfl

/-- What a call of the policy engine does does not depend on what its answer is turned into. -/
theorem policy_of_map {m : Policy α} {g : α → β} (h : F.Keeps (Process.policy (m >>= fun a => pure (g a)))) :
    F.Keeps (Process.policy m) := by
  rw [policy_eq_map] at h
  exact Crash.of_map h

theorem peer_bind {m : Peer α} {f : α → Peer β} (hm : F.Keeps (Process.peer m)) (hf : ∀ x, F.Keeps (Process.peer (f x))) :
    F.Keeps (Process.peer (m >>= f)) := by
  rw [peer_eq_bind]
  exact bind hm hf

theorem peer_still {m : Peer α} (hm : m.Still) : F.Keeps (Process.peer m) := still (Proc.Still.zoom (fun _ => rfl) hm)

/-- The files do not tell that a message was sent or the transport read. -/
theorem peer_emit {effect : PeerEffect} (heffect : ∀ w : World, w.apply (.peer effect) = w) :
    F.Keeps (Process.peer (Proc.emit [effect])) := by
  refine Crash.of_effect (w := fun _ => .peer effect) (fun _ => rfl) ?_
  intro s w h
  rw [heffect]
  exact ⟨F.sound h, F.sound h, h⟩

/-- … or that a message was handed over. -/
theorem accept {m : Peer α} (message : PaymentMessage) (hm : F.Keeps (Process.peer m)) :
    F.Keeps (Process.accept message m) :=
  bind (Crash.emit fun _ _ h => ⟨F.sound h, F.sound h, h⟩) fun _ => hm

theorem transportSend (penv : PeerEnv) (m : PaymentMessage) : F.Keeps (Process.peer (HermesPeer.transportSend penv m)) :=
  peer_bind (peer_emit fun _ => rfl) fun _ => peer_still (Proc.Still.ofExcept _)

theorem send (identity : AgentIdentity) (penv : PeerEnv) (m : PaymentMessage) :
    F.Keeps (Process.peer (HermesPeer.send identity penv m)) :=
  peer_bind (peer_still (still_requireLocalAuthor _ _)) fun _ => transportSend penv m

theorem receive (penv : PeerEnv) (limit : Option Int) : F.Keeps (Process.peer (HermesPeer.receive penv limit)) :=
  peer_bind (peer_emit fun _ => rfl) fun _ => peer_still (Proc.Still.ofExcept _)

/-- A handler that looks for a message in the inbox first. -/
theorem named (id : String) {f : PeerMessage → Process Response} (hf : ∀ m, F.Keeps (f m)) :
    F.Keeps (findInboxMessage id >>= f) := (still (still_findInboxMessage id)).bind hf

end Keeps

/-! ## The inbox in memory -/

/-- The assertion does not mind what the inbox in memory holds. -/
def IgnoresInbox (F : Frame) : Prop := ∀ s w inbox, F.holds s w → F.holds { s with inbox := inbox } w

namespace IgnoresInbox

theorem modify (hinbox : F.IgnoresInbox) (f : ProcessState → Inbox) :
    F.Keeps (Proc.modify fun s : ProcessState => { s with inbox := f s }) :=
  Crash.modify fun s w h => ⟨F.sound h, hinbox s w _ h⟩

theorem receive (hinbox : F.IgnoresInbox) (config : ProcessConfig) (penv : ProcessEnv) (limit : Option Int) :
    F.Keeps (handler config penv (.receive limit)) := by
  refine (Keeps.receive penv.peer limit).bind fun received => ?_
  refine (Keeps.still Proc.Still.get).bind fun s => ?_
  exact (hinbox.modify fun _ => (s.inbox.takeIn received).1).respond fun _ => Proc.Still.pure _

/-- Recovery, from what its loop keeps over the snapshot in the file. -/
theorem maybeRecover (hinbox : F.IgnoresInbox) (config : ProcessConfig) (env : String → Env) (reconcile : Bool)
    (hsnapshot : F.Keeps snapshotState)
    (hloop : ∀ s w snapshot, F.holds s w → s.file = some snapshot →
      F.Keeps (recoverRecords config env reconcile snapshot.records.entries)) :
    F.Keeps (HermesPayments.maybeRecover config env reconcile) := by
  rw [HermesPayments.maybeRecover]
  refine Crash.get_bind fun s₀ => ?_
  cases hfile : s₀.file with
  | none => exact (Keeps.still (Proc.Still.pure _)).pre fun _ _ h => h.2
  | some snapshot =>
      rintro s w ⟨rfl, h⟩
      refine ((hloop _ w snapshot h hfile).bind fun _ => (hinbox.modify _).bind fun _ => ?_) _ w h
      exact .ite hsnapshot (.still (Proc.Still.pure _))

end IgnoresInbox

/-! ## Recovery -/

/-- What recovery asks of a frame: it logs, assigns records and queries the adapter. -/
structure ReadsBack (F : Frame) (config : ProcessConfig) : Prop where
  logs       : ∀ event fields, F.Keeps (Process.policy (audit config.policy event fields))
  assigns    : ∀ (id : String) (r : IntentRecord),
    F.Keeps (Process.policy (Proc.modify fun o => { o with intents := o.intents.set id r }))
  reconciles : ∀ (env : Env) (id : String), F.Keeps (Process.policy (reconcileSettlement config.policy env id))

theorem ReadsBack.recoverRecord {config : ProcessConfig} (h : F.ReadsBack config) (env : Env) (reconcile : Bool) (id : String)
    (d : SnapshotRecord) : F.Keeps (recoverRecord config env reconcile id d) := by
  rw [recoverRecord_eq]
  have hput : F.Keeps (putBack config env reconcile id d.recovered) := by
    refine (h.assigns _ _).bind fun _ => ?_
    exact .ite (.respond (h.reconciles env id) fun _ => Proc.Still.pure _) (.still (Proc.Still.pure _))
  exact .ite ((h.logs _ _).bind fun _ => hput) hput

theorem ReadsBack.recoverRecords {config : ProcessConfig} (h : F.ReadsBack config) (env : String → Env) (reconcile : Bool)
    (entries : List (String × SnapshotRecord)) : F.Keeps (recoverRecords config env reconcile entries) := by
  induction entries with
  | nil => exact .still (Proc.Still.pure _)
  | cons e rest ih => exact (h.recoverRecord (env e.1) reconcile e.1 e.2).bind fun _ => ih

/-! ## Handlers -/

/-- The operations of the policy engine that handlers other than that of `execute` call. -/
def handled : Op → Bool
  | .submit _ | .receiveQuote _ | .prepare | .approve _ | .receiveReceipt _ => true
  | _ => false

variable (F) (config : ProcessConfig) (penv : ProcessEnv)

/-- What a frame is asked for: what handlers are made of keeps it. -/
structure Admits : Prop where
  call    : ∀ op, handled op = true → F.Keeps (Process.policy (call config.policy penv.env op))
  verify  : ∀ ref amount, F.Keeps (Proc.emit [.verifyReceiptCall ref amount])
  recover : ∀ pass : RecoveryPass,
    F.Keeps (maybeRecover config (fun intentId => ⟨penv.now, pass.adapter intentId, false⟩) true)

variable {F config penv} (h : F.Admits config penv)

include h

/-- An operation of the policy engine. -/
theorem Admits.policy {m : Policy α} {g : α → Answer} (op : Op) (hop : handled op = true)
    (hm : HermesPayments.call config.policy penv.env op = m >>= fun a => pure (g a)) : F.Keeps (Process.policy m) := by
  have hcall := h.call op hop
  rw [hm] at hcall
  exact Keeps.policy_of_map hcall

/-- The check of a quote or a receipt against the tracked intent, then the call. -/
theorem Admits.checked {c : PaymentOrchestrator → Prop} [∀ o, Decidable (c o)] {e : Exc} {m : Policy α} {g : α → Answer}
    (op : Op) (hop : handled op = true)
    (hm : HermesPayments.call config.policy penv.env op = m >>= fun a => pure (g a)) :
    F.Keeps (Process.peer (do
      let o ← Proc.get
      if c o then Proc.raise e
      Peer.policy m)) := by
  refine Keeps.peer_bind (Keeps.peer_still Proc.Still.get) fun o => ?_
  by_cases hc : c o
  · rw [if_pos hc]
    exact Keeps.peer_bind (Keeps.peer_still (Proc.Still.raise _)) fun _ => h.policy op hop hm
  · rw [if_neg hc]
    exact h.policy op hop hm

theorem Admits.recoverLoop (maxWait : Rat) (pass : RecoveryPass) (rest : List RecoveryPass) :
    F.Keeps (recoverLoop config penv maxWait pass rest) := by
  induction rest generalizing pass with
  | nil =>
      rw [HermesPayments.recoverLoop]
      refine .respond (h.recover pass) fun _ => Proc.Still.get.bind fun _ => ?_
      exact Proc.Still.ite (Proc.Still.pure _) (Proc.Still.pure _)
  | cons next rest ih =>
      rw [HermesPayments.recoverLoop]
      refine (h.recover pass).bind fun _ => (Keeps.still Proc.Still.get).bind fun _ => ?_
      exact .ite (.still (Proc.Still.pure _)) (ih next)

theorem Admits.handleRecover (maxWaitSeconds pollIntervalSeconds : Option PyFloat) :
    F.Keeps (handleRecover config penv maxWaitSeconds pollIntervalSeconds) := by
  unfold HermesPayments.handleRecover
  split
  · split
    · exact .still (Proc.Still.raise _)
    · exact .still (Proc.Still.raise _)
    · exact .respond (h.recoverLoop _ _ _) fun _ => Proc.Still.get.bind fun _ => Proc.Still.pure _
  · exact .still (Proc.Still.raise _)

theorem Admits.handleVerifyPublishReceipt (intentId : String) (quoteId : Option String) (settlementRef : String)
    (amountSat : Option Int) :
    F.Keeps (handleVerifyPublishReceipt config penv intentId quoteId settlementRef amountSat) := by
  refine (Keeps.still Proc.Still.get).bind fun s => ?_
  cases s.orchestrator.getIntent intentId with
  | none => exact .still (Proc.Still.raise _)
  | some intent =>
      refine Crash.ite (fun _ => Keeps.refuse) (fun _ => ?_)
      refine (h.verify _ _).bind fun _ => ?_
      cases penv.adapter.verifyReceipt settlementRef (amountSat.getD intent.amountSat) with
      | error e => exact .still (Proc.Still.raise _)
      | ok verification =>
          refine Crash.ite (fun _ => Keeps.refuse) (fun _ => Crash.ite (fun _ => Keeps.refuse) (fun _ => ?_))
          split
          · exact Keeps.still (Proc.Still.raise _)
          · exact Keeps.respond (Keeps.send _ _ _) fun _ => Proc.Still.pure _

/-- **Every handler** but those of `receive` and `execute` keeps the frame. -/
theorem Admits.handler (command : Command) (hreceive : ∀ limit, command ≠ .receive limit) (hexecute : command ≠ .execute) :
    F.Keeps (handler config penv command) := by
  cases command with
  | status => exact .still (Proc.Still.get.bind fun _ => Proc.Still.pure _)
  | receive limit => exact absurd rfl (hreceive limit)
  | submitIntent i => 
      refine .respond ?_ fun _ => still_respond _ _
      refine Keeps.peer_bind (Keeps.peer_still (still_requireLocalAuthor _ _)) fun _ => ?_
      exact Keeps.peer_bind (h.policy (.submit i) rfl rfl) fun _ => Keeps.transportSend _ _
  | acceptIntent id =>
      refine Keeps.named id fun msg => ?_
      cases msg.message with
      | intent i => 
          refine Keeps.respond (Keeps.accept _ ?_) fun _ => still_respond _ _
          refine Keeps.peer_bind (Keeps.peer_still (still_requireLocalRecipient _ _)) fun _ => ?_
          exact h.policy (.submit i) rfl rfl
      | quote _ | receipt _ => exact .still (Proc.Still.raise _)
  | publishQuote q => exact .respond (Keeps.send _ _ _) fun _ => still_respond _ _
  | acceptQuote id =>
      refine Keeps.named id fun msg => ?_
      cases msg.message with
      | quote q => exact Keeps.respond (.accept _ (h.checked (.receiveQuote q) rfl rfl)) fun _ => still_respond _ _
      | intent _ | receipt _ => exact .still (Proc.Still.raise _)
  | submitQuoteLocal q => exact .respond (h.policy (.receiveQuote q) rfl rfl) fun _ => still_respond _ _
  | prepare => exact .respond (h.policy .prepare rfl rfl) fun _ => Proc.Still.pure _
  | approve i q x =>
      rw [HermesPayments.handler, handleApprove]
      cases config.approver with
      | none => exact .still (Proc.Still.raise _)
      | some approver =>
          refine (Keeps.still Proc.Still.get).bind fun s => ?_
          exact .respond (h.policy (.approve _) rfl rfl) fun _ => still_respond _ _
  | execute => exact absurd rfl hexecute
  | publishReceipt rc => exact .respond (Keeps.send _ _ _) fun _ => Proc.Still.pure _
  | verifyPublishReceipt i q ref amount => exact h.handleVerifyPublishReceipt i q ref amount
  | acceptReceipt id =>
      refine Keeps.named id fun msg => ?_
      cases msg.message with
      | receipt rc => exact Keeps.respond (.accept _ (h.checked (.receiveReceipt rc) rfl rfl)) fun _ => still_respond _ _
      | intent _ | quote _ => exact .still (Proc.Still.raise _)
  | recover maxWait pollInterval => exact h.handleRecover maxWait pollInterval
  | malformed _ => exact .still (Proc.Still.raise _)

/-- … and that of `receive` too, if it does not mind what the inbox holds. -/
theorem Admits.handler_inbox (hinbox : F.IgnoresInbox) (command : Command) (hexecute : command ≠ .execute) :
    F.Keeps (HermesPayments.handler config penv command) := by
  by_cases hreceive : ∃ limit, command = .receive limit
  · obtain ⟨limit, rfl⟩ := hreceive
    exact hinbox.receive config penv limit
  · exact h.handler command (fun limit hlimit => hreceive ⟨limit, hlimit⟩) hexecute

/-- A frame that the dispatch keeps as well is kept by every handler. -/
theorem Admits.handler_all (hinbox : F.IgnoresInbox)
    (hdispatch : F.Keeps (Process.policy (HermesPayments.call config.policy penv.env .execute))) (command : Command) :
    F.Keeps (HermesPayments.handler config penv command) := by
  by_cases hexecute : command = .execute
  · subst hexecute
    exact .respond (Keeps.policy_of_map (g := Answer.receipt) hdispatch) fun _ => still_respond _ _
  · exact h.handler_inbox hinbox command hexecute

end Frame

end HermesPayments
