import HermesPayments.Process.Restart

/-!
# `HermesPayments.Process.Returns` — when `approve` and `accept_receipt` return, and what they do then

`Approvable` and `Settleable` are what the two operations of the policy engine check. A command returns exactly when
its check passes (`approve_handled`, `approve_checked`, and the same for a receipt), and then its
effects are the replacement of the store file, one audit line and the snapshot, in this order, after the query
of the adapter where there is one.
-/

namespace HermesPayments

open Lib PaymentState

/-- The recipient check of `HermesPeer.accept_receipt`. -/
def RecipientMatches (o : PaymentOrchestrator) (rc : PaymentReceipt) : Prop :=
  (o.getIntent rc.intentId).any (fun intent => rc.recipient.pubkey ≠ intent.recipient.pubkey) = false

/-- The receipt an `accept_receipt` command names: the first message in the inbox under the id shown. -/
def ProcessState.receiptNamed (s : ProcessState) (redactedId : String) : Option PaymentReceipt :=
  match s.inbox.messages.find? (fun m => redactedIdentifier m.messageId = redactedId) with
  | some ⟨_, .receipt rc, _, _⟩ => some rc
  | _ => none

section

variable {config : ProcessConfig} {penv : ProcessEnv} {s : ProcessState}

/-! ## From the policy engine to a response -/

/-- The state of a tracked intent, as a response shows it. -/
theorem run_stateText {id : String} {r : IntentRecord} (hr : s.orchestrator.record? id = some r) :
    (stateText id).run s = ⟨.ok (.str r.state.value), s, []⟩ := by
  have hstate : (state id).run s.orchestrator = ⟨.ok r.state, s.orchestrator, []⟩ := by
    rw [state, Proc.run_bind_ok (run_getRecord_some hr)]
    rfl
  rw [stateText, Proc.run_bind, run_process_policy, hstate]
  rfl

/-- A command that returned had a handler that did. -/
theorem handler_of_handled {command : Command} {line : String}
    (h : (s.handle config penv (.ok command)).result = .ok line) :
    ∃ resp s' es, (handler config penv command).run s = ⟨.ok resp, s', es⟩ := by
  rcases hrun : (handler config penv command).run s with ⟨e | resp, s', es⟩
  · rw [run_handleLine hrun] at h
    cases h
  · exact ⟨resp, s', es, rfl⟩

theorem run_peer_policy {α : Type} {m : Policy α} {o o' : PaymentOrchestrator} {res : Except Exc α}
    {es : List Effect} (h : m.run o = ⟨res, o', es⟩) :
    (Peer.policy m).run o = ⟨res, o', es.map .policy⟩ := by
  rw [Peer.policy, Proc.run_zoom, id, h]

/-- A call of the peer, then a response with the state of an intent. -/
theorem run_peer_respond {α : Type} {m : Peer α} {a : α} {o' : PaymentOrchestrator} {es : List PeerEffect}
    {id : String} {r : IntentRecord} (f : Json → Response) (hm : m.run s.orchestrator = ⟨.ok a, o', es⟩)
    (hr : o'.record? id = some r) :
    (Process.peer m >>= fun _ => (do let state ← stateText id; return f state : Process Response)).run s
      = ⟨.ok (f (.str r.state.value)), { s with orchestrator := o' }, es.map .peer⟩ := by
  have hpeer : (Process.peer m).run s = ⟨.ok a, { s with orchestrator := o' }, es.map .peer⟩ := by
    rw [Process.peer, Proc.run_zoom, hm]
  have hstate : (stateText id).run { s with orchestrator := o' } = ⟨.ok (.str r.state.value), _, []⟩ :=
    run_stateText hr
  rw [Proc.run_bind_ok hpeer, Proc.run_bind_ok hstate, Proc.run_pure, Proc.after_nil, Proc.after_mk,
    List.append_nil]

/-- … which returns only if the call does. -/
theorem peer_of_respond {α β : Type} {m : Peer α} {f : α → Process β} {b : β}
    (h : ((Process.peer m >>= f).run s).result = .ok b) : ∃ a, (m.run s.orchestrator).result = .ok a := by
  rw [Proc.run_bind, Process.peer, Proc.run_zoom] at h
  cases hm : (m.run s.orchestrator).result with
  | ok a => exact ⟨a, rfl⟩
  | error e =>
      rw [hm] at h
      cases h

/-! ## `approve` -/

theorem handleApprove_eq {approver : AgentIdentity} (happrover : config.approver = some approver)
    (intentId quoteId preparedHash : String) :
    let a := buildApproval config penv approver intentId quoteId
      (resolveHash (s.orchestrator.record? intentId) preparedHash)
    (handler config penv (.approve intentId quoteId preparedHash)).run s
      = (Process.peer (Peer.policy (approve config.policy penv.env a)) >>= fun _ =>
          (do let state ← stateText a.intentId
              return [("intent_id", .str (redactedIdentifier a.intentId)),
                ("quote_id", .str (redactedIdentifier a.quoteId)),
                ("prepared_hash", .str (redactedIdentifier a.preparedHash)), ("state", state)] :
            Process Response)).run s := by
  have hget : (Proc.get : Process ProcessState).run s = ⟨.ok s, s, []⟩ := rfl
  simp only [handler, handleApprove, happrover]
  rw [Proc.run_bind_ok hget, Proc.after_nil]
  rfl

/-- **An approval that passes every check** saves the triple, writes its audit line, and then the snapshot. -/
theorem approve_handled {approver : AgentIdentity} {intentId quoteId preparedHash : String}
    (happrover : config.approver = some approver) (hok : Approvable s.orchestrator intentId quoteId
      (resolveHash (s.orchestrator.record? intentId) preparedHash)) :
    ∃ line s' entry, s.handle config penv (.ok (.approve intentId quoteId preparedHash)) = ⟨.ok line, s',
      [.peer (.policy (.storeSave (s.orchestrator.store.addApproval intentId quoteId
          (resolveHash (s.orchestrator.record? intentId) preparedHash)))),
        .peer (.policy (.auditAppend entry)), .snapshotSave s'.snapshot]⟩ ∧
      ∃ r, s'.orchestrator.record? intentId = some r ∧ r.state = APPROVED := by
  obtain ⟨r, q, prep, hr, hquote, hqid, hprep, hhash, hnew, hstate⟩ := hok
  let a := buildApproval config penv approver intentId quoteId
    (resolveHash (s.orchestrator.record? intentId) preparedHash)
  have hcall : (call config.policy penv.env (.approve a)).run s.orchestrator = _ :=
    run_approve_ok hr hquote hqid hprep hhash hnew hstate (penv.saves _)
  obtain ⟨_, _, happrove⟩ := Proc.run_of_map hcall
  have hpeer := run_peer_policy happrove
  have hr' : PaymentOrchestrator.record?
      ((s.orchestrator.withStore (s.orchestrator.store.addApproval a.intentId a.quoteId a.preparedHash)).update
        a.intentId (fun r => { r with approval := some a, state := APPROVED })).logged a.intentId
      = some { r with approval := some a, state := APPROVED } := by
    rw [PaymentOrchestrator.record?_logged, PaymentOrchestrator.record?_update, if_pos rfl]
    show Option.map _ (s.orchestrator.record? intentId) = _
    rw [hr]
    rfl
  have hhandler := (handleApprove_eq happrover intentId quoteId preparedHash).trans
    (run_peer_respond _ hpeer hr')
  exact ⟨_, _, _, run_handleLine hhandler, _, hr', rfl⟩

/-- … and only such an approval returns. -/
theorem approve_checked {intentId quoteId preparedHash line : String}
    (h : (s.handle config penv (.ok (.approve intentId quoteId preparedHash))).result = .ok line) :
    config.approver.isSome = true ∧ Approvable s.orchestrator intentId quoteId
      (resolveHash (s.orchestrator.record? intentId) preparedHash) := by
  obtain ⟨resp, s', es, hrun⟩ := handler_of_handled h
  cases happrover : config.approver with
  | none =>
      simp only [handler, handleApprove, happrover] at hrun
      cases hrun
  | some approver =>
      refine ⟨rfl, ?_⟩
      rw [handleApprove_eq happrover] at hrun
      obtain ⟨u, hu⟩ := peer_of_respond (congrArg Outcome.result hrun)
      let a := buildApproval config penv approver intentId quoteId
        (resolveHash (s.orchestrator.record? intentId) preparedHash)
      have hcall : ((call config.policy penv.env (.approve a)).run s.orchestrator).result = .ok .unit := by
        rcases happrove : (approve config.policy penv.env a).run s.orchestrator with ⟨_ | u', o', es'⟩
        · rw [run_peer_policy happrove] at hu
          cases hu
        · rw [call, Proc.run_bind_ok happrove]
          rfl
      have hstep : Steps config.policy penv.env s.orchestrator (.approve a) _ := call_step _ _
      unfold Steps at hstep
      rw [hcall] at hstep
      exact hstep.approve_ok

/-! ## `accept_receipt` -/

theorem receiptNamed_eq_some {id : String} {rc : PaymentReceipt} (h : s.receiptNamed id = some rc) :
    ∃ msg, s.inbox.messages.find? (fun m => redactedIdentifier m.messageId = id) = some msg ∧
      msg.message = .receipt rc := by
  unfold ProcessState.receiptNamed at h
  split at h
  · next messageId rc' author publishedAt hfind =>
      cases h
      exact ⟨_, hfind, rfl⟩
  · cases h

theorem receiptNamed_of_find {id : String} {rc : PaymentReceipt} {msg : PeerMessage}
    (hfind : s.inbox.messages.find? (fun m => redactedIdentifier m.messageId = id) = some msg)
    (hmsg : msg.message = .receipt rc) : s.receiptNamed id = some rc := by
  obtain ⟨messageId, message, author, publishedAt⟩ := msg
  have hmessage : message = .receipt rc := hmsg
  subst hmessage
  rw [ProcessState.receiptNamed, hfind]

theorem run_findInboxMessage {id : String} {msg : PeerMessage}
    (hfind : s.inbox.messages.find? (fun m => redactedIdentifier m.messageId = id) = some msg) :
    (findInboxMessage id).run s = ⟨.ok msg, s, []⟩ := by
  have hget : (Proc.get : Process ProcessState).run s = ⟨.ok s, s, []⟩ := rfl
  rw [findInboxMessage, Proc.run_bind_ok hget, Proc.after_nil, hfind]
  rfl

/-- The response of a handler that has found its receipt. -/
def receiptResponse (rc : PaymentReceipt) (state : Json) : Response :=
  [("intent_id", .str (redactedIdentifier rc.intentId)), ("state", state)]

theorem handleAcceptReceipt_eq {id : String} {rc : PaymentReceipt} (hnamed : s.receiptNamed id = some rc) :
    (handler config penv (.acceptReceipt id)).run s
      = Proc.after [.acceptCall (.receipt rc)] ((Process.peer (HermesPeer.acceptReceipt config.policy penv.peer rc) >>= fun _ =>
          (do let state ← stateText rc.intentId
              return receiptResponse rc state : Process Response)).run s) := by
  obtain ⟨msg, hfind, hmsg⟩ := receiptNamed_eq_some hnamed
  simp only [handler, handleAcceptReceipt]
  rw [Proc.run_bind_ok (run_findInboxMessage hfind), Proc.after_nil, hmsg]
  exact run_process_accept _ _ _ s

/-- A receipt from the right recipient goes to the policy engine. -/
theorem run_acceptReceipt {o : PaymentOrchestrator} {rc : PaymentReceipt} (hrecipient : RecipientMatches o rc) :
    (HermesPeer.acceptReceipt config.policy penv.peer rc).run o
      = (Peer.policy (receiveReceipt config.policy penv.env rc)).run o := by
  have hget : (Proc.get : Peer PaymentOrchestrator).run o = ⟨.ok o, o, []⟩ := rfl
  rw [HermesPeer.acceptReceipt, Proc.run_bind_ok hget, Proc.after_nil]
  unfold RecipientMatches at hrecipient
  simp only [hrecipient, Bool.false_eq_true, if_false]
  rfl

/-- **A receipt that every gate lets through**: the query, the binding saved, its audit line, and then the
    snapshot. -/
theorem acceptReceipt_handled {id : String} {rc : PaymentReceipt} (hnamed : s.receiptNamed id = some rc)
    (hrecipient : RecipientMatches s.orchestrator rc) (hok : Settleable s.orchestrator penv.adapter rc) :
    ∃ line s' query entry, s.handle config penv (.ok (.acceptReceipt id)) = ⟨.ok line, s',
      [.acceptCall (.receipt rc), .peer (.policy (.verifyCall rc.intentId rc.settlementRef rc.amountSat query)),
        .peer (.policy (.storeSave (s.orchestrator.store.addReceipt rc.intentId rc.settlementRef))),
        .peer (.policy (.auditAppend entry)), .snapshotSave s'.snapshot]⟩ ∧
      s'.inbox = s.inbox ∧ ∃ r, s'.orchestrator.record? rc.intentId = some r ∧ r.state = SETTLED := by
  obtain ⟨r, q, v, hr, hstate, hnew, hamount, hquote, hqid, hverify, hverified⟩ := hok
  have hcall : (call config.policy penv.env (.receiveReceipt rc)).run s.orchestrator = _ :=
    run_receiveReceipt_ok hr hstate hnew hamount hquote hqid hverify hverified (penv.saves _)
  obtain ⟨_, _, hreceive⟩ := Proc.run_of_map hcall
  have hpeer := (run_acceptReceipt hrecipient).trans (run_peer_policy hreceive)
  have hr' : PaymentOrchestrator.record?
      ((s.orchestrator.withStore (s.orchestrator.store.addReceipt rc.intentId rc.settlementRef)).update
        rc.intentId (fun r => { r with receipt := some rc, state := SETTLED })).logged rc.intentId
      = some { r with receipt := some rc, state := SETTLED } := by
    rw [PaymentOrchestrator.record?_logged, PaymentOrchestrator.record?_update, if_pos rfl]
    show Option.map _ (s.orchestrator.record? rc.intentId) = _
    rw [hr]
    rfl
  have hhandler := (handleAcceptReceipt_eq hnamed).trans (congrArg (Proc.after _) (run_peer_respond _ hpeer hr'))
  exact ⟨_, _, _, _, run_handleLine hhandler, rfl, _, hr', rfl⟩

/-- … and only such a receipt returns. -/
theorem acceptReceipt_checked {id line : String}
    (h : (s.handle config penv (.ok (.acceptReceipt id))).result = .ok line) :
    ∃ rc, s.receiptNamed id = some rc ∧ RecipientMatches s.orchestrator rc ∧
      Settleable s.orchestrator penv.adapter rc := by
  obtain ⟨resp, s', es, hrun⟩ := handler_of_handled h
  -- the message is there, and is a receipt
  have hnamed : ∃ rc, s.receiptNamed id = some rc := by
    simp only [handler, handleAcceptReceipt] at hrun
    cases hfind : s.inbox.messages.find? (fun m => redactedIdentifier m.messageId = id) with
    | none =>
        have hget : (Proc.get : Process ProcessState).run s = ⟨.ok s, s, []⟩ := rfl
        have hraise : (findInboxMessage id).run s
            = ⟨.error (.processProtocolError s!"message {id} not found in inbox"), s, []⟩ := by
          rw [findInboxMessage, Proc.run_bind_ok hget, Proc.after_nil, hfind]
          rfl
        rw [Proc.run_bind_error hraise] at hrun
        cases hrun
    | some msg =>
        rw [Proc.run_bind_ok (run_findInboxMessage hfind), Proc.after_nil] at hrun
        cases hmsg : msg.message with
        | receipt rc => exact ⟨rc, receiptNamed_of_find hfind hmsg⟩
        | intent _ | quote _ =>
            rw [hmsg] at hrun
            cases hrun
  obtain ⟨rc, hnamed⟩ := hnamed
  rw [handleAcceptReceipt_eq hnamed] at hrun
  obtain ⟨rc', hrc'⟩ := peer_of_respond (congrArg Outcome.result hrun)
  have hrecipient : RecipientMatches s.orchestrator rc := by
    by_contra hmismatch
    have hget : (Proc.get : Peer PaymentOrchestrator).run s.orchestrator = ⟨.ok _, _, []⟩ := rfl
    rw [HermesPeer.acceptReceipt, Proc.run_bind_ok hget, Proc.after_nil] at hrc'
    unfold RecipientMatches at hmismatch
    rw [Bool.not_eq_false] at hmismatch
    simp only [hmismatch, if_true] at hrc'
    cases hrc'
  refine ⟨rc, hnamed, hrecipient, ?_⟩
  rw [run_acceptReceipt hrecipient] at hrc'
  rcases hreceive : (receiveReceipt config.policy penv.env rc).run s.orchestrator with ⟨_ | rc'', o', es'⟩
  · rw [run_peer_policy hreceive] at hrc'
    cases hrc'
  · have hcall : ((call config.policy penv.env (.receiveReceipt rc)).run s.orchestrator).result
        = .ok (.receipt rc'') := by
      rw [call, Proc.run_bind_ok hreceive]
      rfl
    have hstep : Steps config.policy penv.env s.orchestrator (.receiveReceipt rc) _ := call_step _ _
    unfold Steps at hstep
    rw [hcall] at hstep
    exact hstep.receiveReceipt_ok

end

end HermesPayments
