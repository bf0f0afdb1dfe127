import HermesPayments.Lib.Trace
import HermesPayments.Process.Mail
import HermesPayments.Process.Restart

/-!
# `HermesPayments.Process.Handlers` — what a handler does

The handlers of a process differ in what they read and in what they answer. What they do is the same few things: a
handler makes at most one call of the policy engine, which `Command.Asks` lists by command and state, and sends at most
one message, which `Command.Publishes` lists. `HandlerStep` says so, and that nothing else happens (`handler_step`);
`recover` is left to the recovery it loops over.
-/

namespace HermesPayments

open Lib PaymentState

/-- A message is in the inbox, under some id. -/
def Inbox.Holds (b : Inbox) (m : PaymentMessage) : Prop := ∃ msg ∈ b.messages, msg.message = m

/-- The effects of the policy engine, as the process performs them. -/
abbrev policyEffects (es : List Effect) : List ProcessEffect := es.map fun w => .peer (.policy w)

/-- A message is handed to the peer. -/
def ProcessEffect.Hands (w : ProcessEffect) : Prop := ∃ m, w = .acceptCall m

theorem not_hands_peer {effect : PeerEffect} : ¬ (ProcessEffect.peer effect).Hands := by
  rintro ⟨_, h⟩
  cases h

/-- What is handed over is no effect of the peer. -/
theorem mem_handed_append {handed es : List ProcessEffect} (hhanded : ∀ w ∈ handed, w.Hands) {effect : PeerEffect} :
    .peer effect ∈ handed ++ es ↔ .peer effect ∈ es := by
  rw [List.mem_append]
  refine ⟨fun h => h.resolve_left fun hmem => not_hands_peer (hhanded _ hmem), .inr⟩

/-- The display id under which an operator names a message of the inbox. -/
def Command.displayId? : Command → Option String
  | .acceptIntent redactedId | .acceptQuote redactedId | .acceptReceipt redactedId => some redactedId
  | _ => none

section

variable (config : ProcessConfig) (penv : ProcessEnv) (s : ProcessState)

/-- The check of `accept_quote` and `accept_receipt` against the tracked intent. -/
def ProcessState.RecipientIs (intentId : String) (recipient : AgentIdentity) : Prop :=
  ∀ r, s.orchestrator.record? intentId = some r → recipient.pubkey = r.intent.recipient.pubkey

/-- The call of the policy engine that a command may make. -/
inductive Command.Asks : Command → Op → Prop
  | submitIntent {i : PaymentIntent} (hlocal : i.sender.pubkey = config.identity.pubkey) :
      Asks (.submitIntent i) (.submit i)
  | acceptIntent {id : String} {i : PaymentIntent} (hinbox : s.inbox.Holds (.intent i))
      (hlocal : i.recipient.pubkey = config.identity.pubkey) : Asks (.acceptIntent id) (.submit i)
  | acceptQuote {id : String} {q : PaymentQuote} (hinbox : s.inbox.Holds (.quote q))
      (hrecipient : s.RecipientIs q.intentId q.recipient) : Asks (.acceptQuote id) (.receiveQuote q)
  | submitQuoteLocal {q : PaymentQuote} : Asks (.submitQuoteLocal q) (.receiveQuote q)
  | prepare : Asks .prepare .prepare
  | approve {approver : AgentIdentity} {intentId quoteId preparedHash : String} (happrover : config.approver = some approver) :
      Asks (.approve intentId quoteId preparedHash) (.approve (buildApproval config penv approver intentId quoteId
        (resolveHash (s.orchestrator.intents.get? intentId) preparedHash)))
  | execute : Asks .execute .execute
  | acceptReceipt {id : String} {rc : PaymentReceipt} (hinbox : s.inbox.Holds (.receipt rc))
      (hrecipient : s.RecipientIs rc.intentId rc.recipient) : Asks (.acceptReceipt id) (.receiveReceipt rc)

/-- What `verify_publish_receipt` has made sure of: the intent is tracked, and the wallet verified its amount under the
    reference. -/
def Attests (rc : PaymentReceipt) : Prop :=
  ∃ intent v, s.orchestrator.getIntent rc.intentId = some intent ∧
    penv.adapter.verifyReceipt rc.settlementRef intent.amountSat = .ok v ∧ v.verified = true ∧
    v.settlementRef = rc.settlementRef ∧ v.amountSat = rc.amountSat ∧ v.feeSat = rc.feeSat

/-- The message that a command may send; its author is the process. -/
inductive Command.Publishes : Command → PaymentMessage → Prop
  | submitIntent {i : PaymentIntent} (hlocal : i.sender.pubkey = config.identity.pubkey) :
      Publishes (.submitIntent i) (.intent i)
  | publishQuote {q : PaymentQuote} (hlocal : q.recipient.pubkey = config.identity.pubkey) :
      Publishes (.publishQuote q) (.quote q)
  | publishReceipt {rc : PaymentReceipt} (hlocal : rc.recipient.pubkey = config.identity.pubkey) :
      Publishes (.publishReceipt rc) (.receipt rc)
  | verifyPublishReceipt {rc : PaymentReceipt} {intentId ref : String} {quoteId : Option String} {amountSat : Option Int}
      (hintent : rc.intentId = intentId) (hquote : some rc.quoteId = quoteId) (href : rc.settlementRef = ref)
      (hlocal : rc.recipient = config.identity) (hattests : Attests penv s rc) :
      Publishes (.verifyPublishReceipt intentId quoteId ref amountSat) (.receipt rc)

/-- What a handler leaves and what it performs. -/
inductive HandlerStep : Command → ProcessState → List ProcessEffect → Prop
  /-- It only reads, or refuses; or the peer refuses what it is handed. -/
  | idle {c : Command} {handed : List ProcessEffect} (hhanded : ∀ w ∈ handed, w.Hands) : HandlerStep c s handed
  | received {limit : Option Int} : HandlerStep (.receive limit)
      { s with inbox := s.inbox.afterReceive (penv.transport.receive limit) } [.peer (.receive limit)]
  | called {c : Command} {handed : List ProcessEffect} {call : Call} {o' : PaymentOrchestrator}
      (hhanded : ∀ w ∈ handed, w.Hands) (hasks : c.Asks config penv s call.op)
      (henv : call.env = penv.env) (hcall : Calls config.policy s.orchestrator call o') :
      HandlerStep c { s with orchestrator := o' } (handed ++ policyEffects call.effects)
  /-- A submission that returned is published. -/
  | submitted {i : PaymentIntent} {call : Call} {o' : PaymentOrchestrator}
      (hlocal : i.sender.pubkey = config.identity.pubkey) (hop : call.op = .submit i) (henv : call.env = penv.env)
      (hok : call.result = .ok .unit) (hcall : Calls config.policy s.orchestrator call o') :
      HandlerStep (.submitIntent i) { s with orchestrator := o' }
        (policyEffects call.effects ++ [.peer (.send (.intent i))])
  /-- The wallet is asked first when the receipt is built here. -/
  | published {c : Command} {m : PaymentMessage} {checks : List ProcessEffect} (hpublishes : c.Publishes config penv s m)
      (hchecks : ∀ w ∈ checks, ∃ ref amount, w = .verifyReceiptCall ref amount) :
      HandlerStep c s (checks ++ [.peer (.send m)])
  | unverified {intentId ref : String} {quoteId : Option String} {amountSat : Option Int} {amount : Int} :
      HandlerStep (.verifyPublishReceipt intentId quoteId ref amountSat) s [.verifyReceiptCall ref amount]
  | recovered {maxWait pollInterval : Option PyFloat} : HandlerStep (.recover maxWait pollInterval)
      ((handler config penv (.recover maxWait pollInterval)).run s).state
      ((handler config penv (.recover maxWait pollInterval)).run s).effects

/-- What a computation of the process does is what a handler of the command may do. -/
abbrev Handles {α : Type} (c : Command) (m : Process α) : Prop :=
  HandlerStep config penv s c (m.run s).state (m.run s).effects

end

section

variable {config : ProcessConfig} {penv : ProcessEnv} {s : ProcessState} {c : Command} {α β : Type}

/-! ## Parts of a handler -/

/-- A computation whose answer a call returns makes that call. -/
theorem calls_of_run {cfg : Config} {env : Env} {op : Op} {m : Policy α} {g : α → Answer}
    (hm : call cfg env op = m >>= fun a => pure (g a)) (o : PaymentOrchestrator) :
    Calls cfg o ⟨op, env, (m.run o).result.map g, (m.run o).effects⟩ (m.run o).state := by
  unfold Calls
  rw [hm, Proc.run_bind]
  rcases m.run o with ⟨e | a, o', es⟩
  · rfl
  · show Outcome.mk _ _ (es ++ []) = _
    rw [List.append_nil]
    rfl

/-- Sending changes nothing here, whatever the transport answers. -/
theorem run_transportSend (penv : ProcessEnv) (m : PaymentMessage) (s : ProcessState) : ∃ res,
    (Process.peer (HermesPeer.transportSend penv.peer m)).run s = ⟨res, s, [.peer (.send m)]⟩ := ⟨_, rfl⟩

/-- A message that was found is in the inbox. -/
theorem holds_of_found {id : String} {msg : PeerMessage} (h : ((findInboxMessage id).run s).result = .ok msg) :
    s.inbox.Holds msg.message := by
  unfold findInboxMessage at h
  rw [Proc.run_bind, Proc.run_get] at h
  cases hfind : s.inbox.messages.find? (fun m => redactedIdentifier m.messageId = id) with
  | none =>
      simp only [hfind, Proc.after_nil, Proc.run_raise] at h
      cases h
  | some found =>
      simp only [hfind, Proc.after_nil, Proc.run_pure] at h
      cases h
      exact ⟨msg, List.mem_of_find?_eq_some hfind, rfl⟩

namespace Handles

theorem still {m : Process α} (hm : m.Still) : Handles config penv s c m := by
  obtain ⟨hstate, heffects⟩ := hm s
  unfold Handles
  rw [hstate, heffects]
  exact .idle nofun

/-- An answer changes nothing. -/
theorem respond {m : Process α} {f : α → Process β} (hm : Handles config penv s c m) (hf : ∀ a, (f a).Still) :
    Handles config penv s c (m >>= f) := by
  obtain ⟨hstate, heffects⟩ := Proc.run_bind_still hf m s
  unfold Handles
  rw [hstate, heffects]
  exact hm

/-- Reading first: the rest may use what was read. -/
theorem read {m : Process α} {f : α → Process β} (hm : m.Still)
    (hf : ∀ a, (m.run s).result = .ok a → Handles config penv s c (f a)) : Handles config penv s c (m >>= f) := by
  rcases Proc.run_still_bind hm f s with ⟨a, hresult, hrun⟩ | ⟨e, hrun⟩
  · unfold Handles
    rw [hrun]
    exact hf a hresult
  · unfold Handles
    rw [hrun]
    exact .idle nofun

theorem ite {p : Prop} [Decidable p] {m n : Process α} (hm : p → Handles config penv s c m)
    (hn : ¬ p → Handles config penv s c n) : Handles config penv s c (if p then m else n) := by
  by_cases hp : p
  · rw [if_pos hp]
    exact hm hp
  · rw [if_neg hp]
    exact hn hp

/-- An operation of the policy engine that the command asks for. -/
theorem policy {op : Op} {m : Policy α} {g : α → Answer} (hasks : c.Asks config penv s op)
    (hm : call config.policy penv.env op = m >>= fun a => pure (g a)) : Handles config penv s c (Process.policy m) := by
  unfold Handles
  rw [run_process_policy]
  have hcall : Calls config.policy s.orchestrator ⟨op, penv.env, _, _⟩ _ := calls_of_run hm s.orchestrator
  exact .called (List.forall_mem_nil _) hasks rfl hcall

/-- A message is handed to the peer, which makes a call or refuses. -/
theorem accept {id : String} {message : PaymentMessage} {m : Peer α} (hc : c.displayId? = some id)
    (hm : Handles config penv s c (Process.peer m)) : Handles config penv s c (Process.accept message m) := by
  have hcons {handed : List ProcessEffect} (hhanded : ∀ w ∈ handed, w.Hands) :
      ∀ w ∈ .acceptCall message :: handed, w.Hands := List.forall_mem_cons.mpr ⟨⟨_, rfl⟩, hhanded⟩
  show HandlerStep config penv s c ((Process.peer m).run s).state (.acceptCall message :: ((Process.peer m).run s).effects)
  unfold Handles at hm
  revert hm
  generalize ((Process.peer m).run s).state = s'
  generalize ((Process.peer m).run s).effects = es
  intro hm
  cases hm with
  | idle hhanded => exact .idle (hcons hhanded)
  | called hhanded hasks henv hcall => exact .called (hcons hhanded) hasks henv hcall
  | published hpublishes _ =>
      cases hpublishes with
      | submitIntent _ | publishQuote _ | publishReceipt _ | verifyPublishReceipt _ _ _ _ _ => cases hc
  | received | submitted _ _ _ _ _ | unverified | recovered => cases hc

/-- The author check of the peer, then whatever needs it. -/
theorem authored {m : PaymentMessage} {f : Unit → Process α}
    (hf : (messageAuthor m).pubkey = config.identity.pubkey → Handles config penv s c (f ())) :
    Handles config penv s c (Process.peer (HermesPeer.requireLocalAuthor config.identity m) >>= f) := by
  refine read (Proc.Still.zoom (fun _ => rfl) (still_requireLocalAuthor _ _)) ?_
  intro a hresult
  unfold Process.peer HermesPeer.requireLocalAuthor at hresult
  rw [Proc.run_zoom] at hresult
  split at hresult
  · cases hresult
  · exact hf (not_not.mp ‹_›)

/-- A message the command publishes, with the author check in front. -/
theorem send {m : PaymentMessage} (hpublishes : (messageAuthor m).pubkey = config.identity.pubkey →
    c.Publishes config penv s m) :
    Handles config penv s c (Process.peer (HermesPeer.send config.identity penv.peer m)) := by
  rw [HermesPeer.send, Frame.Keeps.peer_eq_bind]
  refine authored fun hlocal => ?_
  obtain ⟨res, hrun⟩ := run_transportSend penv m s
  unfold Handles
  rw [hrun]
  show HandlerStep config penv s c s ([] ++ [.peer (.send m)])
  exact .published (hpublishes hlocal) fun _ hw => absurd hw List.not_mem_nil

end Handles

/-! ## The handlers -/

theorem handles_receive (limit : Option Int) : Handles config penv s (.receive limit) (handleReceive penv limit) := by
  have hrun : ∃ res, (handleReceive penv limit).run s =
      ⟨res, { s with inbox := s.inbox.afterReceive (penv.transport.receive limit) }, [.peer (.receive limit)]⟩ := by
    simp only [handleReceive, Process.peer, HermesPeer.receive, ProcessEnv.peer, Proc.run_bind, Proc.run_zoom,
      Proc.run_emit, Proc.run_ofExcept]
    cases penv.transport.receive limit with
    | error e => exact ⟨_, rfl⟩
    | ok ms => exact ⟨_, rfl⟩
  obtain ⟨res, hrun⟩ := hrun
  unfold Handles
  rw [hrun]
  exact .received

theorem handles_submitIntent (i : PaymentIntent) :
    Handles config penv s (.submitIntent i) (handleSubmitIntent config penv i) := by
  refine Handles.respond ?_ fun _ => still_respond _ _
  rw [HermesPeer.submitIntent, Frame.Keeps.peer_eq_bind]
  refine Handles.authored fun hlocal => ?_
  rw [Frame.Keeps.peer_eq_bind]
  have hcalls : Calls config.policy s.orchestrator ⟨.submit i, penv.env, _, _⟩ _ :=
    calls_of_run (g := fun _ => .unit) rfl s.orchestrator
  have hpolicy := run_process_policy (submit config.policy penv.env i) s
  show Handles config penv s _ (Process.policy (submit config.policy penv.env i) >>= _)
  unfold Handles
  cases hresult : ((submit config.policy penv.env i).run s.orchestrator).result with
  | error e =>
      -- a submission that raises is not published
      rw [hresult] at hpolicy
      rw [Proc.run_bind_error hpolicy]
      exact .called (List.forall_mem_nil _) (.submitIntent hlocal) rfl hcalls
  | ok a =>
      rw [hresult] at hpolicy hcalls
      obtain ⟨res, hsend⟩ := run_transportSend penv (.intent i)
        { s with orchestrator := ((submit config.policy penv.env i).run s.orchestrator).state }
      rw [Proc.run_bind_ok hpolicy, hsend]
      exact .submitted hlocal rfl rfl rfl hcalls

theorem handles_acceptIntent (id : String) : Handles config penv s (.acceptIntent id) (handleAcceptIntent config penv id) := by
  refine Handles.read (still_findInboxMessage id) fun msg hmsg => ?_
  obtain ⟨message, hmem, hmessage⟩ := holds_of_found hmsg
  cases hm : msg.message with
  | intent i =>
      refine Handles.respond (.accept rfl ?_) fun _ => still_respond _ _
      rw [HermesPeer.acceptIntent, Frame.Keeps.peer_eq_bind]
      refine Handles.read (Proc.Still.zoom (fun _ => rfl) (still_requireLocalRecipient _ _)) fun _ hresult => ?_
      unfold Process.peer HermesPeer.requireLocalRecipient at hresult
      rw [Proc.run_zoom] at hresult
      split at hresult
      · cases hresult
      · exact Handles.policy (.acceptIntent ⟨message, hmem, hmessage.trans hm⟩ (not_not.mp ‹_›)) rfl
  | quote _ | receipt _ => exact Handles.still (Proc.Still.raise _)

/-- The check of a quote or a receipt against the tracked intent, then the call it guards. -/
theorem handles_checked {id : String} {recipient : AgentIdentity} {e : Exc} {m : Policy α}
    (hm : s.RecipientIs id recipient → Handles config penv s c (Process.policy m)) :
    Handles config penv s c (Process.peer (do
      let o ← Proc.get
      if (o.getIntent id).any (fun intent => recipient.pubkey ≠ intent.recipient.pubkey) then Proc.raise e
      Peer.policy m)) := by
  rw [Frame.Keeps.peer_eq_bind]
  refine Handles.read (Proc.Still.zoom (fun _ => rfl) Proc.Still.get) fun o ho => ?_
  obtain rfl : s.orchestrator = o := Except.ok.inj ho
  by_cases hcheck : (s.orchestrator.getIntent id).any (fun intent => recipient.pubkey ≠ intent.recipient.pubkey) = true
  · rw [if_pos hcheck]
    rw [Frame.Keeps.peer_eq_bind]
    refine Handles.read (Proc.Still.zoom (fun _ => rfl) (Proc.Still.raise e)) fun _ hresult => ?_
    cases hresult
  · rw [if_neg hcheck]
    refine hm fun r hr => ?_
    have hintent : s.orchestrator.getIntent id = some r.intent := by
      unfold PaymentOrchestrator.getIntent
      rw [show s.orchestrator.intents.get? id = some r from hr, Option.map_some]
    rw [hintent] at hcheck
    simpa using hcheck

theorem handles_acceptQuote (id : String) : Handles config penv s (.acceptQuote id) (handleAcceptQuote config penv id) := by
  refine Handles.read (still_findInboxMessage id) fun msg hmsg => ?_
  obtain ⟨message, hmem, hmessage⟩ := holds_of_found hmsg
  cases hm : msg.message with
  | quote q =>
      refine Handles.respond (.accept rfl ?_) fun _ => still_respond _ _
      refine handles_checked fun hrecipient => ?_
      exact Handles.policy (.acceptQuote ⟨message, hmem, hmessage.trans hm⟩ hrecipient) rfl
  | intent _ | receipt _ => exact Handles.still (Proc.Still.raise _)

theorem handles_acceptReceipt (id : String) :
    Handles config penv s (.acceptReceipt id) (handleAcceptReceipt config penv id) := by
  refine Handles.read (still_findInboxMessage id) fun msg hmsg => ?_
  obtain ⟨message, hmem, hmessage⟩ := holds_of_found hmsg
  cases hm : msg.message with
  | receipt rc =>
      refine Handles.respond (.accept rfl ?_) fun _ => still_respond _ _
      refine handles_checked fun hrecipient => ?_
      exact Handles.policy (.acceptReceipt ⟨message, hmem, hmessage.trans hm⟩ hrecipient) rfl
  | intent _ | quote _ => exact Handles.still (Proc.Still.raise _)

theorem handles_approve (intentId quoteId preparedHash : String) :
    Handles config penv s (.approve intentId quoteId preparedHash) (handleApprove config penv intentId quoteId preparedHash) := by
  unfold handleApprove
  cases happrover : config.approver with
  | none => exact Handles.still (Proc.Still.raise _)
  | some approver =>
      refine Handles.read Proc.Still.get fun s' hs' => ?_
      obtain rfl : s = s' := Except.ok.inj hs'
      exact Handles.respond (Handles.policy (.approve happrover) rfl) fun _ => still_respond _ _

/-- A receipt that passes its schema has the fields it was built from. -/
theorem PaymentReceipt.of_validate? {id intentId quoteId ref : String} {recipient : AgentIdentity} {amountSat feeSat : Int}
    {rail : Rail} {settledAt createdAt : Int} {rc : PaymentReceipt}
    (h : validate? id intentId quoteId recipient ref amountSat feeSat rail settledAt createdAt = some rc) :
    rc.intentId = intentId ∧ rc.quoteId = quoteId ∧ rc.recipient = recipient ∧ rc.settlementRef = ref ∧
      rc.amountSat = amountSat ∧ rc.feeSat = feeSat := by
  unfold validate? at h
  split at h
  · cases h
    exact ⟨rfl, rfl, rfl, rfl, rfl, rfl⟩
  · cases h

/-- After the query of the wallet: nothing more happens, or a receipt is sent that the command publishes. -/
def SendsReceipt (config : ProcessConfig) (penv : ProcessEnv) (s : ProcessState) (c : Command) (m : Process α) : Prop :=
  (m.run s).state = s ∧ ((m.run s).effects = [] ∨ ∃ rc, (m.run s).effects = [.peer (.send (.receipt rc))] ∧
    c.Publishes config penv s (.receipt rc))

namespace SendsReceipt

theorem raise {e : Exc} : SendsReceipt config penv s c (Proc.raise e : Process α) := ⟨rfl, .inl rfl⟩

/-- A check that refuses. -/
theorem check {p : Prop} [Decidable p] {e : Exc} {f : β → Process α} {m : Process α}
    (hm : ¬ p → SendsReceipt config penv s c m) : SendsReceipt config penv s c (if p then Proc.raise e >>= f else m) := by
  by_cases hp : p
  · rw [if_pos hp]
    exact ⟨rfl, .inl rfl⟩
  · rw [if_neg hp]
    exact hm hp

theorem send {rc : PaymentReceipt} {f : String → Process α} (hlocal : rc.recipient = config.identity)
    (hpublishes : c.Publishes config penv s (.receipt rc)) (hf : ∀ id, (f id).Still) :
    SendsReceipt config penv s c (Process.peer (HermesPeer.publishReceipt config.identity penv.peer rc) >>= f) := by
  obtain ⟨hstate, heffects⟩ := Proc.run_bind_still hf (Process.peer (HermesPeer.publishReceipt config.identity penv.peer rc)) s
  have hrun : (Process.peer (HermesPeer.publishReceipt config.identity penv.peer rc)).run s
      = (Process.peer (HermesPeer.transportSend penv.peer (.receipt rc))).run s := by
    rw [HermesPeer.publishReceipt, HermesPeer.send, HermesPeer.requireLocalAuthor, if_neg (by simp [messageAuthor, hlocal])]
    rfl
  obtain ⟨res, hsend⟩ := run_transportSend penv (.receipt rc) s
  rw [hrun, hsend] at hstate heffects
  exact ⟨hstate, .inr ⟨rc, heffects, hpublishes⟩⟩

/-- With the query in front it is what `verify_publish_receipt` may do. -/
theorem handles {intentId ref : String} {quoteId : Option String} {amountSat : Option Int} {amount : Int} {m : Process α}
    (hm : SendsReceipt config penv s (.verifyPublishReceipt intentId quoteId ref amountSat) m) :
    Handles config penv s (.verifyPublishReceipt intentId quoteId ref amountSat)
      (Proc.emit [.verifyReceiptCall ref amount] >>= fun _ => m) := by
  obtain ⟨hstate, heffects⟩ := hm
  show HandlerStep config penv s _ (m.run s).state ([.verifyReceiptCall ref amount] ++ (m.run s).effects)
  rw [hstate]
  rcases heffects with hnone | ⟨rc, hsent, hpublishes⟩
  · rw [hnone]
    exact .unverified
  · rw [hsent]
    exact .published hpublishes fun w hw => ⟨ref, amount, List.mem_singleton.mp hw⟩

end SendsReceipt

theorem handles_verifyPublishReceipt (intentId : String) (quoteId : Option String) (ref : String) (amountSat : Option Int) :
    Handles config penv s (.verifyPublishReceipt intentId quoteId ref amountSat)
      (handleVerifyPublishReceipt config penv intentId quoteId ref amountSat) := by
  refine Handles.read Proc.Still.get fun s' hs' => ?_
  obtain rfl : s = s' := Except.ok.inj hs'
  cases hintent : s.orchestrator.getIntent intentId with
  | none => exact Handles.still (Proc.Still.raise _)
  | some intent =>
      by_cases hamount : amountSat.getD intent.amountSat ≠ intent.amountSat
      · simp only [if_pos hamount]
        refine Handles.read (Proc.Still.raise _) fun _ hresult => ?_
        cases hresult
      · simp only [if_neg hamount]
        rw [not_not.mp hamount]
        refine SendsReceipt.handles ?_
        cases hanswer : penv.adapter.verifyReceipt ref intent.amountSat with
        | error e => exact .raise
        | ok v =>
            refine SendsReceipt.check fun hverified => SendsReceipt.check fun href => ?_
            split
            · exact .raise
            · next receipt hreceipt =>
                obtain ⟨quoteId', hquote, hvalid⟩ := Option.bind_eq_some_iff.mp hreceipt
                subst hquote
                obtain ⟨rfl, rfl, hrecipient, rfl, hamounts, hfees⟩ := PaymentReceipt.of_validate? hvalid
                have hyes : v.verified = true := by simpa using hverified
                refine SendsReceipt.send hrecipient ?_ fun _ => Proc.Still.pure _
                exact .verifyPublishReceipt rfl rfl rfl hrecipient
                  ⟨intent, v, hintent, hanswer, hyes, not_not.mp href, hamounts.symm, hfees.symm⟩

/-- **Every handler** makes one of the calls its command asks for, or sends one of the messages it publishes, or reads. -/
theorem handler_step (config : ProcessConfig) (penv : ProcessEnv) (s : ProcessState) (c : Command) :
    Handles config penv s c (handler config penv c) := by
  cases c with
  | status => exact Handles.still (Proc.Still.get.bind fun _ => Proc.Still.pure _)
  | receive limit => exact handles_receive limit
  | submitIntent i => exact handles_submitIntent i
  | acceptIntent id => exact handles_acceptIntent id
  | publishQuote q => exact .respond (.send .publishQuote) fun _ => still_respond _ _
  | acceptQuote id => exact handles_acceptQuote id
  | submitQuoteLocal q => exact .respond (.policy .submitQuoteLocal rfl) fun _ => still_respond _ _
  | prepare => exact .respond (.policy .prepare rfl) fun _ => Proc.Still.pure _
  | approve intentId quoteId preparedHash => exact handles_approve intentId quoteId preparedHash
  | execute => exact .respond (.policy .execute rfl) fun _ => still_respond _ _
  | publishReceipt rc => exact .respond (.send .publishReceipt) fun _ => Proc.Still.pure _
  | verifyPublishReceipt intentId quoteId ref amountSat => exact handles_verifyPublishReceipt intentId quoteId ref amountSat
  | acceptReceipt id => exact handles_acceptReceipt id
  | recover maxWait pollInterval => exact .recovered
  | malformed name => exact Handles.still (Proc.Still.raise _)

/-- A line is its handler, then the snapshot. -/
theorem handle_eq (config : ProcessConfig) (penv : ProcessEnv) (s : ProcessState) (c : Command) :
    let out := (handler config penv c).run s
    (s.handle config penv (.ok c)).state = { out.state with file := some out.state.snapshot } ∧
      (s.handle config penv (.ok c)).effects = out.effects ++ [.snapshotSave out.state.snapshot] := by
  rcases hrun : (handler config penv c).run s with ⟨res, s', es⟩
  rw [run_handleLine hrun]
  exact ⟨rfl, rfl⟩

/-! ## The effects of a handler -/

/-- What a handler performs before the snapshot is written: the peer is called, with its effects, and the wallet asked. -/
def ProcessEffect.Handled (w : ProcessEffect) : Prop :=
  (∃ effect, w = .peer effect) ∨ (∃ ref amount, w = .verifyReceiptCall ref amount) ∨ w.Hands

theorem handled_policyEffects {es : List Effect} {w : ProcessEffect} (hw : w ∈ policyEffects es) : w.Handled := by
  obtain ⟨effect, _, rfl⟩ := List.mem_map.mp hw
  exact .inl ⟨_, rfl⟩

/-- Only recovery writes the snapshot itself. -/
theorem HandlerStep.effects {s' : ProcessState} {es : List ProcessEffect} (h : HandlerStep config penv s c s' es)
    (hother : ∀ maxWait pollInterval, c ≠ .recover maxWait pollInterval) : ∀ w ∈ es, w.Handled := by
  intro w hw
  cases h with
  | idle hhanded => exact .inr (.inr (hhanded w hw))
  | received => exact .inl ⟨_, List.mem_singleton.mp hw⟩
  | called hhanded _ _ _ =>
      rcases List.mem_append.mp hw with hw | hw
      · exact .inr (.inr (hhanded w hw))
      · exact handled_policyEffects hw
  | submitted _ _ _ _ _ =>
      rcases List.mem_append.mp hw with hw | hw
      · exact handled_policyEffects hw
      · exact .inl ⟨_, List.mem_singleton.mp hw⟩
  | published _ hchecks =>
      rcases List.mem_append.mp hw with hw | hw
      · exact .inr (.inl (hchecks w hw))
      · exact .inl ⟨_, List.mem_singleton.mp hw⟩
  | unverified => exact .inr (.inl ⟨_, _, List.mem_singleton.mp hw⟩)
  | recovered => exact absurd rfl (hother _ _)

/-! ## The messages of a handler -/

/-- The message a process hands to its transport. -/
def ProcessEffect.sent? : ProcessEffect → Option PaymentMessage
  | .peer (.send m) => some m
  | _ => none

/-- The messages among the effects, in order. -/
def sends (es : List ProcessEffect) : List PaymentMessage := es.filterMap ProcessEffect.sent?

theorem mem_sends {es : List ProcessEffect} {m : PaymentMessage} : m ∈ sends es ↔ .peer (.send m) ∈ es := by
  unfold sends
  rw [List.mem_filterMap]
  constructor
  · rintro ⟨w, hw, hsent⟩
    cases w with
    | peer effect =>
        cases effect with
        | send m' =>
            obtain rfl : m' = m := Option.some.inj hsent
            exact hw
        | policy _ | receive _ => cases hsent
    | snapshotSave _ | verifyReceiptCall _ _ | acceptCall _ => cases hsent
  · intro h
    exact ⟨_, h, rfl⟩

/-! ## Recovery only reads -/

theorem readOnly_zoom {m : Policy α} (hm : Proc.Only (fun w => w.readOnly = true) m) :
    Proc.Only (fun w => w.readOnly = true) (Process.policy m) := Proc.Only.zoom (Proc.Only.zoom hm)

theorem readOnly_audit (cfg : Config) (event : String) (fields : List (String × AuditValue)) :
    Proc.Only (fun w => w.readOnly = true) (audit cfg event fields) := by
  intro o w hw
  rw [run_audit] at hw
  exact readOnly_audited hw

theorem readOnly_reconcileSettlement (cfg : Config) (env : Env) (id : String) :
    Proc.Only (fun w => w.readOnly = true) (reconcileSettlement cfg env id) := by
  unfold reconcileSettlement
  refine (Proc.Only.still (still_getRecord id)).bind fun record => ?_
  split
  · exact .still (Proc.Still.ite ((Proc.Still.raise _).bind fun _ => Proc.Still.raise _) (Proc.Still.raise _))
  · -- the rest of the block stands in both branches of the check
    refine (fun hquery => .ite ((Proc.Only.still (Proc.Still.raise _)).bind fun _ => hquery) hquery) ?_
    refine (Proc.Only.emit fun w hw => ?_).bind fun _ => (Proc.Only.modify _).bind fun _ => ?_
    · rw [List.mem_singleton.mp hw]
      rfl
    · exact (readOnly_audit _ _ _).bind fun _ => .still (Proc.Still.pure _)

theorem readOnly_recoverRecord (env : Env) (reconcile : Bool) (id : String) (d : SnapshotRecord) :
    Proc.Only (fun w => w.readOnly = true) (recoverRecord config env reconcile id d) := by
  rw [recoverRecord_eq]
  have hput : Proc.Only (fun w => w.readOnly = true) (putBack config env reconcile id d.recovered) := by
    refine (readOnly_zoom (.modify _)).bind fun _ => .ite ?_ (.still (Proc.Still.pure _))
    exact (readOnly_zoom (readOnly_reconcileSettlement _ env id)).bind fun _ => .still (Proc.Still.pure _)
  exact .ite ((readOnly_zoom (readOnly_audit _ _ _)).bind fun _ => hput) hput

theorem readOnly_maybeRecover (env : String → Env) (reconcile : Bool) :
    Proc.Only (fun w => w.readOnly = true) (maybeRecover config env reconcile) := by
  have hloop (entries : List (String × SnapshotRecord)) :
      Proc.Only (fun w => w.readOnly = true) (recoverRecords config env reconcile entries) := by
    induction entries with
    | nil => exact .still (Proc.Still.pure _)
    | cons e rest ih => exact (readOnly_recoverRecord (env e.1) reconcile e.1 e.2).bind fun _ => ih
  have hsnapshot : Proc.Only (fun w => w.readOnly = true) snapshotState := by
    refine (Proc.Only.still Proc.Still.get).bind fun s => (Proc.Only.emit fun w hw => ?_).bind fun _ => .modify _
    rw [List.mem_singleton.mp hw]
    rfl
  refine (Proc.Only.still Proc.Still.get).bind fun s => ?_
  split
  · exact .still (Proc.Still.pure _)
  · exact (hloop _).bind fun _ => (Proc.Only.modify _).bind fun _ => .ite hsnapshot (.still (Proc.Still.pure _))

/-- **Recovery** sends nothing and pays nothing, however often it asks. -/
theorem readOnly_recover (penv : ProcessEnv) (maxWait pollInterval : Option PyFloat) :
    Proc.Only (fun w => w.readOnly = true) (handler config penv (.recover maxWait pollInterval)) := by
  have hloop (bound : Rat) (pass : RecoveryPass) (rest : List RecoveryPass) :
      Proc.Only (fun w => w.readOnly = true) (recoverLoop config penv bound pass rest) := by
    induction rest generalizing pass with
    | nil =>
        rw [recoverLoop]
        refine (readOnly_maybeRecover _ true).bind fun _ => .still (Proc.Still.get.bind fun _ => ?_)
        exact Proc.Still.ite (Proc.Still.pure _) (Proc.Still.pure _)
    | cons next rest ih =>
        rw [recoverLoop]
        refine (readOnly_maybeRecover _ true).bind fun _ => (Proc.Only.still Proc.Still.get).bind fun _ => ?_
        exact .ite (.still (Proc.Still.pure _)) (ih next)
  show Proc.Only (fun w => w.readOnly = true) (handleRecover config penv maxWait pollInterval)
  unfold handleRecover
  split
  · split
    · exact .still (Proc.Still.raise _)
    · exact .still (Proc.Still.raise _)
    · exact (hloop _ _ _).bind fun _ => .still (Proc.Still.get.bind fun _ => Proc.Still.pure _)
  · exact .still (Proc.Still.raise _)

/-! ## What is sent, and what is paid -/

/-- **What a handler sends** is what its command publishes. -/
theorem HandlerStep.publishes {s' : ProcessState} {es : List ProcessEffect} (h : HandlerStep config penv s c s' es)
    {m : PaymentMessage} (hm : m ∈ sends es) : c.Publishes config penv s m := by
  rw [mem_sends] at hm
  have hpolicy {fs : List Effect} : .peer (.send m) ∉ policyEffects fs := by
    intro hmem
    obtain ⟨w, _, hw⟩ := List.mem_map.mp hmem
    cases hw
  cases h with
  | idle hhanded => exact absurd (hhanded _ hm) not_hands_peer
  | received => cases List.mem_singleton.mp hm
  | called hhanded _ _ _ => exact absurd ((mem_handed_append hhanded).mp hm) hpolicy
  | submitted hlocal _ _ _ _ =>
      rcases List.mem_append.mp hm with hm | hm
      · exact absurd hm hpolicy
      · cases List.mem_singleton.mp hm
        exact .submitIntent hlocal
  | published hpublishes hchecks =>
      rcases List.mem_append.mp hm with hm | hm
      · obtain ⟨_, _, hw⟩ := hchecks _ hm
        cases hw
      · cases List.mem_singleton.mp hm
        exact hpublishes
  | unverified => cases List.mem_singleton.mp hm
  | recovered => cases readOnly_recover penv _ _ s _ hm

/-- **What a handler dispatches**, it does in `execute`: the payload prepared for the first approved intent. -/
theorem HandlerStep.dispatches {s' : ProcessState} {es : List ProcessEffect} (h : HandlerStep config penv s c s' es)
    {id hash : String} {payload : Bytes} (hw : .peer (.policy (.executeCall id payload hash)) ∈ es) :
    c = .execute ∧ ∃ r prep, s.orchestrator.firstIn APPROVED = some (id, r) ∧ r.prepared = some prep ∧
      payload = prep.preparedPayload ∧ hash = prep.preparedHash := by
  have hcalled {call : Call} {o' : PaymentOrchestrator} (hcall : Calls config.policy s.orchestrator call o')
      (hw : .peer (.policy (.executeCall id payload hash)) ∈ policyEffects call.effects) :
      call.op = .execute ∧ ∃ r prep, s.orchestrator.firstIn APPROVED = some (id, r) ∧ r.prepared = some prep ∧
        payload = prep.preparedPayload ∧ hash = prep.preparedHash := by
    obtain ⟨effect, hmem, heffect⟩ := List.mem_map.mp hw
    obtain rfl : effect = .executeCall id payload hash := by
      cases heffect
      rfl
    exact hcall.step.of_dispatch (dispatches_mem hmem)
  cases h with
  | idle hhanded => exact absurd (hhanded _ hw) not_hands_peer
  | received => cases List.mem_singleton.mp hw
  | called hhanded hasks _ hcall =>
      obtain ⟨hop, hdispatch⟩ := hcalled hcall ((mem_handed_append hhanded).mp hw)
      rw [hop] at hasks
      cases hasks
      exact ⟨rfl, hdispatch⟩
  | submitted _ hop _ _ hcall =>
      rcases List.mem_append.mp hw with hw | hw
      · rw [(hcalled hcall hw).1] at hop
        cases hop
      · cases List.mem_singleton.mp hw
  | published _ hchecks =>
      rcases List.mem_append.mp hw with hw | hw
      · obtain ⟨_, _, hcheck⟩ := hchecks _ hw
        cases hcheck
      · cases List.mem_singleton.mp hw
  | unverified => cases List.mem_singleton.mp hw
  | recovered => cases readOnly_recover penv _ _ s _ hw

/-- The author of what a command publishes is the process itself. -/
theorem Command.Publishes.author {m : PaymentMessage} (h : c.Publishes config penv s m) :
    (messageAuthor m).pubkey = config.identity.pubkey := by
  cases h with
  | submitIntent hlocal | publishQuote hlocal | publishReceipt hlocal => exact hlocal
  | verifyPublishReceipt _ _ _ hlocal _ => exact congrArg AgentIdentity.pubkey hlocal

end

end HermesPayments
