import HermesPayments.Transport.Receive

/-!
# `HermesPayments.Transport.Correctness.Recipient` — who can move a sender's intent

A sender is a peer over a Buzz transport. What reaches its quotes and its receipts passes two checks in two layers: the
transport compares the author of an event with the identity the message names, and the peer compares that identity with
the recipient of the tracked intent. Neither knows the other; `only_recipient_moves` puts them together, for every
sequence of operations and every relay.
-/

namespace HermesPayments

open Lib PaymentState BuzzTransport

/-! ## A sender -/

/-- A peer over a Buzz transport, with the messages it has been handed. -/
structure Sender where
  orchestrator : PaymentOrchestrator
  seen         : Finset String
  received     : List PeerMessage

/-- What the outside answers during one operation. -/
structure SenderEnv where
  env     : Env
  buzz    : BuzzEnv
  publish : String → Except String String

/-- One observed operation. -/
structure SenderCall where
  op     : PeerOp
  env    : SenderEnv
  result : Except Exc PeerAnswer

/-- Quotes and receipts come in through the peer, and are ones that `receive` returned. -/
def PeerOp.Given (received : List PeerMessage) : PeerOp → Prop
  | .acceptQuote quote     => ∃ m ∈ received, m.message = .quote quote
  | .acceptReceipt receipt => ∃ m ∈ received, m.message = .receipt receipt
  | .policy (.receiveQuote _) | .policy (.receiveReceipt _) => False
  | _ => True

section

variable (rt : Runtime) (buzz : BuzzConfig) (cfg : Config) (identity : AgentIdentity)

/-- The outside as the peer sees it: its transport is the Buzz transport. -/
def Sender.peerEnv (s : Sender) (env : SenderEnv) : PeerEnv :=
  ⟨env.env, BuzzTransport.peer rt buzz env.buzz env.publish s.seen⟩

/-- An operation of a sender, over its policy engine. -/
def Sender.run (s : Sender) (env : SenderEnv) (op : PeerOp) : Outcome PeerEffect Exc PaymentOrchestrator PeerAnswer :=
  (peerCall cfg identity (s.peerEnv rt buzz env) op).run s.orchestrator

/-- The ids seen after an operation: only `receive` looks at events. -/
def Sender.seenAfter (s : Sender) (env : SenderEnv) : PeerOp → Finset String
  | .receive limit => ((BuzzTransport.receive rt buzz env.buzz limit).run s.seen).state
  | _ => s.seen

/-- The messages an operation hands over. -/
def handed : Except Exc PeerAnswer → List PeerMessage
  | .ok (.messages messages) => messages
  | _ => []

/-- The sender after an operation. -/
def Sender.next (s : Sender) (env : SenderEnv) (op : PeerOp) : Sender where
  orchestrator := (s.run rt buzz cfg identity env op).state
  seen         := s.seenAfter rt buzz env op
  received     := s.received ++ handed (s.run rt buzz cfg identity env op).result

/-- The steps of a sender. -/
inductive SenderStep : Sender → SenderCall → Sender → Prop
  | call {s : Sender} (op : PeerOp) (env : SenderEnv) (hgiven : op.Given s.received) :
      SenderStep s ⟨op, env, (s.run rt buzz cfg identity env op).result⟩ (s.next rt buzz cfg identity env op)

/-- A new policy engine over any store, a new transport over any cursor. -/
def SenderInit (s : Sender) : Prop := Fresh s.orchestrator ∧ s.received = []

/-- The runs of a sender. -/
abbrev SenderRun (h : List (Event Sender SenderCall)) (s : Sender) : Prop :=
  Run SenderInit (SenderStep rt buzz cfg identity) h s

/-! ## The rule -/

/-- The message came with an event by this author: a kind-9 event on the channel, that a relay answered to a `receive`
    which then returned the message under its id. -/
def Carried (h : List (Event Sender SenderCall)) (message : PaymentMessage) (pubkey : String) : Prop :=
  ∃ e ∈ h, ∃ limit ms events event, e.seen.op = .receive limit ∧ e.seen.result = .ok (.messages ms) ∧
    e.seen.env.buzz.get none = .ok events ∧ event ∈ events ∧
    peerMessage event message ∈ ms ∧ decodeContent rt event.content = .ok message ∧
    event.pubkey = pubkey ∧ channelFromTags event.tags = buzz.channel ∧ event.kind = WIRE_KIND

/-- An operation leaves only quotes of the recipient in the records, and settles by a received receipt only with one of
    the recipient. -/
structure MovedByRecipient (h : List (Event Sender SenderCall)) (e : Event Sender SenderCall) : Prop where
  quotes   : ∀ id r q, e.after.orchestrator.record? id = some r → r.quote = some q →
    Carried rt buzz h (.quote q) r.intent.recipient.pubkey
  receipts : ∀ receipt id r r', e.seen.op = .acceptReceipt receipt → e.before.orchestrator.record? id = some r →
    e.after.orchestrator.record? id = some r' → r.state ≠ SETTLED → r'.state = SETTLED →
    id = receipt.intentId ∧ r'.receipt = some receipt ∧ Carried rt buzz h (.receipt receipt) r'.intent.recipient.pubkey

end

/-! ## What an operation does to the policy engine -/

/-- How an operation may change the policy engine: not at all, or by one call, and a quote or a receipt only when it is
    by the recipient of the tracked intent. -/
inductive PeerStep (cfg : Config) (o : PaymentOrchestrator) : PeerOp → PaymentOrchestrator → Prop
  | idle {op : PeerOp} : PeerStep cfg o op o
  | submitted {op : PeerOp} {i : PaymentIntent} {c : Call} {o' : PaymentOrchestrator}
      (hpeer : op = .submitIntent i ∨ op = .acceptIntent i) (hop : c.op = .submit i) (hcall : Calls cfg o c o') :
      PeerStep cfg o op o'
  | quoted {q : PaymentQuote} {c : Call} {o' : PaymentOrchestrator}
      (hpeer : ∀ r, o.record? q.intentId = some r → q.recipient.pubkey = r.intent.recipient.pubkey)
      (hop : c.op = .receiveQuote q) (hcall : Calls cfg o c o') : PeerStep cfg o (.acceptQuote q) o'
  | settled {rc : PaymentReceipt} {c : Call} {o' : PaymentOrchestrator}
      (hpeer : ∀ r, o.record? rc.intentId = some r → rc.recipient.pubkey = r.intent.recipient.pubkey)
      (hop : c.op = .receiveReceipt rc) (hcall : Calls cfg o c o') : PeerStep cfg o (.acceptReceipt rc) o'
  | policy {op : Op} {c : Call} {o' : PaymentOrchestrator} (hop : c.op = op) (hcall : Calls cfg o c o') :
      PeerStep cfg o (.policy op) o'

section

variable {cfg : Config} {identity : AgentIdentity} {penv : PeerEnv} {o : PaymentOrchestrator}

theorem keeps_transportSend (m : PaymentMessage) : (HermesPeer.transportSend penv m).Keeps :=
  (Proc.Keeps.emit _).bind fun _ => Proc.Keeps.ofExcept _

theorem keeps_send (m : PaymentMessage) : (HermesPeer.send identity penv m).Keeps := by
  refine Proc.Keeps.bind (Proc.Still.keeps ?_) fun _ => keeps_transportSend m
  exact Proc.Still.ite (Proc.Still.raise _) (Proc.Still.pure _)

theorem keeps_receive (limit : Option Int) : (HermesPeer.receive penv limit).Keeps :=
  (Proc.Keeps.emit _).bind fun _ => Proc.Keeps.ofExcept _

/-- A policy operation inside the peer is a call. -/
theorem calls_policy {α : Type} {m : Policy α} {g : α → Answer} (op : Op) (env : Env)
    (hm : call cfg env op = m >>= fun a => pure (g a)) (o : PaymentOrchestrator) :
    ∃ c, c.op = op ∧ Calls cfg o c ((Peer.policy m).run o).state := by
  have hstate : ((call cfg env op).run o).state = ((Peer.policy m).run o).state := by
    rw [hm]
    exact (Proc.run_map m g o).2
  exact ⟨_, rfl, hstate ▸ Calls.of_call cfg env o op⟩

/-- The check of a quote or a receipt against the tracked intent. -/
theorem recipient_of_check {id pubkey : String}
    (h : ¬ (o.getIntent id).any (fun intent => pubkey ≠ intent.recipient.pubkey) = true) :
    ∀ r, o.record? id = some r → pubkey = r.intent.recipient.pubkey := by
  intro r hr
  have hintent : o.getIntent id = some r.intent := by
    unfold PaymentOrchestrator.getIntent
    rw [show o.intents.get? id = some r from hr, Option.map_some]
  rw [hintent] at h
  simpa using h

theorem PeerStep.of_keeps {op : PeerOp} {m : Peer PeerAnswer} (hm : m.Keeps) : PeerStep cfg o op (m.run o).state := by
  rw [hm o]
  exact .idle

/-- **Every peer operation** changes the policy engine as `PeerStep` lists. -/
theorem peerCall_step (op : PeerOp) (o : PaymentOrchestrator) :
    PeerStep cfg o op ((peerCall cfg identity penv op).run o).state := by
  cases op with
  | send m | publishQuote m | publishReceipt m => exact .of_keeps ((keeps_send _).bind fun _ => Proc.Keeps.pure _)
  | receive limit => exact .of_keeps ((keeps_receive limit).bind fun _ => Proc.Keeps.pure _)
  | submitIntent i =>
      simp only [peerCall]
      rw [Proc.Keeps.state_bind (fun _ => Proc.Keeps.pure _)]
      unfold HermesPeer.submitIntent HermesPeer.requireLocalAuthor
      by_cases hauthor : (messageAuthor (.intent i)).pubkey ≠ identity.pubkey
      · rw [if_pos hauthor]
        exact .idle
      · obtain ⟨c, hop, hcall⟩ := calls_policy (.submit i) penv.env rfl o
        rw [if_neg hauthor, Proc.run_bind, Proc.run_pure]
        simp only [Proc.after_nil]
        rw [Proc.Keeps.state_bind (fun _ => keeps_transportSend _)]
        exact .submitted (.inl rfl) hop hcall
  | acceptIntent i =>
      simp only [peerCall]
      rw [Proc.Keeps.state_bind (fun _ => Proc.Keeps.pure _)]
      unfold HermesPeer.acceptIntent HermesPeer.requireLocalRecipient
      by_cases hlocal : i.recipient.pubkey ≠ identity.pubkey
      · rw [if_pos hlocal]
        exact .idle
      · obtain ⟨c, hop, hcall⟩ := calls_policy (.submit i) penv.env rfl o
        rw [if_neg hlocal]
        exact .submitted (.inr rfl) hop hcall
  | acceptQuote q =>
      simp only [peerCall]
      rw [Proc.Keeps.state_bind (fun _ => Proc.Keeps.pure _)]
      unfold HermesPeer.acceptQuote
      rw [Proc.run_bind, Proc.run_get]
      simp only [Proc.after_nil]
      by_cases hcheck : (o.getIntent q.intentId).any (fun intent => q.recipient.pubkey ≠ intent.recipient.pubkey) = true
      · rw [if_pos hcheck]
        exact .idle
      · obtain ⟨c, hop, hcall⟩ := calls_policy (.receiveQuote q) penv.env rfl o
        rw [if_neg hcheck]
        exact .quoted (recipient_of_check hcheck) hop hcall
  | acceptReceipt rc =>
      simp only [peerCall]
      rw [Proc.Keeps.state_bind (fun _ => Proc.Keeps.pure _)]
      unfold HermesPeer.acceptReceipt
      rw [Proc.run_bind, Proc.run_get]
      simp only [Proc.after_nil]
      by_cases hcheck : (o.getIntent rc.intentId).any (fun intent => rc.recipient.pubkey ≠ intent.recipient.pubkey) = true
      · rw [if_pos hcheck]
        exact .idle
      · obtain ⟨c, hop, hcall⟩ := calls_policy (.receiveReceipt rc) penv.env rfl o
        rw [if_neg hcheck]
        exact .settled (recipient_of_check hcheck) hop hcall
  | policy op =>
      simp only [peerCall]
      rw [Proc.Keeps.state_bind (fun _ => Proc.Keeps.pure _)]
      exact .policy rfl (Calls.of_call cfg penv.env o op)

end

/-! ## What a call does to quotes and receipts -/

section

variable {env : Env} {es : List Effect} {op : Op} {res : Except Exc Answer} {id : String} {r r' : IntentRecord}

/-- A quote is held from before, or came with the call. -/
theorem RecordStep.quote_from (h : RecordStep env es op res id r r') {q : PaymentQuote} (hq : r'.quote = some q) :
    r.quote = some q ∨ op = .receiveQuote q ∧ q.intentId = id := by
  cases h with
  | quoteOverwritten _ _ _ | quoted _ _ _ =>
      cases hq
      exact .inr ⟨rfl, rfl⟩
  | _ => exact .inl hq

/-- A receipt settles the intent it names, and is kept. -/
theorem RecordStep.settled_by {rc : PaymentReceipt} (h : RecordStep env es (.receiveReceipt rc) res id r r')
    (hopen : r.state ≠ SETTLED) (hsettled : r'.state = SETTLED) : id = rc.intentId ∧ r'.receipt = some rc := by
  cases h with
  | kept => exact absurd hsettled hopen
  | receiptSettled _ _ _ _ _ _ => exact ⟨rfl, rfl⟩

/-- An intent that a call submits has no quote. -/
theorem Calls.record_from {cfg : Config} {o o' : PaymentOrchestrator} {c : Call} (hcall : Calls cfg o c o')
    (hr : o'.record? id = some r') :
    r'.quote = none ∨ ∃ r, o.record? id = some r ∧ RecordStep c.env c.effects c.op c.result id r r' := by
  have hchange := hcall.step.change id
  rw [hr] at hchange
  generalize o.record? id = ro at hchange
  cases hchange with
  | created _ _ _ _ _ _ => exact .inl rfl
  | changed hrec => exact .inr ⟨_, rfl, hrec⟩

end

section

variable {cfg : Config} {o o' : PaymentOrchestrator} {op : PeerOp} {id : String} {r r' : IntentRecord}

theorem PeerStep.consistent (hpeer : PeerStep cfg o op o') (ho : o.Consistent) : o'.Consistent := by
  cases hpeer with
  | idle => exact ho
  | submitted _ _ hcall | quoted _ _ hcall | settled _ _ hcall | policy _ hcall => exact hcall.consistent ho

/-- A quote is held from before, or was accepted from the recipient. -/
theorem PeerStep.quote_from (hpeer : PeerStep cfg o op o') {received : List PeerMessage} (hgiven : op.Given received)
    (hr : o'.record? id = some r') {q : PaymentQuote} (hq : r'.quote = some q) :
    ∃ r, o.record? id = some r ∧ r'.intent = r.intent ∧
      (r.quote = some q ∨ op = .acceptQuote q ∧ q.recipient.pubkey = r.intent.recipient.pubkey) := by
  have hold {c : Call} (hcall : Calls cfg o c o') : ∃ r, o.record? id = some r ∧ r'.intent = r.intent ∧
      (r.quote = some q ∨ c.op = .receiveQuote q ∧ q.intentId = id) := by
    rcases hcall.record_from hr with hnone | ⟨r, hr₀, hrec⟩
    · rw [hnone] at hq
      cases hq
    · exact ⟨r, hr₀, hrec.intent_eq, hrec.quote_from hq⟩
  cases hpeer with
  | idle => exact ⟨r', hr, rfl, .inl hq⟩
  | submitted _ hop hcall | settled _ hop hcall =>
      obtain ⟨r, hr₀, hintent, hheld | ⟨hquote, _⟩⟩ := hold hcall
      · exact ⟨r, hr₀, hintent, .inl hheld⟩
      · rw [hop] at hquote
        cases hquote
  | quoted hpeer hop hcall =>
      obtain ⟨r, hr₀, hintent, hheld | ⟨hquote, rfl⟩⟩ := hold hcall
      · exact ⟨r, hr₀, hintent, .inl hheld⟩
      · rw [hop] at hquote
        cases hquote
        exact ⟨r, hr₀, hintent, .inr ⟨rfl, hpeer r hr₀⟩⟩
  | policy hop hcall =>
      obtain ⟨r, hr₀, hintent, hheld | ⟨hquote, _⟩⟩ := hold hcall
      · exact ⟨r, hr₀, hintent, .inl hheld⟩
      · -- a local operation brings no quote
        rw [← hop, hquote] at hgiven
        exact hgiven.elim

/-- A receipt that settles an intent was accepted from the recipient. -/
theorem PeerStep.settled_by {rc : PaymentReceipt} (hpeer : PeerStep cfg o (.acceptReceipt rc) o')
    (ho : o.Consistent) (hr : o.record? id = some r) (hr' : o'.record? id = some r') (hopen : r.state ≠ SETTLED)
    (hsettled : r'.state = SETTLED) :
    id = rc.intentId ∧ r'.receipt = some rc ∧ rc.recipient.pubkey = r'.intent.recipient.pubkey := by
  cases hpeer with
  | idle =>
      cases hr.symm.trans hr'
      exact absurd hsettled hopen
  | submitted hpeer => rcases hpeer with h | h <;> cases h
  | settled hpeer hop hcall =>
      obtain ⟨r₁, hr₁, hrec⟩ := hcall.record_step ho hr
      cases hr₁.symm.trans hr'
      rw [hop] at hrec
      obtain ⟨rfl, hreceipt⟩ := hrec.settled_by hopen hsettled
      exact ⟨rfl, hreceipt, hrec.intent_eq ▸ hpeer r hr⟩

end

/-! ## Runs -/

section

variable {rt : Runtime} {buzz : BuzzConfig} {cfg : Config} {identity : AgentIdentity}
  {h : List (Event Sender SenderCall)} {s s' : Sender} {c : SenderCall}

theorem Carried.append {m : PaymentMessage} {pubkey : String} (h' : List (Event Sender SenderCall))
    (hm : Carried rt buzz h m pubkey) : Carried rt buzz (h ++ h') m pubkey := by
  obtain ⟨e, he, hrest⟩ := hm
  exact ⟨e, List.mem_append_left _ he, hrest⟩

/-- What holds of a sender after the history `h`: every message it was handed was carried by an event of its author,
    and every quote it holds by one of the recipient of the intent. -/
structure Sender.Sound (rt : Runtime) (buzz : BuzzConfig) (h : List (Event Sender SenderCall)) (s : Sender) : Prop where
  consistent : s.orchestrator.Consistent
  received   : ∀ m ∈ s.received, Carried rt buzz h m.message (messageAuthor m.message).pubkey
  quotes     : ∀ id r q, s.orchestrator.record? id = some r → r.quote = some q →
    Carried rt buzz h (.quote q) r.intent.recipient.pubkey

theorem SenderInit.sound (h : SenderInit s) : s.Sound rt buzz [] := by
  obtain ⟨hfresh, hnone⟩ := h
  refine ⟨hfresh.consistent, fun m hm => ?_, fun id r q hr => ?_⟩
  · rw [hnone] at hm
    cases hm
  · rw [hfresh.record? id] at hr
    cases hr

theorem handed_map {α : Type} (m : Peer α) {g : α → PeerAnswer} (hg : ∀ a ms, g a ≠ .messages ms)
    (o : PaymentOrchestrator) : handed ((m >>= fun a => pure (g a)).run o).result = [] := by
  rw [Proc.run_bind]
  rcases m.run o with ⟨_ | a, o', es⟩
  · rfl
  · show handed (.ok (g a)) = []
    cases hga : g a with
    | messages ms => exact absurd hga (hg a ms)
    | _ => rfl

theorem result_receive (penv : PeerEnv) (limit : Option Int) (o : PaymentOrchestrator) :
    ((peerCall cfg identity penv (.receive limit)).run o).result =
      (penv.transport.receive limit).map PeerAnswer.messages := by
  simp only [peerCall, HermesPeer.receive, Proc.run_bind, Proc.run_emit, Proc.run_ofExcept]
  cases penv.transport.receive limit <;> rfl

/-- Only `receive` hands messages over, and they are what the transport returned. -/
theorem handed_receive {penv : PeerEnv} {op : PeerOp} {o : PaymentOrchestrator} {m : PeerMessage}
    (hm : m ∈ handed ((peerCall cfg identity penv op).run o).result) :
    ∃ limit ms, op = .receive limit ∧ ((peerCall cfg identity penv op).run o).result = .ok (.messages ms) ∧
      penv.transport.receive limit = .ok ms ∧ m ∈ ms := by
  have hnone {α : Type} {m' : Peer α} {g : α → PeerAnswer} (hg : ∀ a ms, g a ≠ .messages ms)
      (hm : m ∈ handed ((m' >>= fun a => pure (g a)).run o).result) : False := by
    rw [handed_map m' hg o] at hm
    cases hm
  cases op with
  | receive limit =>
      rw [result_receive] at hm ⊢
      cases hget : penv.transport.receive limit with
      | error e =>
          rw [hget] at hm
          cases hm
      | ok ms =>
          rw [hget] at hm
          exact ⟨limit, ms, rfl, rfl, hget, hm⟩
  | _ => exact absurd hm (hnone (by nofun))

/-- The messages of one operation are carried by the events it read. -/
theorem Sender.handed_carried {env : SenderEnv} {op : PeerOp} {m : PeerMessage}
    (hm : m ∈ handed (s.run rt buzz cfg identity env op).result) :
    Carried rt buzz [⟨s, ⟨op, env, (s.run rt buzz cfg identity env op).result⟩, s'⟩] m.message
      (messageAuthor m.message).pubkey := by
  obtain ⟨limit, ms, rfl, hresult, hreceive, hmem⟩ := handed_receive hm
  have hbuzz : ((BuzzTransport.receive rt buzz env.buzz limit).run s.seen).result = .ok ms := by
    have hmap : ((BuzzTransport.receive rt buzz env.buzz limit).run s.seen).result.mapError TransportExc.toExc = .ok ms :=
      hreceive
    cases hr : ((BuzzTransport.receive rt buzz env.buzz limit).run s.seen).result with
    | error e =>
        rw [hr] at hmap
        cases hmap
    | ok ms' =>
        rw [hr] at hmap
        cases hmap
        rfl
  obtain ⟨events, hget, event, hevent, hout⟩ := mem_receive hbuzz hmem
  obtain ⟨_, message, hvalid, rfl⟩ := (handout_eq_some_iff _ _ _).mp hout
  obtain ⟨hkind, hchannel, hdecode, _, hauthor⟩ := validateReceivedEvent_eq_ok_iff.mp hvalid
  exact ⟨_, List.mem_singleton_self _, limit, ms, events, event, rfl, hresult, hget, hevent, hmem, hdecode, hauthor,
    hchannel, hkind⟩

/-- What an operation was given came with an event of its author. -/
theorem Sender.Sound.given {m : PaymentMessage} (hs : s.Sound rt buzz h)
    (hgiven : ∃ p ∈ s.received, p.message = m) : Carried rt buzz h m (messageAuthor m).pubkey := by
  obtain ⟨p, hp, rfl⟩ := hgiven
  exact hs.received p hp

/-- **One operation** of a sound sender only moves intents by messages of their recipients. -/
theorem Sender.Sound.moved (hs : s.Sound rt buzz h) (hstep : SenderStep rt buzz cfg identity s c s') :
    MovedByRecipient rt buzz h ⟨s, c, s'⟩ := by
  obtain ⟨op, env, hgiven⟩ := hstep
  have hpeer : PeerStep cfg s.orchestrator op (s.run rt buzz cfg identity env op).state := peerCall_step op _
  constructor
  · intro id r' q hr' hq
    obtain ⟨r, hr, hintent, hheld | ⟨rfl, hpub⟩⟩ := hpeer.quote_from hgiven hr' hq
    · rw [hintent]
      exact hs.quotes id r q hr hheld
    · rw [hintent, ← hpub]
      exact hs.given hgiven
  · rintro rc id r r' rfl hr hr' hopen hsettled
    obtain ⟨hid, hreceipt, hpub⟩ := hpeer.settled_by hs.consistent hr hr' hopen hsettled
    refine ⟨hid, hreceipt, ?_⟩
    rw [← hpub]
    exact hs.given hgiven

/-- … and leaves it sound. -/
theorem Sender.Sound.step (hs : s.Sound rt buzz h) (hstep : SenderStep rt buzz cfg identity s c s') :
    s'.Sound rt buzz (h ++ [⟨s, c, s'⟩]) := by
  have hmoved := hs.moved hstep
  obtain ⟨op, env, hgiven⟩ := hstep
  have hpeer : PeerStep cfg s.orchestrator op (s.run rt buzz cfg identity env op).state := peerCall_step op _
  refine ⟨hpeer.consistent hs.consistent, fun m hm => ?_, fun id r q hr hq => (hmoved.quotes id r q hr hq).append _⟩
  rcases List.mem_append.mp hm with hold | hnew
  · exact (hs.received m hold).append _
  · obtain ⟨e, he, hcarried⟩ := Sender.handed_carried hnew
    exact ⟨e, List.mem_append_right _ he, hcarried⟩

theorem SenderRun.sound (hrun : SenderRun rt buzz cfg identity h s) : s.Sound rt buzz h :=
  hrun.history (fun _ h0 => h0.sound) (fun _ _ _ _ _ hs hstep => hs.step hstep)

/-- **Only the recipient moves an intent**: whatever a relay answers, every quote an operation leaves in a record, and
    every receipt that settles an intent, was carried by an earlier event of the recipient. -/
theorem only_recipient_moves (hrun : SenderRun rt buzz cfg identity h s) {k : Nat} {e : Event Sender SenderCall}
    (he : h[k]? = some e) : MovedByRecipient rt buzz (h.take k) e := by
  obtain ⟨hprev, hstep⟩ := hrun.at_position he
  exact (SenderRun.sound hprev).moved hstep

end

/-! ## A quote from the recipient -/

namespace Sample

def sentQuote : PaymentQuote := quote "i" "invoice A" 100

def quoteEvent : RawBuzzEvent := event "quote event" (encodeContent (.quote sentQuote))

/-- A relay that answers with the quote. -/
def senderEnv : SenderEnv := ⟨env 0 paid, ⟨fun _ => .ok [quoteEvent], fun _ => 0, false⟩, fun _ => .ok "event id"⟩

/-- The event of one operation. -/
def does (s : Sender) (op : PeerOp) : Event Sender SenderCall :=
  ⟨s, ⟨op, senderEnv, (s.run runtime buzz config party senderEnv op).result⟩, s.next runtime buzz config party senderEnv op⟩

theorem mem_received_does {s : Sender} {op : PeerOp} {m : PeerMessage} (hm : m ∈ handed (does s op).seen.result) :
    m ∈ (does s op).after.received := List.mem_append_right _ hm

/-- The sender submits an intent, reads the relay, and accepts the quote. -/
def submits : Event Sender SenderCall := does ⟨.init .empty 0, ∅, []⟩ (.submitIntent (intent "i" 100))
def reads : Event Sender SenderCall := does submits.after (.receive none)
def accepts : Event Sender SenderCall := does reads.after (.acceptQuote sentQuote)

theorem handout_quoteEvent : handout runtime buzz senderEnv.buzz quoteEvent = some (peerMessage quoteEvent (.quote sentQuote)) := by
  have hvalid : validateReceivedEvent runtime quoteEvent "channel" 0 = .ok (.quote sentQuote) :=
    validateReceivedEvent_eq_ok_iff.mpr ⟨rfl, rfl, decodeContent_encodeContent runtime_readsIntegers rfl, rfl, rfl⟩
  exact (handout_eq_some_iff _ _ _).mpr ⟨nofun, _, hvalid, rfl⟩

/-- The quote is handed over. -/
theorem reads_result : reads.seen.result = .ok (.messages [peerMessage quoteEvent (.quote sentQuote)]) := by
  have hreached : reached runtime buzz senderEnv.buzz (quota none) [quoteEvent] submits.after.seen = [quoteEvent] := rfl
  have hclean : ∀ e ∈ reached runtime buzz senderEnv.buzz (quota none) [quoteEvent] submits.after.seen,
      ¬ Poisons runtime buzz senderEnv.buzz e := by
    rintro e he ⟨x, hx⟩
    rw [hreached] at he
    have hout := handout_quoteEvent
    rw [← List.mem_singleton.mp he, handout, hx] at hout
    cases hout
  have hget : senderEnv.buzz.get none = .ok [quoteEvent] := rfl
  have hnd : ([quoteEvent].map RawBuzzEvent.id).Nodup := List.nodup_singleton _
  have hlimit : ∀ n : Int, none = some n → 0 ≤ n := by
    intro n h
    cases h
  have hreceive := run_receive hget rfl hnd hlimit hclean
  have hanswer : ((BuzzTransport.receive runtime buzz senderEnv.buzz none).run submits.after.seen).result =
      .ok [peerMessage quoteEvent (.quote sentQuote)] := by
    rw [hreceive, hreached]
    simp [handout_quoteEvent]
  unfold reads does Sender.run
  rw [result_receive]
  unfold Sender.peerEnv BuzzTransport.peer
  simp only [hanswer]
  rfl

theorem quote_received : peerMessage quoteEvent (.quote sentQuote) ∈ reads.after.received := by
  have hmem : peerMessage quoteEvent (.quote sentQuote) ∈ handed reads.seen.result := by
    rw [reads_result]
    exact List.mem_singleton_self _
  exact mem_received_does hmem

theorem quoted_run : SenderRun runtime buzz config party [submits, reads, accepts] accepts.after := by
  have h0 : SenderRun runtime buzz config party [] ⟨.init .empty 0, ∅, []⟩ := .nil ⟨fresh.fresh, rfl⟩
  have h1 : SenderRun runtime buzz config party [submits] submits.after := h0.snoc (.call _ senderEnv trivial)
  have h2 : SenderRun runtime buzz config party [submits, reads] reads.after := h1.snoc (.call _ senderEnv trivial)
  exact h2.snoc (.call _ senderEnv ⟨_, quote_received, rfl⟩)

end Sample

/-- A quote that came with the recipient's event and was accepted. -/
theorem only_recipient_moves_quoted :
    MovedByRecipient Sample.runtime Sample.buzz [Sample.submits, Sample.reads] Sample.accepts :=
  only_recipient_moves Sample.quoted_run (k := 2) rfl

end HermesPayments
