import HermesPayments.Exchange
import HermesPayments.Hub

/-!
# `HermesPayments.Exchange.Hub` — processes over the in-memory hub

A hub gives every peer an inbox, and what is taken out of an inbox is gone; a board keeps everything and shows it to
everybody. `hub_refines` says that processes over a hub do nothing that processes over a board could not do: every run is
matched by a run of the exchange, with the same steps of the same nodes. Others are connected to the hub too, under keys that
are no party's, and may even read what is in a party's inbox.
-/

namespace HermesPayments

open Lib

/-! ## The hub as a transport -/

/-- The exception where the peer lets it through. -/
def HubExc.toExc : HubExc → Exc
  | .peerTransportError m | .valueError m => .transportError m
  | .keyError key => .transportError key

/-- The transport a peer sees during one operation, over the hub. -/
def InMemoryPeerTransport.peer (sha256 : Bytes → String) (hub : InMemoryTransportHub) (endpoint : InMemoryPeerTransport)
    (now : Int) : PeerTransport where
  send m        := ((InMemoryTransportHub.send sha256 endpoint (.message m) now).run hub).result.mapError HubExc.toExc
  receive limit := ((InMemoryTransportHub.receive endpoint limit).run hub).result.mapError HubExc.toExc

/-- The call of the hub that an effect of a process is. -/
def ProcessEffect.hubCall? (endpoint : InMemoryPeerTransport) (now : Int) : ProcessEffect → Option HubCall
  | .peer (.send m)        => some (.send endpoint (.message m) now)
  | .peer (.receive limit) => some (.receive endpoint limit)
  | _                      => none

namespace InMemoryTransportHub

/-- The hub after a call. -/
def apply (sha256 : Bytes → String) (hub : InMemoryTransportHub) (call : HubCall) : InMemoryTransportHub :=
  ((hubCall sha256 call).run hub).state

/-- The hub after what a process has performed. -/
abbrev after (sha256 : Bytes → String) (hub : InMemoryTransportHub) (endpoint : InMemoryPeerTransport) (now : Int)
    (es : List ProcessEffect) : InMemoryTransportHub :=
  applyAll (apply sha256) hub (es.filterMap (ProcessEffect.hubCall? endpoint now))

end InMemoryTransportHub

/-! ## Processes over a hub -/

structure HubExchange (ι : Type) where
  hub   : InMemoryTransportHub
  nodes : ι → Node

/-- What is observed of a step. -/
inductive HubExchangeEvent (ι : Type) where
  | party (p : ι) (event : NodeEvent)
  /-- Others than the parties call the hub. -/
  | others (call : HubCall)

/-- The step of a party, if the event is one. -/
def HubExchangeEvent.party? {ι : Type} : HubExchangeEvent ι → Option (ι × NodeEvent)
  | .party p event => some (p, event)
  | .others _      => none

section

variable {ι : Type} (config : ι → ProcessConfig) (sha256 : Bytes → String) (peerId : ι → String)

/-- The endpoint of a party. -/
def partyEndpoint (p : ι) : InMemoryPeerTransport := ⟨peerId p, (config p).identity⟩

/-- The steps of processes over a hub. A command makes its calls at one reading of the hub's clock. -/
inductive HubExchangeStep [DecidableEq ι] : HubExchange ι → HubExchangeEvent ι → HubExchange ι → Prop
  | party {x : HubExchange ι} {p : ι} {e : NodeEvent} {n' : Node} (now : Int)
      (hstep : NodeStep (config p) (x.nodes p) e n')
      (htransport : ∀ penv parsed, e.line? = some (penv, parsed) →
        penv.transport = (partyEndpoint config peerId p).peer sha256 x.hub now) :
      HubExchangeStep x (.party p e)
        ⟨x.hub.after sha256 (partyEndpoint config peerId p) now (e.performed (config p) (x.nodes p)),
          Function.update x.nodes p n'⟩
  | others {x : HubExchange ι} (call : HubCall) (houtside : ∀ endpoint m now, call = .send endpoint m now →
        ∀ p, endpoint.identity.pubkey ≠ (config p).identity.pubkey) :
      HubExchangeStep x (.others call) ⟨x.hub.apply sha256 call, x.nodes⟩

/-- Fresh state roots, and a hub in which nothing waits. -/
def HubExchangeInit (x : HubExchange ι) : Prop :=
  (∀ q inbox, x.hub.inboxes.get? q = some inbox → inbox = []) ∧ ∀ p, NodeInit (x.nodes p)

/-- The runs of processes over a hub. -/
abbrev HubExchangeRun [DecidableEq ι] (h : List (Event (HubExchange ι) (HubExchangeEvent ι))) (x : HubExchange ι) : Prop :=
  Run HubExchangeInit (HubExchangeStep config sha256 peerId) h x

end

/-! ## What waits in the hub -/

/-- The message that a call delivers: the endpoint has authored it. -/
def HubCall.Delivers (call : HubCall) (m : PaymentMessage) : Prop :=
  ∃ endpoint now, call = .send endpoint (.message m) now ∧ (messageAuthor m).pubkey = endpoint.identity.pubkey

/-- A call delivers one message, or none. -/
theorem HubCall.exists_delivers (call : HubCall) : ∃ ms : List PaymentMessage, ∀ m, call.Delivers m ↔ m ∈ ms := by
  by_cases hany : ∃ m, call.Delivers m
  · obtain ⟨m, endpoint, now, rfl, hauthor⟩ := hany
    refine ⟨[m], fun m' => ?_⟩
    rw [List.mem_singleton]
    constructor
    · rintro ⟨_, _, hcall, _⟩
      cases hcall
      rfl
    · rintro rfl
      exact ⟨endpoint, now, rfl, hauthor⟩
  · refine ⟨[], fun m => ⟨fun hm => absurd ⟨m, hm⟩ hany, fun hm => ?_⟩⟩
    cases hm

theorem ProcessEffect.hubCall?_eq_send {endpoint endpoint' : InMemoryPeerTransport} {now now' : Int} {w : ProcessEffect}
    {m : PaymentMessage} (h : w.hubCall? endpoint now = some (.send endpoint' (.message m) now')) : w = .peer (.send m) := by
  cases w with
  | peer effect =>
      cases effect with
      | send m' =>
          cases h
          rfl
      | policy _ | receive _ => cases h
  | snapshotSave _ | verifyReceiptCall _ _ | acceptCall _ => cases h

namespace InMemoryTransportHub

/-- Whatever waits in an inbox is on the board. -/
def OnBoard (hub : InMemoryTransportHub) (board : List PaymentMessage) : Prop :=
  ∀ q inbox, hub.inboxes.get? q = some inbox → ∀ m ∈ inbox, m.message ∈ board

variable {sha256 : Bytes → String} {hub : InMemoryTransportHub} {board board' : List PaymentMessage}

theorem OnBoard.mono (h : hub.OnBoard board) (hsub : ∀ m ∈ board, m ∈ board') : hub.OnBoard board' :=
  fun q inbox hinbox m hm => hsub _ (h q inbox hinbox m hm)

/-- A call that raises leaves the hub as it is. -/
theorem apply_of_error {call : HubCall} {e : HubExc} (hrun : (hubCall sha256 call).run hub = ⟨.error e, hub, []⟩) :
    hub.apply sha256 call = hub := by
  rw [apply, hrun]

/-- **A call** puts nothing in the inboxes but what it delivers. -/
theorem OnBoard.apply (h : hub.OnBoard board) {call : HubCall} (hdelivers : ∀ m, call.Delivers m → m ∈ board) :
    (hub.apply sha256 call).OnBoard board := by
  cases call with
  | connect peerId identity =>
      rcases run_connect sha256 hub peerId identity with ⟨e, hrun⟩ | ⟨_, hrun⟩
      · rw [apply_of_error hrun]
        exact h
      · rw [InMemoryTransportHub.apply, hrun]
        intro q inbox hinbox m hm
        rw [Dict.get?_set] at hinbox
        split at hinbox
        · cases hinbox
          cases hm
        · exact h q inbox hinbox m hm
  | send endpoint message now =>
      rcases run_send sha256 hub endpoint message now with ⟨_, e, hrun⟩ | ⟨hauthored, m, id, rfl, _, hrun⟩
      · rw [apply_of_error hrun]
        exact h
      · rw [InMemoryTransportHub.apply, hrun]
        obtain ⟨m', hm', hauthor⟩ := hauthored
        cases hm'
        have hmem : m ∈ board := hdelivers m ⟨endpoint, now, rfl, hauthor⟩
        intro q inbox hinbox msg hmsg
        -- an inbox is the one before, or the one before with the message at its end
        simp only [deliver, Dict.get?_mapWithKey, Option.map_eq_some_iff] at hinbox
        obtain ⟨before, hbefore, rfl⟩ := hinbox
        split at hmsg
        · rcases List.mem_append.mp hmsg with hmsg | hmsg
          · exact h q before hbefore msg hmsg
          · rw [List.mem_singleton.mp hmsg]
            exact hmem
        · exact h q before hbefore msg hmsg
  | receive endpoint limit =>
      rcases run_receive sha256 hub endpoint limit with ⟨e, hrun⟩ | ⟨selected, rest, hub', hinbox, hrest, _, hrun⟩
      · rw [apply_of_error hrun]
        exact h
      · rw [InMemoryTransportHub.apply, hrun]
        intro q inbox hq m hm
        rw [hrest q] at hq
        split at hq
        · cases hq
          exact h _ _ hinbox m (List.mem_append_right _ hm)
        · exact h q inbox hq m hm

/-- … nor do several calls. -/
theorem OnBoard.applyAll {calls : List HubCall} (h : hub.OnBoard board)
    (hdelivers : ∀ call ∈ calls, ∀ m, call.Delivers m → m ∈ board) :
    (Lib.applyAll (InMemoryTransportHub.apply sha256) hub calls).OnBoard board := by
  induction calls generalizing hub with
  | nil => exact h
  | cons call calls ih =>
      rw [applyAll_cons]
      exact ih (h.apply (hdelivers call List.mem_cons_self)) fun c hc => hdelivers c (List.mem_cons_of_mem _ hc)

/-- What an endpoint receives waited in an inbox. -/
theorem OnBoard.received (h : hub.OnBoard board) {endpoint : InMemoryPeerTransport} {limit : Option Int} {now : Int}
    {ms : List PeerMessage} (hms : (endpoint.peer sha256 hub now).receive limit = .ok ms) : ∀ m ∈ ms, m.message ∈ board := by
  have hrun : ((hubCall sha256 (.receive endpoint limit)).run hub).result = .ok (.messages ms) := by
    show ((do return .messages (← receive endpoint limit) : HubProc HubAnswer).run hub).result = _
    rw [Proc.run_bind]
    simp only [InMemoryPeerTransport.peer] at hms
    rcases hreceive : (receive endpoint limit).run hub with ⟨e | ms', hub', es⟩
    · rw [hreceive] at hms
      cases hms
    · rw [hreceive] at hms
      cases hms
      rfl
  rcases run_receive sha256 hub endpoint limit with ⟨e, herror⟩ | ⟨selected, rest, hub', hinbox, _, _, hok⟩
  · rw [herror] at hrun
    cases hrun
  · rw [hok] at hrun
    cases hrun
    exact fun m hm => h _ _ hinbox m (List.mem_append_left _ hm)

end InMemoryTransportHub

/-! ## The simulation -/

section

variable {ι : Type} [DecidableEq ι] {config : ι → ProcessConfig} {sha256 : Bytes → String} {peerId : ι → String}

/-- The nodes are the same, and whatever waits in the hub is on the board. -/
def HubExchange.SeenAs (x : HubExchange ι) (y : Exchange ι) : Prop := y.nodes = x.nodes ∧ x.hub.OnBoard y.board

/-- The same step of the same nodes. -/
def SameHubEvent (e : Event (HubExchange ι) (HubExchangeEvent ι)) (e' : Event (Exchange ι) (ExchangeEvent ι)) : Prop :=
  e'.before.nodes = e.before.nodes ∧ e'.seen.party? = e.seen.party?

theorem hub_simulates : Simulates HubExchangeInit (HubExchangeStep config sha256 peerId) ExchangeInit (ExchangeStep config)
    HubExchange.SeenAs SameHubEvent where
  start x hx := by
    refine ⟨⟨[], x.nodes⟩, ⟨rfl, hx.2⟩, rfl, ?_⟩
    intro q inbox hinbox m hm
    rw [hx.1 q inbox hinbox] at hm
    cases hm
  follow x y i x' hrelated hstep := by
    obtain ⟨board, nodes⟩ := y
    obtain ⟨rfl, hboard⟩ := hrelated
    cases hstep with
    | @party p e n' now hnode htransport =>
        refine ⟨.party p e, _, .party hnode ?_, ⟨rfl, ?_⟩, rfl, rfl⟩
        · intro penv parsed hline limit ms hms
          rw [htransport penv parsed hline] at hms
          exact hboard.received hms
        · refine (hboard.mono fun m hm => List.mem_append_left _ hm).applyAll ?_
          intro call hcall m hdelivers
          obtain ⟨w, hw, hcalled⟩ := List.mem_filterMap.mp hcall
          obtain ⟨endpoint, now', rfl, _⟩ := hdelivers
          exact List.mem_append_right _ (mem_sends.mpr (ProcessEffect.hubCall?_eq_send hcalled ▸ hw))
    | others call houtside =>
        obtain ⟨ms, hms⟩ := call.exists_delivers
        refine ⟨.others ms, _, .others fun m hm p => ?_, ⟨rfl, ?_⟩, rfl, rfl⟩
        · obtain ⟨endpoint, now, hcall, hauthor⟩ := (hms m).mpr hm
          rw [hauthor]
          exact houtside endpoint _ now hcall p
        · refine (hboard.mono fun m hm => List.mem_append_left _ hm).apply fun m hdelivers => ?_
          exact List.mem_append_right _ ((hms m).mp hdelivers)

end

end HermesPayments
