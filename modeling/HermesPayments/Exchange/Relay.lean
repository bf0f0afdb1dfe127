import HermesPayments.Exchange
import HermesPayments.Transport.Endpoint

/-!
# `HermesPayments.Exchange.Relay` — processes over a Buzz relay

The relay is public: everybody may publish there, and what is published is read by everybody. A party is an endpoint of
its own, a process over its Buzz transport with its disk, and what it sends is published under its key: at once, late, more
than once or never. A query is answered with any events of the relay, in any order and with any repetitions, or it fails.
Nobody else has the key of a party, and that is all that is assumed of others: their events may say anything, on any
channel, under any id.

A relay is seen as a board because the transport hands out a message only if the key of the event is the key of the
message's author (`relay_simulates`).
-/

namespace HermesPayments

open Lib BuzzTransport

/-! ## Parties over a relay -/

/-- An endpoint without the relay, which the parties share. -/
structure Member where
  disk : Disk
  proc : Option (ProcessState × Finset String)
  now  : Int

def Member.endpoint (m : Member) (relay : List RawBuzzEvent) : Endpoint := ⟨m.disk, m.proc, relay, m.now⟩

/-- The state root, and the process over it. -/
def Member.node (m : Member) : Node := ⟨m.disk.world, m.proc.map Prod.fst⟩

structure RelayExchange (ι : Type) where
  relay   : List RawBuzzEvent
  /-- What each party has handed to its client. -/
  sent    : ι → List PaymentMessage
  members : ι → Member

/-- What is observed of a step. -/
inductive RelayExchangeEvent (ι : Type) where
  | party (p : ι) (event : EndpointEvent)
  /-- An event reaches the relay that a party's client has made. -/
  | posted (p : ι) (event : RawBuzzEvent)
  /-- Others than the parties publish. -/
  | others (events : List RawBuzzEvent)

/-- A query is answered with events of the relay, or fails. -/
def EndpointEnv.ReadsAmong (env : EndpointEnv) (relay : List RawBuzzEvent) : Prop :=
  ∀ since events, env.buzz.get since = .ok events → ∀ event ∈ events, event ∈ relay

/-- The message that an effect hands to the client. -/
def EndpointEffect.sent? : EndpointEffect → Option PaymentMessage
  | .process (.peer (.send m)) => some m
  | _ => none

section

variable (rt : Runtime)

/-- The effects of a line that the step has performed. -/
def EndpointEvent.performed (buzz : BuzzConfig) (config : ProcessConfig) (c : Endpoint) : EndpointEvent → List EndpointEffect
  | .handled env parsed _ => c.proc.elim [] fun p => (handleOver rt buzz config env p parsed).effects
  | .killed _ _ performed => performed
  | .published _ | .started _ | .startCut _ _ => []

variable {ι : Type} (buzz : ι → BuzzConfig) (config : ι → ProcessConfig)

/-- The steps of parties over a relay. What a party has sent may be posted at any time. -/
inductive RelayExchangeStep [DecidableEq ι] : RelayExchange ι → RelayExchangeEvent ι → RelayExchange ι → Prop
  | party {x : RelayExchange ι} {p : ι} {e : EndpointEvent} {m' : Member}
      (hstep : EndpointStep rt (buzz p) (config p) EndpointEnv.ReadsAmong ((x.members p).endpoint x.relay) e
        (m'.endpoint x.relay))
      (hown : ∀ events, e ≠ .published events) :
      RelayExchangeStep x (.party p e)
        ⟨x.relay, Function.update x.sent p (x.sent p ++ (e.performed rt (buzz p) (config p)
          ((x.members p).endpoint x.relay)).filterMap EndpointEffect.sent?), Function.update x.members p m'⟩
  | posted {x : RelayExchange ι} {p : ι} {m : PaymentMessage} {event : RawBuzzEvent} (hm : m ∈ x.sent p)
      (hkey : event.pubkey = (config p).identity.pubkey) (hcontent : event.content = encodeContent m) :
      RelayExchangeStep x (.posted p event) ⟨x.relay ++ [event], x.sent, x.members⟩
  | others {x : RelayExchange ι} {events : List RawBuzzEvent}
      (houtside : ∀ event ∈ events, ∀ p, event.pubkey ≠ (config p).identity.pubkey) :
      RelayExchangeStep x (.others events) ⟨x.relay ++ events, x.sent, x.members⟩

/-- Fresh state roots without cursor files, before anything is published. -/
def RelayExchangeInit (x : RelayExchange ι) : Prop :=
  x.relay = [] ∧ (∀ p, x.sent p = []) ∧ ∀ p, (x.members p).disk = ⟨.empty, none⟩ ∧ (x.members p).proc = none

/-- The runs of parties over a relay. -/
abbrev RelayExchangeRun [DecidableEq ι] (h : List (Event (RelayExchange ι) (RelayExchangeEvent ι))) (x : RelayExchange ι) :
    Prop := Run RelayExchangeInit (RelayExchangeStep rt buzz config) h x

end

/-! ## What is read off an event -/

/-- The event says the message: its content decodes to it, and its key is the author's. -/
def RawBuzzEvent.Says (rt : Runtime) (event : RawBuzzEvent) (m : PaymentMessage) : Prop :=
  decodeContent rt event.content = .ok m ∧ event.pubkey = (messageAuthor m).pubkey

section

variable {rt : Runtime}

/-- An event says one message at most. -/
theorem RawBuzzEvent.exists_says (event : RawBuzzEvent) : ∃ ms : List PaymentMessage, ∀ m, event.Says rt m ↔ m ∈ ms := by
  by_cases hany : ∃ m, event.Says rt m
  · obtain ⟨m, hm⟩ := hany
    refine ⟨[m], fun m' => ?_⟩
    rw [List.mem_singleton]
    constructor
    · rintro ⟨hdecode, _⟩
      rw [hm.1] at hdecode
      cases hdecode
      rfl
    · rintro rfl
      exact hm
  · refine ⟨[], fun m => ⟨fun hm => absurd ⟨m, hm⟩ hany, fun hm => ?_⟩⟩
    cases hm

/-- … and several events a list of messages. -/
theorem exists_says_of_mem (events : List RawBuzzEvent) :
    ∃ ms : List PaymentMessage, ∀ m, (∃ event ∈ events, event.Says rt m) ↔ m ∈ ms := by
  induction events with
  | nil => exact ⟨[], fun m => by simp⟩
  | cons event rest ih =>
      obtain ⟨ms, hms⟩ := ih
      obtain ⟨ms', hms'⟩ := @RawBuzzEvent.exists_says rt event
      refine ⟨ms' ++ ms, fun m => ?_⟩
      rw [List.mem_append, ← hms, ← hms', List.exists_mem_cons_iff]

/-- A content that was encoded decodes to the message, if it decodes. -/
theorem decodeContent_of_encoded (hint : rt.ReadsIntegers) {m m' : PaymentMessage}
    (h : decodeContent rt (encodeContent m) = .ok m') : m' = m := by
  cases hlimit : rt.limit (encodeContent m) with
  | none =>
      rw [decodeContent_encodeContent hint hlimit] at h
      cases h
      rfl
  | some e =>
      obtain ⟨_, _, _, hloads, _⟩ := decodeContent_eq_ok_iff.mp h
      unfold jsonLoads at hloads
      rw [hlimit] at hloads
      cases e with
      | recursionError => cases hloads
      | valueError => cases hloads

/-- What a party receives, an event of the relay says. -/
theorem says_of_received {buzz : BuzzConfig} {env : EndpointEnv} {seen : Finset String} {relay : List RawBuzzEvent}
    (hreads : env.ReadsAmong relay) {limit : Option Int} {ms : List PeerMessage}
    (hms : (env.over rt buzz seen).transport.receive limit = .ok ms) :
    ∀ m ∈ ms, ∃ event ∈ relay, event.Says rt m.message := by
  intro m hm
  have hresult : ((receive rt buzz env.buzz limit).run seen).result = .ok ms := by
    simp only [EndpointEnv.over, BuzzTransport.peer] at hms
    cases hrun : ((receive rt buzz env.buzz limit).run seen).result with
    | error e =>
        rw [hrun] at hms
        cases hms
    | ok ms' =>
        rw [hrun] at hms
        cases hms
        rfl
  obtain ⟨events, hget, event, hevent, hmade⟩ := mem_receive hresult hm
  obtain ⟨_, message, hvalid, rfl⟩ := (handout_eq_some_iff rt buzz env.buzz).mp hmade
  obtain ⟨_, _, hdecode, _, hauthor⟩ := validateReceivedEvent_eq_ok_iff.mp hvalid
  exact ⟨event, hreads _ events hget event hevent, hdecode, hauthor⟩

end

/-! ## An endpoint as a node -/

/-- A prefix of the effects of a command, with those of the transport in their place, is a prefix of the command's own. -/
theorem interleave_take (reads : List TransportEffect) (es : List ProcessEffect) (k : Nat) :
    ∃ j, (∀ d : Disk, (d.after ((interleave reads es).take k)).world = d.world.after (es.take j)) ∧
      (∀ m, .process (.peer (.send m)) ∈ (interleave reads es).take k → .peer (.send m) ∈ es.take j) ∧
      ∀ w, (interleave reads es)[k]? = some (.process w) → es[j]? = some w := by
  induction es generalizing k with
  | nil =>
      refine ⟨0, fun d => by simp [interleave], fun m hm => ?_, fun w hw => ?_⟩
      · rw [show interleave reads [] = [] from rfl, List.take_nil] at hm
        cases hm
      · cases hw
  | cons w es ih =>
      by_cases hread : ∃ limit, w = .peer (.receive limit)
      · obtain ⟨limit, rfl⟩ := hread
        rw [interleave_read]
        by_cases hk : k < (reads.map EndpointEffect.transport).length
        · -- the cut is while the transport reads
          refine ⟨0, fun d => ?_, fun m hm => ?_, fun w hw => ?_⟩
          · rw [List.take_append_of_le_length (Nat.le_of_lt hk), ← List.map_take, after_transport]
            rfl
          · rw [List.take_append_of_le_length (Nat.le_of_lt hk)] at hm
            obtain ⟨_, _, hr⟩ := List.mem_map.mp (List.mem_of_mem_take hm)
            cases hr
          · rw [List.getElem?_append_left hk] at hw
            obtain ⟨_, _, hr⟩ := List.mem_map.mp (List.mem_of_getElem? hw)
            cases hr
        · obtain ⟨j, hworld, hsends, hnext⟩ := ih (k - (reads.map EndpointEffect.transport).length)
          have hsplit : (reads.map EndpointEffect.transport ++ interleave reads es).take k = _ := List.take_append
          rw [List.take_of_length_le (Nat.not_lt.mp hk)] at hsplit
          refine ⟨j + 1, fun d => ?_, fun m hm => ?_, fun w hw => ?_⟩
          · rw [hsplit, Disk.after, applyAll_append]
            refine (hworld _).trans ?_
            rw [after_transport]
            rfl
          · rw [hsplit] at hm
            rcases List.mem_append.mp hm with hm | hm
            · obtain ⟨_, _, hr⟩ := List.mem_map.mp hm
              cases hr
            · exact List.mem_cons_of_mem _ (hsends m hm)
          · rw [List.getElem?_append_right (Nat.not_lt.mp hk)] at hw
            exact hnext w hw
      · rw [interleave_other reads fun limit h => hread ⟨limit, h⟩]
        cases k with
        | zero =>
            refine ⟨0, fun d => rfl, fun m hm => ?_, fun w' hw => ?_⟩
            · cases hm
            · cases hw
              rfl
        | succ k =>
            obtain ⟨j, hworld, hsends, hnext⟩ := ih k
            refine ⟨j + 1, fun d => hworld (d.apply (.process w)), fun m hm => ?_, fun w' hw => hnext w' hw⟩
            rcases List.mem_cons.mp hm with hm | hm
            · cases hm
              exact List.mem_cons_self
            · exact List.mem_cons_of_mem _ (hsends m hm)

/-- What a kill leaves of an endpoint is what a kill leaves of its node. -/
theorem Disk.cut_world (reads : List TransportEffect) (es : List ProcessEffect) (d : Disk) {j k : Nat}
    (hworld : (d.after ((interleave reads es).take k)).world = d.world.after (es.take j))
    (hnext : ∀ w, (interleave reads es)[k]? = some (.process w) → es[j]? = some w) (left : Remnant) :
    ∃ left', (d.cut (interleave reads es) k left).world = (Cut.mk j left').world d.world es := by
  unfold Disk.cut
  split
  · next entry he =>
      refine ⟨left, ?_⟩
      unfold Cut.world
      simp only [hnext _ he, hworld]
  · exact ⟨.nothing, hworld.trans (Cut.world_nothing j d.world es).symm⟩

/-- The same command or start. -/
inductive SameCommand : EndpointEvent → NodeEvent → Prop
  | handled {env : EndpointEnv} {penv : ProcessEnv} {parsed : Except Exc Command} {result : Except Exc String} :
      SameCommand (.handled env parsed result) (.handled penv parsed result)
  | killed {env : EndpointEnv} {penv : ProcessEnv} {parsed : Except Exc Command} {es : List EndpointEffect}
      {es' : List ProcessEffect} : SameCommand (.killed env parsed es) (.killed penv parsed es')
  | started {pass : StartPass} : SameCommand (.started pass) (.started pass)
  | startCut {pass : StartPass} {es : List ProcessEffect} : SameCommand (.startCut pass es) (.startCut pass es)

section

variable {rt : Runtime} {buzz : BuzzConfig} {config : ProcessConfig}

theorem mem_of_sent {es : List EndpointEffect} {msg : PaymentMessage} (h : msg ∈ es.filterMap EndpointEffect.sent?) :
    .process (.peer (.send msg)) ∈ es := by
  obtain ⟨w, hw, hsent⟩ := List.mem_filterMap.mp h
  unfold EndpointEffect.sent? at hsent
  split at hsent
  · cases hsent
    exact hw
  · cases hsent

/-- **A step of an endpoint** is a step of its node, which receives what events of the relay say and has sent whatever the
    endpoint has. -/
theorem EndpointStep.node {m m' : Member} {relay relay' : List RawBuzzEvent} {e : EndpointEvent}
    (hstep : EndpointStep rt buzz config EndpointEnv.ReadsAmong (m.endpoint relay) e (m'.endpoint relay'))
    (hown : ∀ events, e ≠ .published events) :
    ∃ e', NodeStep config m.node e' m'.node ∧ SameCommand e e' ∧
      (∀ penv parsed, e'.line? = some (penv, parsed) → ∀ limit ms, penv.transport.receive limit = .ok ms →
        ∀ msg ∈ ms, ∃ event ∈ relay, event.Says rt msg.message) ∧
      ∀ msg ∈ (e.performed rt buzz config (m.endpoint relay)).filterMap EndpointEffect.sent?,
        msg ∈ sends (e'.performed config m.node) := by
  obtain ⟨disk, proc, now⟩ := m
  obtain ⟨disk', proc', now'⟩ := m'
  simp only [Member.endpoint] at hstep
  cases hstep with
  | published events _ => exact absurd rfl (hown events)
  | @handled _ p _ _ _ env parsed hreads _ =>
      refine ⟨.handled (env.over rt buzz p.2) parsed (handleOver rt buzz config env p parsed).result, ?_, .handled, ?_, ?_⟩
      · have hnode : NodeStep config _ _ _ := .handled disk.world p.1 (env.over rt buzz p.2) parsed
        rwa [← after_interleave (transportRun rt buzz env p.2 parsed).2] at hnode
      · intro penv parsed' hline limit ms hms
        cases hline
        exact says_of_received hreads hms
      · intro msg hmsg
        have hall := (interleave_take (transportRun rt buzz env p.2 parsed).2
          (p.1.handle config (env.over rt buzz p.2) parsed).effects
          (handleOver rt buzz config env p parsed).effects.length)
        obtain ⟨j, _, hsends, _⟩ := hall
        rw [mem_sends]
        refine List.mem_of_mem_take (hsends msg ?_)
        rw [show interleave _ _ = (handleOver rt buzz config env p parsed).effects from rfl, List.take_length]
        exact mem_of_sent hmsg
  | @killed _ p _ _ _ env parsed hreads _ k left =>
      obtain ⟨j, hworld, hsends, hnext⟩ := interleave_take (transportRun rt buzz env p.2 parsed).2
        (p.1.handle config (env.over rt buzz p.2) parsed).effects k
      obtain ⟨left', hcut⟩ := Disk.cut_world _ _ disk (hworld disk) hnext left
      refine ⟨.killed (env.over rt buzz p.2) parsed ((p.1.handle config (env.over rt buzz p.2) parsed).effects.take j), ?_,
        .killed, ?_, ?_⟩
      · have hnode := @NodeStep.killed config disk.world p.1 (env.over rt buzz p.2) parsed ⟨j, left'⟩
        rwa [← hcut] at hnode
      · intro penv parsed' hline limit ms hms
        cases hline
        exact says_of_received hreads hms
      · intro msg hmsg
        exact mem_sends.mpr (hsends msg (mem_of_sent hmsg))
  | started pass hopens hok =>
      refine ⟨_, .started disk.world pass hopens hok, .started, ?_, ?_⟩
      · intro penv parsed hline
        cases hline
      · intro msg hmsg
        cases hmsg
  | startCut pass c hopens =>
      refine ⟨_, .startCut disk.world pass c hopens, .startCut, ?_, ?_⟩
      · intro penv parsed hline
        cases hline
      · intro msg hmsg
        cases hmsg

end

/-! ## The simulation -/

section

variable {ι : Type} [DecidableEq ι] {rt : Runtime} {buzz : ι → BuzzConfig} {config : ι → ProcessConfig}

/-- The nodes are the same, and whatever was sent or the relay says is on the board. -/
structure RelayExchange.SeenAs (rt : Runtime) (x : RelayExchange ι) (y : Exchange ι) : Prop where
  nodes : ∀ p, y.nodes p = (x.members p).node
  relay : ∀ event ∈ x.relay, ∀ m, event.Says rt m → m ∈ y.board
  sent  : ∀ p, ∀ m ∈ x.sent p, m ∈ y.board

/-- The same step of the same nodes. To the exchange it is nothing that an event reaches the relay: the message is on the
    board since it was sent. -/
inductive SameRelayEvent : Event (RelayExchange ι) (RelayExchangeEvent ι) → Event (Exchange ι) (ExchangeEvent ι) → Prop
  | party {x x' : RelayExchange ι} {y y' : Exchange ι} {p : ι} {e : EndpointEvent} {e' : NodeEvent}
      (hnodes : ∀ p, y.nodes p = (x.members p).node) (hsame : SameCommand e e') :
      SameRelayEvent ⟨x, .party p e, x'⟩ ⟨y, .party p e', y'⟩
  | posted {x x' : RelayExchange ι} {y y' : Exchange ι} {p : ι} {event : RawBuzzEvent}
      (hnodes : ∀ p, y.nodes p = (x.members p).node) : SameRelayEvent ⟨x, .posted p event, x'⟩ ⟨y, .others [], y'⟩
  | others {x x' : RelayExchange ι} {y y' : Exchange ι} {events : List RawBuzzEvent} {ms : List PaymentMessage}
      (hnodes : ∀ p, y.nodes p = (x.members p).node) : SameRelayEvent ⟨x, .others events, x'⟩ ⟨y, .others ms, y'⟩

theorem relay_simulates (hint : rt.ReadsIntegers) :
    Simulates RelayExchangeInit (RelayExchangeStep rt buzz config) ExchangeInit (ExchangeStep config)
      (RelayExchange.SeenAs rt) SameRelayEvent where
  start x hx := by
    obtain ⟨hrelay, hsent, hfresh⟩ := hx
    refine ⟨⟨[], fun p => (x.members p).node⟩, ⟨rfl, fun p => ?_⟩, fun _ => rfl, ?_, ?_⟩
    · obtain ⟨hdisk, hproc⟩ := hfresh p
      show (x.members p).node = ⟨.empty, none⟩
      unfold Member.node
      rw [hdisk, hproc]
      rfl
    · simp [hrelay]
    · simp [hsent]
  follow x y i x' hrelated hstep := by
    obtain ⟨hnodes, hpublic, hsent⟩ := hrelated
    cases hstep with
    | @party p e m' hstep hown =>
        obtain ⟨e', hnode, hsame, hreads, hsends⟩ := hstep.node hown
        rw [← hnodes p] at hnode hsends
        refine ⟨.party p e', _, .party hnode ?_, ⟨?_, ?_, ?_⟩, .party hnodes hsame⟩
        · intro penv parsed hline limit ms hms msg hmsg
          obtain ⟨event, hevent, heventsays⟩ := hreads penv parsed hline limit ms hms msg hmsg
          exact hpublic event hevent _ heventsays
        · intro q
          by_cases hq : q = p
          · subst hq
            show Function.update y.nodes q _ q = (Function.update x.members q m' q).node
            rw [Function.update_self, Function.update_self]
          · show Function.update y.nodes p _ q = (Function.update x.members p m' q).node
            rw [Function.update_of_ne hq, Function.update_of_ne hq]
            exact hnodes q
        · intro event hevent m hm
          exact List.mem_append_left _ (hpublic event hevent m hm)
        · intro q m hm
          show m ∈ y.board ++ _
          by_cases hq : q = p
          · subst hq
            replace hm : m ∈ Function.update x.sent q _ q := hm
            rw [Function.update_self] at hm
            rcases List.mem_append.mp hm with hm | hm
            · exact List.mem_append_left _ (hsent q m hm)
            · exact List.mem_append_right _ (hsends m hm)
          · replace hm : m ∈ Function.update x.sent p _ q := hm
            rw [Function.update_of_ne hq] at hm
            exact List.mem_append_left _ (hsent q m hm)
    | @posted p sent event hm hkey hcontent =>
        -- the event says what the party has sent
        have hboard : ∀ m, event.Says rt m → m ∈ y.board := by
          intro m heventsays
          have hdecode := heventsays.1
          rw [hcontent] at hdecode
          rw [decodeContent_of_encoded hint hdecode]
          exact hsent p sent hm
        refine ⟨.others [], _, .others (by simp), ⟨hnodes, ?_, ?_⟩, .posted hnodes⟩
        · intro event' hevent m heventsays
          show m ∈ y.board ++ []
          rw [List.append_nil]
          rcases List.mem_append.mp hevent with hevent | hevent
          · exact hpublic event' hevent m heventsays
          · rw [List.mem_singleton.mp hevent] at heventsays
            exact hboard m heventsays
        · intro q m hm
          exact List.mem_append_left _ (hsent q m hm)
    | @others events houtside =>
        -- what an event of others says has an author without a party's key
        obtain ⟨ms, hms⟩ := @exists_says_of_mem rt events
        refine ⟨.others ms, _, .others fun m hm p => ?_, ⟨hnodes, ?_, ?_⟩, .others hnodes⟩
        · obtain ⟨event, hevent, heventsays⟩ := (hms m).mpr hm
          rw [← heventsays.2]
          exact houtside event hevent p
        · intro event hevent m heventsays
          rcases List.mem_append.mp hevent with hevent | hevent
          · exact List.mem_append_left _ (hpublic event hevent m heventsays)
          · exact List.mem_append_right _ ((hms m).mp ⟨event, hevent, heventsays⟩)
        · intro q m hm
          exact List.mem_append_left _ (hsent q m hm)

end

end HermesPayments
