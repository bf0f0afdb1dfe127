import HermesPayments.Exchange.Hub
import HermesPayments.Exchange.Relay
import HermesPayments.Hub.Correctness.ExactlyOnce
import HermesPayments.Transport.Correctness.CrashDelivery

/-!
# `HermesPayments.Exchange.Correctness.Transports` — what the transports have in common

The in-memory hub was written to show that the payment logic does not depend on its transport. `hub_refines` and
`relay_refines` say what that means: processes over a hub, and processes over a public Buzz relay, do nothing that processes
over a board could not do, so that whatever holds of every run of the exchange holds over both.
-/

namespace HermesPayments

open Lib BuzzTransport

section

variable {ι : Type} [DecidableEq ι] {config : ι → ProcessConfig} {sha256 : Bytes → String} {peerId : ι → String}

/-- **A hub is seen as a board**: every run of processes over a hub is a run of the exchange, with the same steps of the same
    nodes. -/
theorem hub_refines {h : List (Event (HubExchange ι) (HubExchangeEvent ι))} {x : HubExchange ι}
    (hrun : HubExchangeRun config sha256 peerId h x) :
    ∃ g y, ExchangeRun config g y ∧ y.nodes = x.nodes ∧ Matched SameHubEvent h g := by
  obtain ⟨g, y, hg, ⟨hnodes, _⟩, hmatched⟩ := hub_simulates.run hrun
  exact ⟨g, y, hg, hnodes, hmatched⟩

/-- **A relay is seen as a board**: every run of processes over a Buzz relay, where others publish what they like under keys of
    their own, and what the parties send comes late, often or never, is a run of the exchange, with the same steps of the
    same nodes. -/
theorem relay_refines {rt : Runtime} (hint : rt.ReadsIntegers) {buzz : ι → BuzzConfig}
    {h : List (Event (RelayExchange ι) (RelayExchangeEvent ι))} {x : RelayExchange ι}
    (hrun : RelayExchangeRun rt buzz config h x) :
    ∃ g y, ExchangeRun config g y ∧ (∀ p, y.nodes p = (x.members p).node) ∧ Matched SameRelayEvent h g := by
  obtain ⟨g, y, hg, ⟨hnodes, _⟩, hmatched⟩ := (relay_simulates hint).run hrun
  exact ⟨g, y, hg, hnodes, hmatched⟩

end

namespace Sample

def peerIds : Party → String
  | .payer     => "alice"
  | .recipient => "bob"

/-- A hub with an inbox for each party, and a process over each fresh state root. -/
def connected : HubExchange Party := ⟨⟨(Dict.empty.set "alice" []).set "bob" [], 0⟩, opened.nodes⟩

/-- A party is told a command. -/
def toldOverHub (x : HubExchange Party) (k : Party × Command) : Event (HubExchange Party) (HubExchangeEvent Party) :=
  match (x.nodes k.1).proc with
  | none =>
      let call : HubCall := .receive ⟨"nobody", party⟩ none
      ⟨x, .others call, ⟨x.hub.apply hexdigest call, x.nodes⟩⟩
  | some s =>
      let endpoint := partyEndpoint parties peerIds k.1
      let penv := { penv with transport := endpoint.peer hexdigest x.hub 0 }
      let out := s.handle (parties k.1) penv (.ok k.2)
      let e : NodeEvent := .handled penv (.ok k.2) out.result
      ⟨x, .party k.1 e, ⟨x.hub.after hexdigest endpoint 0 (e.performed (parties k.1) (x.nodes k.1)),
        Function.update x.nodes k.1 ⟨(x.nodes k.1).world.after out.effects, some out.state⟩⟩⟩

theorem connected_run : ∃ h, HubExchangeRun parties hexdigest peerIds h connected := by
  let empty : HubExchange Party := ⟨connected.hub, unopened.nodes⟩
  have hstart {x : HubExchange Party} {p : Party} (hfresh : x.nodes p = ⟨.empty, none⟩) :
      HubExchangeStep parties hexdigest peerIds x (.party p (.started pass)) ⟨x.hub, started x.nodes p⟩ := by
    have hstep : HubExchangeStep parties hexdigest peerIds x _ _ :=
      .party 0 (started_step hfresh) (by intro _ _ hline; cases hline)
    rwa [performed_started hfresh] at hstep
  have hempty : HubExchangeRun parties hexdigest peerIds [] empty := by
    refine .nil ⟨?_, fun _ => rfl⟩
    intro q inbox hinbox
    simp only [empty, connected, Dict.get?_set] at hinbox
    split at hinbox
    · cases hinbox
      rfl
    · split at hinbox
      · cases hinbox
        rfl
      · cases hinbox
  exact ⟨_, (hempty.snoc (hstart (p := .payer) rfl)).snoc (hstart (p := .recipient) rfl)⟩

theorem toldOverHub_step (x : HubExchange Party) (k : Party × Command) :
    HubExchangeStep parties hexdigest peerIds x (toldOverHub x k).seen (toldOverHub x k).after := by
  unfold toldOverHub
  split
  · refine .others _ ?_
    intro _ _ _ hcall
    cases hcall
  · next s hproc =>
      have hnode : NodeStep (parties k.1) _ _ _ := .handled (x.nodes k.1).world s
        { penv with transport := (partyEndpoint parties peerIds k.1).peer hexdigest x.hub 0 } (.ok k.2)
      rw [← hproc] at hnode
      refine .party 0 hnode ?_
      intro penv parsed hline
      cases hline
      rfl

/-- The payer submits, and the recipient takes the intent out of its inbox. -/
def delivered : HubExchange Party :=
  playState toldOverHub connected [(.payer, .submitIntent order), (.recipient, .receive none)]

end Sample

theorem hub_refines_delivery : (∃ m, (Sample.delivered.nodes .recipient).proc.map (fun s => s.inbox.messages.map PeerMessage.message) = some [m]) ∧
    ∃ h g y, ExchangeRun Sample.parties g y ∧ y.nodes = Sample.delivered.nodes ∧ Matched SameHubEvent h g := by
  have hbefore (x : HubExchange Sample.Party) (k : Sample.Party × Command) : (Sample.toldOverHub x k).before = x := by
    unfold Sample.toldOverHub
    split
    · rfl
    · rfl
  obtain ⟨h, hrun⟩ := Sample.connected_run
  refine ⟨⟨.intent Sample.order, by decide +kernel⟩, _, hub_refines (run_playEvents hbefore Sample.toldOverHub_step hrun _)⟩

namespace Sample

def offline : Member := ⟨⟨.empty, none⟩, none, 0⟩

def online : Member := ⟨⟨booted.1, none⟩, some (booted.2, cursorSeen none), 0⟩

/-- Every query is answered with these events. -/
def answered (events : List RawBuzzEvent) : EndpointEnv := ⟨penv, ⟨fun _ => .ok events, fun _ => 0, false⟩, fun _ => .ok "sent"⟩

/-- A command of a party that has just been started. -/
def toldOverRelay (p : Party) (events : List RawBuzzEvent) (command : Command) :
    Outcome EndpointEffect Exc (ProcessState × Finset String) String :=
  handleOver runtime buzz (parties p) (answered events) (booted.2, cursorSeen none) (.ok command)

/-- The party after it. -/
def toldMember (p : Party) (events : List RawBuzzEvent) (command : Command) : Member :=
  ⟨online.disk.after (toldOverRelay p events command).effects, some (toldOverRelay p events command).state, 0⟩

theorem told_endpoint (p : Party) (events : List RawBuzzEvent) (command : Command) {relay : List RawBuzzEvent}
    (hevents : ∀ e ∈ events, e ∈ relay) :
    EndpointStep runtime buzz (parties p) EndpointEnv.ReadsAmong (online.endpoint relay)
      (.handled (answered events) (.ok command) (toldOverRelay p events command).result)
      ((toldMember p events command).endpoint relay) := by
  refine .handled (answered events) _ ?_ ⟨le_refl 0, fun _ => ⟨le_refl 0, le_refl 0⟩⟩
  rintro since answer ⟨⟩
  exact hevents

/-- The payer's event, and one that claims to be the payer's, under another key. -/
def genuine : RawBuzzEvent := event "genuine" (encodeContent (.intent order))

def forged : RawBuzzEvent :=
  { genuine with id := "forged", pubkey := String.ofList (List.replicate 64 'c') }

/-- What the recipient is answered: both, the later one first. -/
def answer : List RawBuzzEvent := [genuine, forged]

/-- The payer submits; the forged event comes before its own; and the recipient reads both. -/
theorem crowded_run : ∃ h x, RelayExchangeRun runtime (fun _ => buzz) parties h x ∧ x.relay = [forged, genuine] ∧
    x.members .recipient = toldMember .recipient answer (.receive none) := by
  have hempty : RelayExchangeRun runtime (fun _ => buzz) parties [] ⟨[], fun _ => [], fun _ => offline⟩ :=
    .nil ⟨rfl, fun _ => rfl, fun _ => ⟨rfl, rfl⟩⟩
  have hup (p : Party) : EndpointStep runtime buzz (parties p) EndpointEnv.ReadsAmong (offline.endpoint []) (.started pass)
      (online.endpoint []) := by
    cases p with
    | payer => exact .started pass rfl rfl
    | recipient => exact .started pass rfl rfl
  have hforeign : ∀ event ∈ [forged], ∀ p, event.pubkey ≠ (parties p).identity.pubkey := by
    intro event hevent p
    obtain rfl : event = forged := List.mem_singleton.mp hevent
    cases p with
    | payer => decide
    | recipient => decide
  have hpayer := hempty.snoc (.party (hup .payer) fun _ => EndpointEvent.noConfusion)
  have hrecipient := hpayer.snoc (.party (hup .recipient) fun _ => EndpointEvent.noConfusion)
  have hsubmitted := hrecipient.snoc (.party (told_endpoint .payer [] (.submitIntent order) (List.forall_mem_nil _))
    fun _ => EndpointEvent.noConfusion)
  have hforged := hsubmitted.snoc (.others hforeign)
  have hposted := hforged.snoc (@RelayExchangeStep.posted _ _ _ _ _ _ Party.payer (.intent order) genuine (by decide) rfl rfl)
  have hread := hposted.snoc (.party (told_endpoint .recipient answer (.receive none) (by simp [answer]))
    fun _ => EndpointEvent.noConfusion)
  exact ⟨_, _, hread, rfl, rfl⟩

theorem decode_genuine : decodeContent runtime genuine.content = .ok (.intent order) :=
  decodeContent_encodeContent runtime_readsIntegers rfl

theorem handout_genuine : handout runtime buzz (answered answer).buzz genuine =
    some (peerMessage genuine (.intent order)) := by
  refine (handout_eq_some_iff _ _ _).mpr ⟨nofun, _, ?_, rfl⟩
  exact validateReceivedEvent_eq_ok_iff.mpr ⟨rfl, rfl, decode_genuine, rfl, rfl⟩

/-- The content of the forged event names another key. -/
theorem handout_forged : handout runtime buzz (answered answer).buzz forged = none := by
  refine Option.eq_none_iff_forall_ne_some.mpr fun m hm => ?_
  obtain ⟨_, message, hvalid, _⟩ := (handout_eq_some_iff _ _ _).mp hm
  obtain ⟨_, _, hdecode, _, hauthor⟩ := validateReceivedEvent_eq_ok_iff.mp hvalid
  obtain rfl : PaymentMessage.intent order = message := Except.ok.inj (decode_genuine.symm.trans hdecode)
  exact absurd hauthor (by decide)

/-- The recipient has the payer's message, once. -/
theorem inbox_told : (toldOverRelay .recipient answer (.receive none)).state.1.inbox.messages =
    [peerMessage genuine (.intent order)] := by
  obtain ⟨result, s', hinbox, hrun⟩ := handleOver_receive runtime buzz (parties .recipient) (answered answer) booted.2
    (cursorSeen none) none
  have hscan : reached runtime buzz (answered answer).buzz (quota none) answer (cursorSeen none) = answer := rfl
  have hread := @run_receive runtime buzz (answered answer).buzz none answer (cursorSeen none) rfl rfl (by decide) nofun
    fun e he hbad => by
      have hcontent : e.content = genuine.content := by
        rcases List.mem_pair.mp (hscan ▸ he) with rfl | rfl
        · rfl
        · rfl
      have hraises := ((poisons_iff _ _ _).mp hbad).2.2.2
      rw [hcontent, decode_genuine] at hraises
      exact not_raises_ok _ hraises
  have hhanded : answer.filterMap (handout runtime buzz (answered answer).buzz) = [peerMessage genuine (.intent order)] := by
    show List.filterMap (handout runtime buzz (answered answer).buzz) [genuine, forged] = _
    rw [List.filterMap_cons_some handout_genuine, List.filterMap_cons_none handout_forged, List.filterMap_nil]
  simp only [hscan, hhanded] at hread
  rw [toldOverRelay, hrun]
  show s'.inbox.messages = _
  rw [hinbox, hread]
  rfl

end Sample

/-- The recipient takes the payer's message, and does not take what came under another key. -/
theorem relay_refines_forgery : ∃ h x s, RelayExchangeRun Sample.runtime (fun _ => Sample.buzz) Sample.parties h x ∧
    Sample.forged ∈ x.relay ∧ (x.members .recipient).node.proc = some s ∧
      s.inbox.messages = [peerMessage Sample.genuine (.intent Sample.order)] ∧
    ∃ g y, ExchangeRun Sample.parties g y ∧ (∀ p, y.nodes p = (x.members p).node) ∧ Matched SameRelayEvent h g := by
  obtain ⟨h, x, hrun, hrelay, hmember⟩ := Sample.crowded_run
  refine ⟨h, x, _, hrun, ?_, ?_, Sample.inbox_told, relay_refines Sample.runtime_readsIntegers hrun⟩
  · rw [hrelay]
    exact List.mem_cons_self
  · rw [hmember]
    rfl

end HermesPayments
