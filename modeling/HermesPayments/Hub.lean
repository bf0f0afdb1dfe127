import HermesPayments.Lib.Utf8
import HermesPayments.Peer

/-!
# `HermesPayments.Hub` — the in-memory transport hub

`InMemoryTransportHub` is the transport without a relay: one inbox for each connected peer, and a counter that makes
the ids of its messages. What a peer sends is appended to the inbox of every other peer; `receive` takes messages out
of the peer's own inbox, from the front.
-/

namespace HermesPayments

open Lib

/-! ## The hub -/

/-- What the hub raises. -/
inductive HubExc where
  | peerTransportError (message : String)
  | valueError (message : String)
  | keyError (key : String)
deriving DecidableEq

structure InMemoryTransportHub where
  inboxes : Dict String (List PeerMessage)
  counter : Nat

/-- One endpoint of a hub. -/
structure InMemoryPeerTransport where
  peerId   : String
  identity : AgentIdentity
deriving DecidableEq

/-- What a caller hands to `send`. -/
inductive Outgoing where
  | message (m : PaymentMessage)
  | approval (m : PaymentApproval)
  /-- An object of any other type. -/
  | other (typeName : String)
deriving DecidableEq

/-- The transportable message, whose author is its `messageAuthor`; `message_author` raises for anything else. -/
def Outgoing.transportable : Outgoing → Except HubExc PaymentMessage
  | .message m      => .ok m
  | .approval _     => .error (.peerTransportError "PaymentApproval is local-only and cannot cross a peer transport")
  | .other typeName => .error (.peerTransportError s!"unsupported peer message type: {typeName}")

/-- A computation of the hub. -/
abbrev HubProc (α : Type) := Proc Empty HubExc InMemoryTransportHub α

namespace InMemoryTransportHub

/-- `InMemoryTransportHub()`. -/
def new : InMemoryTransportHub := ⟨Dict.empty, 0⟩

/-- What a message id is the hash of. -/
def messageIdText (sha256 : Bytes → String) (peerId : String) (counter : Nat) (m : PaymentMessage) : String :=
  peerId ++ ":" ++ toString counter ++ ":" ++ computeId sha256 m.modelDump

/-- The loop of `_send` over the inboxes. -/
def deliver (hub : InMemoryTransportHub) (peerId : String) (delivered : PeerMessage) : InMemoryTransportHub :=
  { hub with inboxes := hub.inboxes.mapWithKey (fun recipientId inbox =>
      if recipientId ≠ peerId then inbox ++ [delivered] else inbox) }

/-- Create one independent endpoint attached to this hub. -/
def connect (peerId : String) (identity : AgentIdentity) : HubProc InMemoryPeerTransport := do
  let hub ← Proc.get
  if peerId = "" then Proc.raise (.valueError "peer_id is required")
  if peerId ∈ hub.inboxes.keys then Proc.raise (.valueError s!"peer_id already connected: {peerId}")
  Proc.modify (fun hub => { hub with inboxes := hub.inboxes.set peerId [] })
  return ⟨peerId, identity⟩

/-- `endpoint.send(message)`, with the reading of the clock; the delivered copy is the same in every inbox. -/
def send (sha256 : Bytes → String) (endpoint : InMemoryPeerTransport) (message : Outgoing) (now : Int) :
    HubProc String := do
  let m ← Proc.ofExcept message.transportable
  if (messageAuthor m).pubkey ≠ endpoint.identity.pubkey then
    Proc.raise (.peerTransportError "local peer is not the message author")
  let hub ← Proc.get
  let messageId := sha256 (Utf8.encode (messageIdText sha256 endpoint.peerId hub.counter m))
  Proc.modify (fun hub => { hub with counter := hub.counter + 1 })
  Proc.modify (·.deliver endpoint.peerId ⟨messageId, m, messageAuthor m, now⟩)
  return messageId

/-- `inbox if limit is None else inbox[:limit]`. -/
def selected (limit : Option Int) (inbox : List PeerMessage) : List PeerMessage :=
  match limit with
  | none   => inbox
  | some n => inbox.take n.toNat

/-- `endpoint.receive(limit=limit)`. -/
def receive (endpoint : InMemoryPeerTransport) (limit : Option Int) : HubProc (List PeerMessage) := do
  if limit.any (· < 0) then Proc.raise (.valueError "limit must be zero or greater")
  let hub ← Proc.get
  match hub.inboxes.get? endpoint.peerId with
  | none => Proc.raise (.keyError endpoint.peerId)
  | some inbox =>
    if limit = some 0 then return []
    let selected := selected limit inbox
    Proc.modify (fun hub => { hub with inboxes := hub.inboxes.set endpoint.peerId (inbox.drop selected.length) })
    return selected

end InMemoryTransportHub

/-! ## Calls as data -/

inductive HubCall where
  | connect (peerId : String) (identity : AgentIdentity)
  | send (endpoint : InMemoryPeerTransport) (message : Outgoing) (now : Int)
  | receive (endpoint : InMemoryPeerTransport) (limit : Option Int)

inductive HubAnswer where
  | endpoint (endpoint : InMemoryPeerTransport)
  | messageId (id : String)
  | messages (messages : List PeerMessage)

/-- Make a call. -/
def hubCall (sha256 : Bytes → String) : HubCall → HubProc HubAnswer
  | .connect peerId identity => do return .endpoint (← InMemoryTransportHub.connect peerId identity)
  | .send endpoint message now => do return .messageId (← InMemoryTransportHub.send sha256 endpoint message now)
  | .receive endpoint limit => do return .messages (← InMemoryTransportHub.receive endpoint limit)

/-! ## What a call does -/

/-- The message is transportable, and authored by this identity. -/
def Outgoing.AuthoredBy (message : Outgoing) (identity : AgentIdentity) : Prop :=
  ∃ m, message = .message m ∧ (messageAuthor m).pubkey = identity.pubkey

namespace InMemoryTransportHub

variable (sha256 : Bytes → String) (hub : InMemoryTransportHub)

/-- `connect` raises, or opens an empty inbox for a peer that has none. -/
theorem run_connect (peerId : String) (identity : AgentIdentity) :
    (∃ x, (hubCall sha256 (.connect peerId identity)).run hub = ⟨.error x, hub, []⟩) ∨
    (hub.inboxes.get? peerId = none ∧ (hubCall sha256 (.connect peerId identity)).run hub
      = ⟨.ok (.endpoint ⟨peerId, identity⟩), { hub with inboxes := hub.inboxes.set peerId [] }, []⟩) := by
  by_cases hempty : peerId = ""
  · left
    exact ⟨.valueError "peer_id is required", by simp [hubCall, connect, Proc.run_bind, hempty]⟩
  · by_cases hpresent : peerId ∈ hub.inboxes.keys
    · left
      exact ⟨.valueError s!"peer_id already connected: {peerId}",
        by simp [hubCall, connect, Proc.run_bind, hempty, hpresent]⟩
    · right
      refine ⟨hub.inboxes.get?_eq_none_iff.mpr hpresent, ?_⟩
      simp [hubCall, connect, Proc.run_bind, hempty, hpresent]

/-- `send` raises for what the endpoint has not authored, and delivers the rest under a numbered id. -/
theorem run_send (endpoint : InMemoryPeerTransport) (message : Outgoing) (now : Int) :
    (¬ message.AuthoredBy endpoint.identity ∧
      ∃ x, (hubCall sha256 (.send endpoint message now)).run hub = ⟨.error x, hub, []⟩) ∨
    (message.AuthoredBy endpoint.identity ∧ ∃ m id, message = .message m ∧
      id = sha256 (Utf8.encode (messageIdText sha256 endpoint.peerId hub.counter m)) ∧
      (hubCall sha256 (.send endpoint message now)).run hub = ⟨.ok (.messageId id),
        ({ hub with counter := hub.counter + 1 } : InMemoryTransportHub).deliver endpoint.peerId
          ⟨id, m, messageAuthor m, now⟩, []⟩) := by
  cases message with
  | message m =>
      by_cases hauthor : (messageAuthor m).pubkey = endpoint.identity.pubkey
      · right
        refine ⟨⟨m, rfl, hauthor⟩, m, _, rfl, rfl, ?_⟩
        simp [hubCall, send, Outgoing.transportable, Proc.run_bind, hauthor]
      · left
        refine ⟨by simp [Outgoing.AuthoredBy, hauthor], .peerTransportError "local peer is not the message author", ?_⟩
        simp [hubCall, send, Outgoing.transportable, Proc.run_bind, hauthor]
  | approval m =>
      left
      exact ⟨by simp [Outgoing.AuthoredBy], _, rfl⟩
  | other typeName =>
      left
      exact ⟨by simp [Outgoing.AuthoredBy], _, rfl⟩

theorem isPrefix_selected (limit : Option Int) (inbox : List PeerMessage) : selected limit inbox <+: inbox := by
  cases limit with
  | none   => exact List.prefix_refl _
  | some n => exact List.take_prefix _ _

/-- `receive` raises, or takes messages off the front of the peer's own inbox. -/
theorem run_receive (endpoint : InMemoryPeerTransport) (limit : Option Int) :
    (∃ x, (hubCall sha256 (.receive endpoint limit)).run hub = ⟨.error x, hub, []⟩) ∨
    (∃ selected rest hub', hub.inboxes.get? endpoint.peerId = some (selected ++ rest) ∧
      (∀ p, hub'.inboxes.get? p = if p = endpoint.peerId then some rest else hub.inboxes.get? p) ∧
      hub'.counter = hub.counter ∧
      (hubCall sha256 (.receive endpoint limit)).run hub = ⟨.ok (.messages selected), hub', []⟩) := by
  by_cases hneg : limit.any (· < 0) = true
  · left
    exact ⟨.valueError "limit must be zero or greater", by simp [hubCall, receive, Proc.run_bind, hneg]⟩
  · cases hinbox : hub.inboxes.get? endpoint.peerId with
    | none =>
        left
        exact ⟨.keyError endpoint.peerId, by simp [hubCall, receive, Proc.run_bind, hneg, hinbox]⟩
    | some inbox =>
        right
        by_cases hzero : limit = some 0
        · refine ⟨[], inbox, hub, rfl, ?_, rfl, ?_⟩
          · intro p
            by_cases hp : p = endpoint.peerId <;> simp [hp, hinbox]
          · simp [hubCall, receive, Proc.run_bind, hinbox, hzero]
        · have hsplit : selected limit inbox ++ inbox.drop (selected limit inbox).length = inbox :=
            List.prefix_iff_eq_append.mp (isPrefix_selected limit inbox)
          refine ⟨selected limit inbox, inbox.drop (selected limit inbox).length,
            { hub with inboxes := hub.inboxes.set endpoint.peerId (inbox.drop (selected limit inbox).length) },
            by rw [hsplit], ?_, rfl, ?_⟩
          · intro p
            exact hub.inboxes.get?_set _ _ _
          · simp [hubCall, receive, Proc.run_bind, hneg, hinbox, hzero]

end InMemoryTransportHub
end HermesPayments
