import HermesPayments.Policy

/-!
# `HermesPayments.Peer` — a payment endpoint: local policy and a transport

`HermesPeer` composes the policy engine with an injected `PeerTransport`. Who may say what is checked here: a
peer publishes only messages it authored, and accepts only intents addressed to it and quotes and receipts
whose recipient is the intent's.

A transport enters, like an adapter, as the value of its methods during one operation.
-/

namespace HermesPayments

open Lib

/-! ## Messages and the transport -/

/-- A validated payment message plus transport delivery metadata. -/
structure PeerMessage where
  messageId   : String
  message     : PaymentMessage
  author      : AgentIdentity
  publishedAt : Int
deriving DecidableEq

/-- The domain author of a transportable message: senders author intents, recipients the rest. -/
def messageAuthor : PaymentMessage → AgentIdentity
  | .intent m  => m.sender
  | .quote m   => m.recipient
  | .receipt m => m.recipient

/-- What the transport answers during one operation. -/
structure PeerTransport where
  send    : PaymentMessage → Except Exc String
  receive : Option Int → Except Exc (List PeerMessage)

/-- What the outside sees of a peer: its policy engine's effects, and what it publishes and reads. -/
inductive PeerEffect where
  | policy (effect : Effect)
  /-- `transport.send` is called; what it answers comes after. -/
  | send (message : PaymentMessage)
  | receive (limit : Option Int)
deriving DecidableEq

/-- What the outside answers during one peer operation. -/
structure PeerEnv where
  env       : Env
  transport : PeerTransport

/-- A peer operation, over the peer's policy engine. -/
abbrev Peer (α : Type) := Proc PeerEffect Exc PaymentOrchestrator α

/-- Call the policy engine. -/
def Peer.policy {α : Type} (m : Policy α) : Peer α := Proc.zoom id (fun o _ => o) .policy m

/-! ## The endpoint -/

namespace HermesPeer

variable (cfg : Config) (identity : AgentIdentity) (penv : PeerEnv)

def requireLocalAuthor (message : PaymentMessage) : Peer Unit :=
  if (messageAuthor message).pubkey ≠ identity.pubkey then
    Proc.raise (.peerProtocolError "local peer is not the message author")
  else pure ()

def requireLocalRecipient (intent : PaymentIntent) : Peer Unit :=
  if intent.recipient.pubkey ≠ identity.pubkey then
    Proc.raise (.peerProtocolError "message recipient is not local")
  else pure ()

/-- `transport.send`. -/
def transportSend (message : PaymentMessage) : Peer String := do
  Proc.emit [.send message]
  Proc.ofExcept (penv.transport.send message)

/-- Publish a locally-authored transportable payment message. -/
def send (message : PaymentMessage) : Peer String := do
  requireLocalAuthor identity message
  transportSend penv message

/-- Read validated messages without mutating local policy state. -/
def receive (limit : Option Int) : Peer (List PeerMessage) := do
  Proc.emit [.receive limit]
  Proc.ofExcept (penv.transport.receive limit)

/-- Submit a local intent and publish it to the remote peer. -/
def submitIntent (intent : PaymentIntent) : Peer String := do
  requireLocalAuthor identity (.intent intent)
  Peer.policy (submit cfg penv.env intent)
  transportSend penv (.intent intent)

/-- Accept a received intent into the local policy engine. -/
def acceptIntent (intent : PaymentIntent) : Peer Unit := do
  requireLocalRecipient identity intent
  Peer.policy (submit cfg penv.env intent)

/-- Publish a quote authored by this recipient peer. -/
def publishQuote (quote : PaymentQuote) : Peer String := send identity penv (.quote quote)

/-- Pass a received quote into the local sender policy engine. -/
def acceptQuote (quote : PaymentQuote) : Peer Unit := do
  let o ← Proc.get
  if (o.getIntent quote.intentId).any (fun intent => quote.recipient.pubkey ≠ intent.recipient.pubkey) then
    Proc.raise (.peerProtocolError "quote recipient does not match the intent")
  Peer.policy (receiveQuote cfg penv.env quote)

/-- Publish a receipt authored by this recipient peer. -/
def publishReceipt (receipt : PaymentReceipt) : Peer String := send identity penv (.receipt receipt)

/-- Pass a received receipt into the local sender policy engine. -/
def acceptReceipt (receipt : PaymentReceipt) : Peer PaymentReceipt := do
  let o ← Proc.get
  if (o.getIntent receipt.intentId).any (fun intent => receipt.recipient.pubkey ≠ intent.recipient.pubkey) then
    Proc.raise (.peerProtocolError "receipt recipient does not match the intent")
  Peer.policy (receiveReceipt cfg penv.env receipt)

end HermesPeer

/-! ## Operations as data -/

/-- The public operations of a peer, and those of its policy engine. -/
inductive PeerOp where
  | send (message : PaymentMessage)
  | receive (limit : Option Int)
  | submitIntent (intent : PaymentIntent)
  | acceptIntent (intent : PaymentIntent)
  | publishQuote (quote : PaymentQuote)
  | acceptQuote (quote : PaymentQuote)
  | publishReceipt (receipt : PaymentReceipt)
  | acceptReceipt (receipt : PaymentReceipt)
  | policy (op : Op)

/-- What a peer operation returns. -/
inductive PeerAnswer where
  | unit
  | messageId (id : String)
  | messages (messages : List PeerMessage)
  | receipt (receipt : PaymentReceipt)
  | policy (answer : Answer)

/-- Call a peer operation. -/
def peerCall (cfg : Config) (identity : AgentIdentity) (penv : PeerEnv) : PeerOp → Peer PeerAnswer
  | .send message => do return .messageId (← HermesPeer.send identity penv message)
  | .receive limit => do return .messages (← HermesPeer.receive penv limit)
  | .submitIntent intent => do return .messageId (← HermesPeer.submitIntent cfg identity penv intent)
  | .acceptIntent intent => do HermesPeer.acceptIntent cfg identity penv intent; return .unit
  | .publishQuote quote => do return .messageId (← HermesPeer.publishQuote identity penv quote)
  | .acceptQuote quote => do HermesPeer.acceptQuote cfg penv quote; return .unit
  | .publishReceipt receipt => do return .messageId (← HermesPeer.publishReceipt identity penv receipt)
  | .acceptReceipt receipt => do return .receipt (← HermesPeer.acceptReceipt cfg penv receipt)
  | .policy op => do return .policy (← Peer.policy (call cfg penv.env op))

end HermesPayments
