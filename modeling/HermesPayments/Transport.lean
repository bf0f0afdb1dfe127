import HermesPayments.Envelope
import HermesPayments.Peer
import Mathlib.Data.Finset.Sort
import Mathlib.Data.String.Basic

/-!
# `HermesPayments.Transport` — the Buzz transport boundary

`BuzzTransport.receive` reads a channel and turns its events into peer messages. Every event is untrusted:
`validateReceivedEvent` checks kind, channel, content, expiry and author. Ids of events that were looked at are
remembered, and written to a cursor file when one is configured, so that an event is handed out at most once.

The relay, the clock and the cursor file are the outside: `BuzzEnv` is what they answer during one call.
-/

namespace HermesPayments

open Lib

/-! ## Events -/

/-- A raw event as `buzz messages get` returns it. -/
structure RawBuzzEvent where
  id        : String
  pubkey    : String
  kind      : Int
  content   : String
  tags      : List (List String)
  createdAt : Int
deriving DecidableEq

/-- Extract the channel from the h-tags. -/
def channelFromTags : List (List String) → String
  | [] => ""
  | (name :: channel :: _) :: rest => if name = "h" then channel else channelFromTags rest
  | _ :: rest => channelFromTags rest

/-! ## Validation -/

/-- The check an event failed, with what the message of the exception names. -/
inductive EnvelopeCause where
  | kind (found : Int)
  | channel (found expected : String)
  | content (cause : DecodeCause)
  | expired (expiresAt now : Int)
  | author (role found expected : String)
deriving DecidableEq

/-- Exceptions of `validate_received_event`. -/
inductive EventError where
  | envelopeValidation (cause : EnvelopeCause)
  | typeError
  | recursionError
deriving DecidableEq

/-- Has the message an expiry that has passed? -/
def PaymentMessage.expired (m : PaymentMessage) (now : Int) : Bool :=
  m.expiresAt?.any (fun expiresAt => expiresAt ≠ 0 ∧ now > expiresAt)

/-- The event author must be the domain author of the message. -/
def checkAuthor (event : RawBuzzEvent) (role : String) (identity : AgentIdentity) (message : PaymentMessage) :
    Except EventError PaymentMessage :=
  if event.pubkey ≠ identity.pubkey then
    .error (.envelopeValidation (.author role event.pubkey identity.pubkey))
  else .ok message

/-- Validate a raw event and decode it to a message. -/
def validateReceivedEvent (rt : Runtime) (event : RawBuzzEvent) (expectedChannel : String) (now : Int) :
    Except EventError PaymentMessage :=
  if event.kind ≠ WIRE_KIND then .error (.envelopeValidation (.kind event.kind))
  else if channelFromTags event.tags ≠ expectedChannel then
    .error (.envelopeValidation (.channel (channelFromTags event.tags) expectedChannel))
  else
    match decodeContent rt event.content with
    | .error (.valueError cause) => .error (.envelopeValidation (.content cause))
    | .error .typeError          => .error .typeError
    | .error .recursionError     => .error .recursionError
    | .ok message =>
        if message.expired now then
          .error (.envelopeValidation (.expired (message.expiresAt?.getD 0) now))
        else
          match message with
          | .intent m  => checkAuthor event "intent sender" m.sender message
          | .quote m   => checkAuthor event "quote recipient" m.recipient message
          | .receipt m => checkAuthor event "receipt recipient" m.recipient message

/-! ## The transport -/

/-- Constructor arguments of a transport. -/
structure BuzzConfig where
  channel      : String
  cursorPath   : Option String
  localPubkey  : Option String
  channel_some : channel ≠ ""

/-- What the outside answers during one call: the relay to a query, the clock when an event is validated (at most
    once for each id), and whether the write of the cursor file fails. -/
structure BuzzEnv where
  get       : Option Int → Except String (List RawBuzzEvent)
  clock     : RawBuzzEvent → Int
  saveFails : Bool

/-- Exceptions of `receive`. -/
inductive TransportExc where
  | valueError (message : String)
  /-- The executor's `BuzzTransportError`. -/
  | transportError (message : String)
  /-- What `validate_received_event` raises besides `EnvelopeValidationError`. -/
  | event (e : EventError)
  | osError

/-- What the outside sees of a transport. -/
inductive TransportEffect where
  | get (since : Option Int)
  /-- `os.replace` of the cursor file by one with these event ids. -/
  | cursorSave (eventIds : List String)
deriving DecidableEq

/-- A transport operation, over the event ids seen. -/
abbrev Buzz (α : Type) := Proc TransportEffect TransportExc (Finset String) α

/-- What the cursor file keeps of the ids: the last ten thousand in sorted order. -/
def cursorIds (seen : Finset String) : List String :=
  let ids := seen.sort (· ≤ ·)
  ids.drop (ids.length - 10000)

/-- The text of the cursor file that keeps these ids. -/
def cursorText (eventIds : List String) : String :=
  (Json.obj [("event_ids", .arr (eventIds.map fun id : String => .str id))]).dumps { sortKeys := true }

/-- Exceptions that `_load_cursor` lets out. -/
inductive CursorExc where
  /-- The file holds JSON that is no object. -/
  | attributeError
  | recursionError
  /-- An integer of too many digits: a `ValueError` that is no `JSONDecodeError`. -/
  | valueError
deriving DecidableEq

/-- `data.get("event_ids", [])`, of which the texts are ids. -/
def cursorEventIds : Json → Except CursorExc (Finset String)
  | .obj members =>
      match (Json.obj members).get? "event_ids" with
      | some (.arr ids) => .ok (ids.filterMap Json.str?).toFinset
      | _               => .ok ∅
  | _ => .error .attributeError

/-- `_load_cursor`: the ids a new transport starts from, over the text of its cursor file. A file that is no JSON is
    taken for an empty one. -/
def loadCursor (rt : Runtime) : Option String → Except CursorExc (Finset String)
  | none      => .ok ∅
  | some text =>
      match jsonLoads rt text with
      | .ok data                              => cursorEventIds data
      | .error .recursionError                => .error .recursionError
      | .error (.valueError .tooManyDigits)   => .error .valueError
      | .error _                              => .ok ∅

namespace BuzzTransport

variable (rt : Runtime) (cfg : BuzzConfig) (env : BuzzEnv)

def saveCursor : Buzz Unit := do
  if cfg.cursorPath.isNone then
    return ()
  if env.saveFails then
    Proc.raise .osError
  let seen ← Proc.get
  Proc.emit [.cursorSave (cursorIds seen)]

/-- The message handed out for a validated event. -/
def peerMessage (event : RawBuzzEvent) (message : PaymentMessage) : PeerMessage :=
  ⟨event.id, message, messageAuthor message, event.createdAt⟩

/-- The loop over the fetched events, with the messages collected so far and whether the cursor changed. -/
def receiveLoop (limit : Option Int) : List RawBuzzEvent → List PeerMessage → Bool →
    Buzz (List PeerMessage × Bool)
  | [], messages, changed => pure (messages, changed)
  | event :: rest, messages, changed => do
      let seen ← Proc.get
      if event.id ∈ seen then
        receiveLoop limit rest messages changed
      else
        -- marked before it is validated
        Proc.modify (insert event.id)
        if cfg.localPubkey = some event.pubkey then
          receiveLoop limit rest messages true
        else
          match validateReceivedEvent rt event cfg.channel (env.clock event) with
          | .error (.envelopeValidation _) => receiveLoop limit rest messages true
          | .error e => Proc.raise (.event e)
          | .ok message =>
              let messages := messages ++ [peerMessage event message]
              if limit.any (fun n => n ≤ (messages.length : Int)) then pure (messages, true)
              else receiveLoop limit rest messages true

/-- Fetch, validate, and annotate payment messages from the channel. -/
def receivePeerMessages (since limit : Option Int) : Buzz (List PeerMessage) := do
  if limit.any (fun n => n < 0) then
    Proc.raise (.valueError "limit must be zero or greater")
  if limit = some 0 then
    return []
  Proc.emit [.get since]
  match env.get since with
  | .error m => Proc.raise (.transportError m)
  | .ok rawEvents =>
      let (messages, cursorChanged) ← receiveLoop rt cfg env limit rawEvents [] false
      if cursorChanged then
        saveCursor cfg env
      return messages

/-- Receive validated messages through the generic peer contract. -/
def receive (limit : Option Int) : Buzz (List PeerMessage) := receivePeerMessages rt cfg env none limit

/-- Send any transportable payment message: its envelope is published, and the answer is an event id. -/
def send (publish : String → Except String String) (message : PaymentMessage) : Except TransportExc String :=
  (publish (encodeContent message)).mapError .transportError

end BuzzTransport

/-- The exception where the peer lets it through: nothing above the transport tells its classes apart. -/
def TransportExc.toExc : TransportExc → Exc
  | .valueError m | .transportError m => .transportError m
  | .event _ => .transportError "an event could not be decoded"
  | .osError => .osError

/-- The transport a peer sees during one operation, over the event ids seen. -/
def BuzzTransport.peer (rt : Runtime) (cfg : BuzzConfig) (env : BuzzEnv) (publish : String → Except String String)
    (seen : Finset String) : PeerTransport where
  send    := fun message => (send publish message).mapError TransportExc.toExc
  receive := fun limit => ((receive rt cfg env limit).run seen).result.mapError TransportExc.toExc

end HermesPayments
