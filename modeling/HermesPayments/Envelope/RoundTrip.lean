import HermesPayments.Envelope.Decode

/-!
# `HermesPayments.Envelope.RoundTrip` — a message survives the wire

What `encodeContent` writes, `decodeContent` reads back as the same message (`decodeContent_encodeContent`): each
dump validates to the message it is a dump of, and an object written in its own order reads back as itself.
-/

namespace HermesPayments

open Lib

/-- The schema library reads a JSON integer as itself. -/
def Runtime.ReadsIntegers (rt : Runtime) : Prop := ∀ n, rt.toInt (.int n) = some n

section

variable {rt : Runtime}

/-! ## Dumps validate

… also after a change that carries their members over, as writing and reading back does. -/

section

variable {f : Json → Json} (hf : Json.Carries f)

include hf

theorem AgentIdentity.modelValidate_carried (a : AgentIdentity) : AgentIdentity.modelValidate (f a.modelDump) = some a := by
  obtain ⟨pubkey, relayUrl, hlen⟩ := a
  cases relayUrl <;>
    simp [AgentIdentity.modelValidate, AgentIdentity.modelDump, strField, optionalStrField, hf.get?_members, List.lookup_cons, hf.str, hlen]

theorem RailReceiveInstruction.modelValidate_carried (r : RailReceiveInstruction) :
    RailReceiveInstruction.modelValidate (f r.modelDump) = some r := by
  obtain ⟨rail, invoice⟩ := r
  cases rail
  cases invoice <;>
    simp [RailReceiveInstruction.modelValidate, RailReceiveInstruction.modelDump, strField, optionalStrField,
      hf.get?_members, List.lookup_cons, hf.str, Rail.ofValue?]

end

@[simp] theorem AgentIdentity.modelValidate_modelDump (a : AgentIdentity) :
    AgentIdentity.modelValidate a.modelDump = some a := AgentIdentity.modelValidate_carried Json.carries_id a

@[simp] theorem RailReceiveInstruction.modelValidate_modelDump (r : RailReceiveInstruction) :
    RailReceiveInstruction.modelValidate r.modelDump = some r :=
  RailReceiveInstruction.modelValidate_carried Json.carries_id r

theorem payload_intent (m : PaymentIntent) : (PaymentMessage.intent m).payload =
    .obj [("protocol_version", .str protocolVersion), ("id", .str m.id), ("idempotency_key", .str m.idempotencyKey),
      ("sender", m.sender.modelDump), ("recipient", m.recipient.modelDump), ("amount_sat", .int m.amountSat),
      ("purpose", .str m.purpose), ("max_fee_sat", .int m.maxFeeSat), ("expires_at", .int m.expiresAt),
      ("created_at", .int m.createdAt)] := rfl

theorem payload_quote (m : PaymentQuote) : (PaymentMessage.quote m).payload =
    .obj [("protocol_version", .str protocolVersion), ("id", .str m.id), ("intent_id", .str m.intentId),
      ("quote_id", .str m.quoteId), ("recipient", m.recipient.modelDump),
      ("receive_instruction", m.receiveInstruction.modelDump), ("fee_sat", .int m.feeSat),
      ("fee_constraint", .str m.feeConstraint.value), ("expires_at", .int m.expiresAt),
      ("created_at", .int m.createdAt)] := rfl

theorem payload_receipt (m : PaymentReceipt) : (PaymentMessage.receipt m).payload =
    .obj [("protocol_version", .str protocolVersion), ("id", .str m.id), ("intent_id", .str m.intentId),
      ("quote_id", .str m.quoteId), ("recipient", m.recipient.modelDump), ("settlement_ref", .str m.settlementRef),
      ("amount_sat", .int m.amountSat), ("fee_sat", .int m.feeSat), ("rail", .str m.rail.value),
      ("settled_at", .int m.settledAt), ("created_at", .int m.createdAt)] := rfl

theorem Rail.ofValue?_value (rail : Rail) : Rail.ofValue? rail.value = some rail := by
  cases rail
  rfl

section

variable {f : Json → Json} (hf : Json.Carries f) (hint : rt.ReadsIntegers)

include hf hint

theorem PaymentIntent.modelValidate_carried (m : PaymentIntent) :
    PaymentIntent.modelValidate rt (f (PaymentMessage.intent m).payload) = some m := by
  have hkey := m.idempotencyKey_length
  have hpurpose := m.purpose_length
  rw [payload_intent]
  simp [PaymentIntent.modelValidate, versionField, strField, intField, hf.get?, hf.str, hf.int, List.lookup_cons, AgentIdentity.modelValidate_carried hf, hint _, hkey, hpurpose, m.amountSat_pos, m.maxFeeSat_nonneg]

theorem PaymentQuote.modelValidate_carried (m : PaymentQuote) :
    PaymentQuote.modelValidate rt (f (PaymentMessage.quote m).payload) = some m := by
  have hid := m.quoteId_length
  have hconstraint : feeConstraintField (f (PaymentMessage.quote m).payload) = some m.feeConstraint := by
    rw [payload_quote]
    cases m.feeConstraint <;>
      simp [feeConstraintField, hf.get?, hf.str, List.lookup_cons, FeeConstraint.value]
  unfold PaymentQuote.modelValidate
  rw [hconstraint, payload_quote]
  simp [versionField, strField, intField, hf.get?, hf.str, hf.int, List.lookup_cons,
    AgentIdentity.modelValidate_carried hf, RailReceiveInstruction.modelValidate_carried hf, hint _, hid, m.feeSat_nonneg]

theorem PaymentReceipt.modelValidate_carried (m : PaymentReceipt) :
    PaymentReceipt.modelValidate rt (f (PaymentMessage.receipt m).payload) = some m := by
  rw [payload_receipt]
  simp [PaymentReceipt.modelValidate, PaymentReceipt.validate?, versionField, strField, intField, hf.get?, hf.str, hf.int, List.lookup_cons, AgentIdentity.modelValidate_carried hf, hint _, Rail.ofValue?_value, m.amountSat_pos,
    m.feeSat_nonneg]

/-- **Every dump validates** to the message it is a dump of. -/
theorem modelValidate_carried (m : PaymentMessage) : (kindForModel m).modelValidate rt (f m.payload) = some m := by
  cases m with
  | intent m => exact Option.map_eq_some_iff.mpr ⟨m, PaymentIntent.modelValidate_carried hf hint m, rfl⟩
  | quote m => exact Option.map_eq_some_iff.mpr ⟨m, PaymentQuote.modelValidate_carried hf hint m, rfl⟩
  | receipt m => exact Option.map_eq_some_iff.mpr ⟨m, PaymentReceipt.modelValidate_carried hf hint m, rfl⟩

end

theorem modelValidate_payload (hint : rt.ReadsIntegers) (m : PaymentMessage) :
    (kindForModel m).modelValidate rt m.payload = some m := modelValidate_carried Json.carries_id hint m

/-! ## Dumps read back as themselves -/

section

variable (readFloat : String → PyFloat)

@[simp] theorem AgentIdentity.reread_modelDump (a : AgentIdentity) :
    Json.reread readFloat wireOptions a.modelDump = a.modelDump := by
  refine Json.reread_members_self _ _ rfl (by simp) fun k v h => ?_
  obtain ⟨pubkey, _ | url, hlen⟩ := a <;> simp at h
  · obtain ⟨_, rfl⟩ := h
    rw [Json.reread]
  · rcases h with ⟨_, rfl⟩ | ⟨_, rfl⟩ <;> rw [Json.reread]

@[simp] theorem RailReceiveInstruction.reread_modelDump (r : RailReceiveInstruction) :
    Json.reread readFloat wireOptions r.modelDump = r.modelDump := by
  refine Json.reread_members_self _ _ rfl (by simp) fun k v h => ?_
  obtain ⟨rail, _ | invoice⟩ := r <;> simp at h
  · obtain ⟨_, rfl⟩ := h
    rw [Json.reread]
  · rcases h with ⟨_, rfl⟩ | ⟨_, rfl⟩ <;> rw [Json.reread]

theorem PaymentMessage.reread_payload (m : PaymentMessage) :
    Json.reread readFloat wireOptions m.payload = m.payload := by
  cases m with
  | intent m =>
      rw [payload_intent]
      refine Json.reread_obj_self _ _ rfl (by simp) ?_
      simp [Json.reread]
  | quote m =>
      rw [payload_quote]
      refine Json.reread_obj_self _ _ rfl (by simp) ?_
      simp [Json.reread]
  | receipt m =>
      rw [payload_receipt]
      refine Json.reread_obj_self _ _ rfl (by simp) ?_
      simp [Json.reread]

end

/-! ## The round trip -/

theorem wireOptions_standard : wireOptions.Standard := ⟨⟨[], rfl, nofun⟩, ⟨[], rfl, nofun⟩⟩

/-- The envelope a message travels in. -/
def PaymentMessage.envelope (m : PaymentMessage) : Json :=
  .obj [("protocol", .str PROTOCOL_ID), ("version", .str PROTOCOL_VERSION), ("type", .str (kindForModel m).value),
    ("payload", m.payload)]

theorem jsonLoads_encodeContent {m : PaymentMessage} (hlimit : rt.limit (encodeContent m) = none) :
    jsonLoads rt (encodeContent m) = .ok m.envelope := by
  have hself : Json.reread rt.readFloat wireOptions m.envelope = m.envelope := by
    refine Json.reread_obj_self _ _ rfl (by simp) ?_
    simp [Json.reread, PaymentMessage.reread_payload]
  have hloads : Json.loads rt.readFloat (encodeContent m) = some m.envelope :=
    (Json.loads_dumps wireOptions_standard m.envelope).trans (congrArg some hself)
  unfold jsonLoads
  rw [hlimit, hloads]
  rfl

theorem openEnvelope_envelope (m : PaymentMessage) : openEnvelope m.envelope = .ok (kindForModel m, m.payload) := by
  cases m <;> rfl

/-- **A message survives the wire**, as long as its text is within the limits of the interpreter. -/
theorem decodeContent_encodeContent (hint : rt.ReadsIntegers) {m : PaymentMessage}
    (hlimit : rt.limit (encodeContent m) = none) : decodeContent rt (encodeContent m) = .ok m :=
  decodeContent_eq_ok_iff.mpr ⟨m.envelope, kindForModel m, m.payload, jsonLoads_encodeContent hlimit,
    openEnvelope_envelope m, modelValidate_payload hint m⟩

end

namespace Sample

/-- An integer field takes a JSON integer, and nothing runs into a limit. -/
def runtime : Runtime where
  readFloat := fun _ => .nan
  toInt     := fun j => match j with
    | .int n => some n
    | _      => none
  limit     := fun _ => none

theorem runtime_readsIntegers : runtime.ReadsIntegers := fun _ => rfl

end Sample

end HermesPayments
