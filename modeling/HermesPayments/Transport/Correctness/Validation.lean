import HermesPayments.Transport.Receive

/-!
# `HermesPayments.Transport.Correctness.Validation` — the wire codec and the validation of events

A message that was encoded is decoded to itself (`wire_round_trip`). What is decoded is untrusted, so validation has a
contract (`Meets`): kind, channel, envelope, expiry and author. It returns exactly the messages that meet it and refuses
every other event with its own exception, unless the event is misjudged (`validates_exactly_iff`): decoding raises an
exception of another class, or the event has no channel and none is expected.
-/

namespace HermesPayments

open Lib

/-! ## The round trip -/

/-- **A message survives the wire**, with its type and its computed id. The interpreter's reader is taken to be faithful:
    it reads integers as themselves, and this text runs into none of its limits. -/
theorem wire_round_trip {rt : Runtime} (hint : rt.ReadsIntegers) (sha256 : Bytes → String) {m : PaymentMessage}
    (hlimit : rt.limit (encodeContent m) = none) : ∃ m', decodeContent rt (encodeContent m) = .ok m' ∧
      kindForModel m' = kindForModel m ∧ m' = m ∧ computeId sha256 m'.modelDump = computeId sha256 m.modelDump :=
  ⟨m, decodeContent_encodeContent hint hlimit, rfl, rfl, rfl⟩

/-- The sample intent, encoded and decoded. -/
theorem wire_round_trip_intent : ∃ m,
    decodeContent Sample.runtime (encodeContent (.intent (Sample.intent "i" 100))) = .ok m ∧
      kindForModel m = .INTENT ∧ m = .intent (Sample.intent "i" 100) ∧
      computeId (fun _ => "id") m.modelDump = computeId (fun _ => "id") (Sample.intent "i" 100).modelDump :=
  wire_round_trip Sample.runtime_readsIntegers (fun _ => "id") rfl

/-! ## The contract -/

/-- The value of the first h tag that has one. -/
def channelTag? (tags : List (List String)) : Option String :=
  tags.findSome? fun tag =>
    match tag with
    | name :: channel :: _ => if name = "h" then some channel else none
    | _ => none

/-- When the message expires; an `expires_at` of zero is no expiry. -/
def PaymentMessage.expiry? (m : PaymentMessage) : Option Int := m.expiresAt?.filter (· ≠ 0)

section

variable (rt : Runtime)

/-- The content is an envelope of this message. -/
def Carries (content : String) (m : PaymentMessage) : Prop :=
  ∃ (envelope : List (PyStr × Json)) (kind : MessageKind) (payload : List (PyStr × Json)),
    jsonLoads rt content = .ok (.obj envelope) ∧ (Json.obj envelope).get? "protocol" = some (.str PROTOCOL_ID) ∧
      (Json.obj envelope).get? "version" = some (.str PROTOCOL_VERSION) ∧
      (Json.obj envelope).get? "type" = some (.str kind.value) ∧
      (Json.obj envelope).get? "payload" = some (.obj payload) ∧ kind.modelValidate rt (.obj payload) = some m

variable (expiry : PaymentMessage → Option Int) (event : RawBuzzEvent) (channel : String) (now : Int)

/-- The event carries the message, on the channel and in time. -/
structure Meets (m : PaymentMessage) : Prop where
  kind      : event.kind = 9
  channel   : channelTag? event.tags = some channel
  content   : Carries rt event.content m
  unexpired : ∀ t, expiry m = some t → now ≤ t
  author    : event.pubkey = (messageAuthor m).pubkey

/-- Validation returns the message that meets the contract, and refuses every other event with its own exception. -/
structure ValidatesExactly : Prop where
  returns : ∀ m, validateReceivedEvent rt event channel now = .ok m ↔ Meets rt expiry event channel now m
  refuses : ∀ e, validateReceivedEvent rt event channel now = .error e → ∃ cause, e = .envelopeValidation cause

/-- The events that validation misjudges. -/
inductive Misjudged : Prop
  /-- The content is nested too deeply, or its type is a list or an object. -/
  | raised (hkind : event.kind = 9) (hchannel : channelFromTags event.tags = channel)
      (hraises : rt.limit event.content = some .recursionError ∨
        ∃ data, jsonLoads rt event.content = .ok data ∧ UnhashableType data) : Misjudged
  /-- No channel is expected, and the event has none. -/
  | untagged {m : PaymentMessage} (hkind : event.kind = 9) (htags : channelTag? event.tags = none) (hempty : channel = "")
      (hcontent : Carries rt event.content m) (hunexpired : ∀ t, m.expiry? = some t → now ≤ t)
      (hauthor : event.pubkey = (messageAuthor m).pubkey) : Misjudged

/-- The event carries a message whose `expires_at` is zero, at a later time. -/
def Undated : Prop :=
  ∃ m, Meets rt PaymentMessage.expiry? event channel now m ∧ m.expiresAt? = some 0 ∧ 0 < now

end

section

variable {rt : Runtime} {event : RawBuzzEvent} {channel : String} {now : Int} {m : PaymentMessage}

/-! ## One check after another -/

theorem channelFromTags_eq (tags : List (List String)) : channelFromTags tags = (channelTag? tags).getD "" := by
  induction tags with
  | nil => rfl
  | cons tag rest ih =>
      match tag with
      | [] | [_] => exact ih
      | name :: value :: _ =>
          rw [channelFromTags, channelTag?, List.findSome?_cons]
          by_cases hname : name = "h"
          · simp [hname]
          · simp only [hname, if_false]
            exact ih

/-- The channel is right where the first h tag names it, or none is expected and no tag names one. -/
theorem channelFromTags_eq_iff {tags : List (List String)} :
    channelFromTags tags = channel ↔ channelTag? tags = some channel ∨ (channelTag? tags = none ∧ channel = "") := by
  rw [channelFromTags_eq]
  cases channelTag? tags with
  | none => simp [eq_comm]
  | some found => simp

theorem PaymentMessage.expired_eq_false_iff : m.expired now = false ↔ ∀ t, m.expiry? = some t → now ≤ t := by
  unfold PaymentMessage.expired PaymentMessage.expiry?
  cases m.expiresAt? with
  | none => simp
  | some t => by_cases ht : t = 0 <;> simp [ht, Option.filter]

theorem Meets.literal_iff : Meets rt PaymentMessage.expiresAt? event channel now m ↔
    Meets rt PaymentMessage.expiry? event channel now m ∧ ¬ (m.expiresAt? = some 0 ∧ 0 < now) := by
  have hexpiry : (∀ t, m.expiresAt? = some t → now ≤ t) ↔
      (∀ t, m.expiry? = some t → now ≤ t) ∧ ¬ (m.expiresAt? = some 0 ∧ 0 < now) := by
    unfold PaymentMessage.expiry?
    cases m.expiresAt? with
    | none => simp
    | some t => by_cases ht : t = 0 <;> simp [ht, Option.filter]
  constructor
  · rintro ⟨hkind, hchannel, hcontent, hunexpired, hauthor⟩
    obtain ⟨hdated, hzero⟩ := hexpiry.mp hunexpired
    exact ⟨⟨hkind, hchannel, hcontent, hdated, hauthor⟩, hzero⟩
  · rintro ⟨⟨hkind, hchannel, hcontent, hdated, hauthor⟩, hzero⟩
    exact ⟨hkind, hchannel, hcontent, hexpiry.mpr ⟨hdated, hzero⟩, hauthor⟩

theorem decodeContent_eq_ok_iff_carries {content : String} :
    decodeContent rt content = .ok m ↔ Carries rt content m := by
  rw [decodeContent_eq_ok_iff]
  constructor
  · rintro ⟨data, kind, payload, hdata, hopen, hvalid⟩
    obtain ⟨envelope, members, rfl, rfl, hprotocol, hversion, htype, hpayload⟩ := openEnvelope_eq_ok_iff.mp hopen
    exact ⟨envelope, kind, members, hdata, hprotocol, hversion, htype, hpayload, hvalid⟩
  · rintro ⟨envelope, kind, members, hdata, hprotocol, hversion, htype, hpayload, hvalid⟩
    exact ⟨_, kind, _, hdata, openEnvelope_eq_ok_iff.mpr
      ⟨envelope, members, rfl, rfl, hprotocol, hversion, htype, hpayload⟩, hvalid⟩

/-- Validation returns a message that meets the contract, or one that came without a channel where none is expected. -/
theorem validateReceivedEvent_returns_iff : validateReceivedEvent rt event channel now = .ok m ↔
    Meets rt PaymentMessage.expiry? event channel now m ∨
      (event.kind = 9 ∧ channelTag? event.tags = none ∧ channel = "" ∧ Carries rt event.content m ∧
        (∀ t, m.expiry? = some t → now ≤ t) ∧ event.pubkey = (messageAuthor m).pubkey) := by
  rw [validateReceivedEvent_eq_ok_iff, channelFromTags_eq_iff, decodeContent_eq_ok_iff_carries,
    PaymentMessage.expired_eq_false_iff]
  constructor
  · rintro ⟨hkind, htag | ⟨hnone, hempty⟩, hcontent, hunexpired, hauthor⟩
    · exact .inl ⟨hkind, htag, hcontent, hunexpired, hauthor⟩
    · exact .inr ⟨hkind, hnone, hempty, hcontent, hunexpired, hauthor⟩
  · rintro (⟨hkind, htag, hcontent, hunexpired, hauthor⟩ | ⟨hkind, hnone, hempty, hcontent, hunexpired, hauthor⟩)
    · exact ⟨hkind, .inl htag, hcontent, hunexpired, hauthor⟩
    · exact ⟨hkind, .inr ⟨hnone, hempty⟩, hcontent, hunexpired, hauthor⟩

/-- An event is misjudged when validation raises an exception of another class, or returns what does not meet the
    contract. -/
theorem misjudged_iff : Misjudged rt event channel now ↔
    (∃ e, validateReceivedEvent rt event channel now = .error e ∧ ∀ cause, e ≠ .envelopeValidation cause) ∨
      ∃ m, validateReceivedEvent rt event channel now = .ok m ∧
        ¬ Meets rt PaymentMessage.expiry? event channel now m := by
  rw [validateReceivedEvent_raises_iff, raises_decodeContent]
  constructor
  · rintro (⟨hkind, hchannel, hraises⟩ | ⟨hkind, hnone, hempty, hcontent, hunexpired, hauthor⟩)
    · exact .inl ⟨hkind, hchannel, hraises⟩
    · refine .inr ⟨_, validateReceivedEvent_returns_iff.mpr
        (.inr ⟨hkind, hnone, hempty, hcontent, hunexpired, hauthor⟩), fun hmeets => ?_⟩
      cases hnone.symm.trans hmeets.channel
  · rintro (⟨hkind, hchannel, hraises⟩ | ⟨m, hreturns, hno⟩)
    · exact .raised hkind hchannel hraises
    · obtain ⟨hkind, hnone, hempty, hcontent, hunexpired, hauthor⟩ :=
        (validateReceivedEvent_returns_iff.mp hreturns).resolve_left hno
      exact .untagged hkind hnone hempty hcontent hunexpired hauthor

/-- Over a contract that asks for no less, validation is exact when nothing is misjudged and what it returns meets it. -/
theorem validatesExactly_iff {expiry : PaymentMessage → Option Int}
    (hmeets : ∀ m, Meets rt expiry event channel now m → Meets rt PaymentMessage.expiry? event channel now m) :
    ValidatesExactly rt expiry event channel now ↔ ¬ Misjudged rt event channel now ∧
      ∀ m, Meets rt PaymentMessage.expiry? event channel now m → Meets rt expiry event channel now m := by
  rw [misjudged_iff]
  constructor
  · rintro ⟨hreturns, hrefuses⟩
    refine ⟨?_, fun m hm => (hreturns m).mp (validateReceivedEvent_returns_iff.mpr (.inl hm))⟩
    rintro (⟨e, herror, hother⟩ | ⟨m, hok, hno⟩)
    · obtain ⟨cause, rfl⟩ := hrefuses e herror
      exact hother cause rfl
    · exact hno (hmeets m ((hreturns m).mp hok))
  · rintro ⟨hjudged, hsame⟩
    constructor
    · intro m
      constructor
      · intro hok
        by_contra hno
        exact hjudged (.inr ⟨m, hok, fun hm => hno (hsame m hm)⟩)
      · intro hm
        exact validateReceivedEvent_returns_iff.mpr (.inl (hmeets m hm))
    · intro e herror
      by_contra hother
      exact hjudged (.inl ⟨e, herror, fun cause he => hother ⟨cause, he⟩⟩)

end

/-- An envelope whose type is an object. -/
def Sample.untyped : RawBuzzEvent :=
  event "untyped" "\x7b\"protocol\":\"hermes-payments\",\"version\":\"1\",\"type\":\x7b\x7d\x7d"

end HermesPayments
