import HermesPayments.Envelope
import HermesPayments.Lib.Raise

/-!
# `HermesPayments.Envelope.Decode` — what decoding accepts, and what it raises

A content is decoded when it opens as an envelope whose payload validates (`decodeContent_eq_ok_iff`), and the
message carries the id its payload claims (`MessageKind.modelValidate_id`). A content that is refused otherwise than
by a `ValueError` is one that the JSON reader cannot finish, or an envelope whose type is a list or an object
(`raises_decodeContent`).
-/

namespace HermesPayments

open Lib

section

variable {rt : Runtime} {content : String}

/-! ## Accepted contents -/

theorem decodeContent_eq_ok_iff {m : PaymentMessage} : decodeContent rt content = .ok m ↔
    ∃ data kind payload, jsonLoads rt content = .ok data ∧ openEnvelope data = .ok (kind, payload) ∧
      kind.modelValidate rt payload = some m := by
  unfold decodeContent
  constructor
  · intro h
    cases hdata : jsonLoads rt content with
    | error e => rw [hdata] at h; cases h
    | ok data =>
        rw [hdata] at h
        cases hopen : openEnvelope data with
        | error e => simp only [bind, Except.bind, hopen] at h; cases h
        | ok opened =>
            obtain ⟨kind, payload⟩ := opened
            simp only [bind, Except.bind, hopen] at h
            cases hvalid : kind.modelValidate rt payload with
            | none => rw [hvalid] at h; cases h
            | some m' =>
                rw [hvalid] at h
                cases h
                exact ⟨data, kind, payload, rfl, hopen, hvalid⟩
  · rintro ⟨data, kind, payload, hdata, hopen, hvalid⟩
    simp only [bind, Except.bind, hdata, hopen, hvalid, Option.elim]

theorem modelMapGet_eq_some_iff {type : Json} {kind : MessageKind} :
    modelMapGet type = .ok (some kind) ↔ type = .str kind.value := by
  cases type with
  | str s =>
      have hfind : [MessageKind.INTENT, .QUOTE, .RECEIPT].find? (fun kind => kind.value = s) = some kind ↔
          s = kind.value := by
        constructor
        · intro h
          have hvalue := List.find?_some h
          simpa [eq_comm] using hvalue
        · rintro rfl
          cases kind <;> decide
      simp only [modelMapGet, Except.ok.injEq, Json.str.injEq]
      exact hfind
  | null | bool _ | int _ | float _ | arr _ | obj _ => simp [modelMapGet]

/-- An envelope opens when its protocol, version and type are known and its payload is an object. -/
theorem openEnvelope_eq_ok_iff {data payload : Json} {kind : MessageKind} :
    openEnvelope data = .ok (kind, payload) ↔ ∃ envelope members, data = .obj envelope ∧ payload = .obj members ∧
      data.get? "protocol" = some (.str PROTOCOL_ID) ∧ data.get? "version" = some (.str PROTOCOL_VERSION) ∧
      data.get? "type" = some (.str kind.value) ∧ data.get? "payload" = some (.obj members) := by
  have hstr {key value : String} :
      (data.get? key).bind Json.str? = some value ↔ data.get? key = some (.str value) := by
    rw [Option.bind_eq_some_iff]
    constructor
    · rintro ⟨j, hj, hvalue⟩
      rw [hj, Json.str?_eq_some hvalue]
    · intro h
      exact ⟨_, h, rfl⟩
  rw [← @hstr "protocol", ← @hstr "version"]
  cases data with
  | obj envelope =>
      unfold openEnvelope
      by_cases hprotocol : ((Json.obj envelope).get? "protocol").bind Json.str? = some PROTOCOL_ID
      swap
      · simp [hprotocol]
      by_cases hversion : ((Json.obj envelope).get? "version").bind Json.str? = some PROTOCOL_VERSION
      swap
      · simp [hprotocol, hversion]
      rw [if_neg (not_not.mpr hprotocol), if_neg (not_not.mpr hversion)]
      simp only [hprotocol, hversion, true_and]
      cases htype : (Json.obj envelope).get? "type" with
      | none => simp
      | some type =>
          by_cases hnull : type = .null
          · simp [hnull]
          simp only [Option.some.injEq, ← modelMapGet_eq_some_iff]
          cases hget : modelMapGet type with
          | error e => simp
          | ok found =>
              cases found with
              | none => simp
              | some found =>
                  simp only [Except.ok.injEq, Option.some.injEq]
                  cases hpayload : (Json.obj envelope).get? "payload" with
                  | none => simp
                  | some j => cases j <;> simp [and_comm, eq_comm]
  | null | bool _ | int _ | float _ | str _ | arr _ => simp [openEnvelope]

/-! ## The id of a message -/

theorem strField_eq_some {payload : Json} {key s : String} (h : strField payload key = some s) :
    payload.get? key = some (.str s) := by
  obtain ⟨j, hj, hs⟩ := Option.bind_eq_some_iff.mp h
  rw [hj, Json.str?_eq_some hs]

theorem PaymentIntent.modelValidate_id {payload : Json} {m : PaymentIntent}
    (h : PaymentIntent.modelValidate rt payload = some m) : payload.get? "id" = some (.str m.id) := by
  simp only [PaymentIntent.modelValidate, Option.bind_eq_bind, Option.bind_eq_some_iff] at h
  obtain ⟨_, _, id, hid, _, _, _, _, _, _, _, _, _, _, _, _, _, _, _, _, hbuilt⟩ := h
  split at hbuilt
  · cases hbuilt
    exact strField_eq_some hid
  · cases hbuilt

theorem PaymentQuote.modelValidate_id {payload : Json} {m : PaymentQuote}
    (h : PaymentQuote.modelValidate rt payload = some m) : payload.get? "id" = some (.str m.id) := by
  simp only [PaymentQuote.modelValidate, Option.bind_eq_bind, Option.bind_eq_some_iff] at h
  obtain ⟨_, _, id, hid, _, _, _, _, _, _, _, _, _, _, _, _, _, _, _, _, hbuilt⟩ := h
  split at hbuilt
  · cases hbuilt
    exact strField_eq_some hid
  · cases hbuilt

theorem PaymentReceipt.modelValidate_id {payload : Json} {m : PaymentReceipt}
    (h : PaymentReceipt.modelValidate rt payload = some m) : payload.get? "id" = some (.str m.id) := by
  simp only [PaymentReceipt.modelValidate, Option.bind_eq_bind, Option.bind_eq_some_iff] at h
  obtain ⟨_, _, id, hid, _, _, _, _, _, _, _, _, _, _, _, _, _, _, _, _, _, _, hbuilt⟩ := h
  unfold PaymentReceipt.validate? at hbuilt
  split at hbuilt
  · cases hbuilt
    exact strField_eq_some hid
  · cases hbuilt

/-- A message has the id its payload claims. -/
theorem MessageKind.modelValidate_id {kind : MessageKind} {payload : Json} {m : PaymentMessage}
    (h : kind.modelValidate rt payload = some m) : payload.get? "id" = some (.str m.id) := by
  cases kind with
  | INTENT =>
      obtain ⟨m, hm, rfl⟩ := Option.map_eq_some_iff.mp h
      exact PaymentIntent.modelValidate_id hm
  | QUOTE =>
      obtain ⟨m, hm, rfl⟩ := Option.map_eq_some_iff.mp h
      exact PaymentQuote.modelValidate_id hm
  | RECEIPT =>
      obtain ⟨m, hm, rfl⟩ := Option.map_eq_some_iff.mp h
      exact PaymentReceipt.modelValidate_id hm

/-! ## What decoding raises -/

/-- A value that Python cannot hash. -/
def Unhashable : Json → Prop
  | .arr _ | .obj _ => True
  | _ => False

/-- An envelope of this protocol whose type cannot be looked up. -/
def UnhashableType (data : Json) : Prop :=
  (data.get? "protocol").bind Json.str? = some PROTOCOL_ID ∧
    (data.get? "version").bind Json.str? = some PROTOCOL_VERSION ∧
    ∃ type, data.get? "type" = some type ∧ Unhashable type

/-- The computation raises an exception that is no `ValueError`. -/
def Raises {α : Type} (r : Except DecodeError α) : Prop := ∃ e, r = .error e ∧ ∀ cause, e ≠ .valueError cause

@[simp] theorem not_raises_ok {α : Type} (a : α) : ¬ Raises (.ok a) := not_endsIn_ok a

@[simp] theorem not_raises_valueError {α : Type} (cause : DecodeCause) :
    ¬ Raises (.error (.valueError cause) : Except DecodeError α) := by
  intro h
  have hclass : ∀ other, DecodeError.valueError cause ≠ .valueError other := endsIn_error.mp h
  exact hclass cause rfl

theorem raises_bind {α β : Type} {x : Except DecodeError α} {f : α → Except DecodeError β} :
    Raises (x >>= f) ↔ Raises x ∨ ∃ a, x = .ok a ∧ Raises (f a) := endsIn_bind

theorem raises_jsonLoads : Raises (jsonLoads rt content) ↔ rt.limit content = some .recursionError := by
  unfold jsonLoads
  cases hlimit : rt.limit content with
  | none => cases Json.loads rt.readFloat content <;> simp
  | some e =>
      cases e with
      | recursionError => exact ⟨fun _ => rfl, fun _ => ⟨_, rfl, nofun⟩⟩
      | valueError => simp

theorem raises_openEnvelope {data : Json} : Raises (openEnvelope data) ↔ UnhashableType data := by
  cases data with
  | obj members =>
      unfold openEnvelope UnhashableType
      by_cases hprotocol : ((Json.obj members).get? "protocol").bind Json.str? = some PROTOCOL_ID
      swap
      · simp [hprotocol]
      by_cases hversion : ((Json.obj members).get? "version").bind Json.str? = some PROTOCOL_VERSION
      swap
      · simp [hprotocol, hversion]
      rw [if_neg (not_not.mpr hprotocol), if_neg (not_not.mpr hversion)]
      cases htype : (Json.obj members).get? "type" with
      | none => simp
      | some type =>
          -- only a list or a dictionary fails the lookup, and then with a `TypeError`
          cases type with
          | arr _ | obj _ =>
              refine iff_of_true ⟨.typeError, rfl, fun _ h => ?_⟩ ⟨hprotocol, hversion, _, rfl, trivial⟩
              cases h
          | null => simp [Unhashable]
          | bool _ | int _ | float _ => simp [modelMapGet, Unhashable]
          | str s =>
              simp only [modelMapGet]
              cases [MessageKind.INTENT, .QUOTE, .RECEIPT].find? (fun kind => kind.value = s) with
              | none => simp [Unhashable]
              | some kind =>
                  refine iff_of_false ?_ (by simp [Unhashable])
                  simp only
                  split <;> simp
  | null | bool _ | int _ | float _ | str _ | arr _ =>
      exact iff_of_false (not_raises_valueError _) fun h => by cases h.1

/-- **What decoding raises** besides `ValueError`. -/
theorem raises_decodeContent : Raises (decodeContent rt content) ↔
    rt.limit content = some .recursionError ∨ ∃ data, jsonLoads rt content = .ok data ∧ UnhashableType data := by
  have hvalidate (opened : MessageKind × Json) : ¬ Raises ((opened.1.modelValidate rt opened.2).elim
      (.error (.valueError .validationFailed)) .ok : Except DecodeError PaymentMessage) := by
    cases opened.1.modelValidate rt opened.2 <;> simp
  unfold decodeContent
  rw [raises_bind, raises_jsonLoads]
  refine or_congr Iff.rfl (exists_congr fun data => and_congr_right fun _ => ?_)
  rw [raises_bind, raises_openEnvelope]
  constructor
  · rintro (h | ⟨opened, _, h⟩)
    · exact h
    · exact absurd h (hvalidate opened)
  · exact .inl

end

end HermesPayments
