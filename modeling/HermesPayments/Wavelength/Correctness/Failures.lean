import HermesPayments.Wavelength.Runs

/-!
# `HermesPayments.Wavelength.Correctness.Failures` — the exceptions of `execute`

The policy core catches `AdapterError` and its subclass `AmbiguousResult`, and takes every other exception of `execute`
for a crash. `execute` keeps to these two classes exactly when the payload it decodes is an object within the limits of
the JSON reader and the answer to its `Send` is not garbled (`execute_declared_iff`): the amounts and the fee are
numbers, and a failed or pending payment has a text for its id. `undeclared_after_send` is an answer that is garbled.
-/

namespace HermesPayments

open Lib WavelengthAdapter

namespace WavelengthAdapter

/-! ## What goes wrong -/

/-- The entry of a `Send` response. -/
def sentEntry (data : Json) : Json := data.getD "entry" .null

/-- The response holds an entry with an id. -/
structure Named (data : Json) : Prop where
  object : data.isDict = true
  entry  : (sentEntry data).isDict = true
  id     : ((sentEntry data).getD "id" (.str "")).truthy = true

section

variable (w : WavelengthAdapter) (py : PyRuntime) (env : WavecliEnv)

/-- A response with an entry that cannot be read: an amount or the fee is no number, or the payment failed or is pending
    under an id that is no text. -/
inductive Garbled (data : Json) : Prop
  | amount {e : AdapterExc} (hnamed : Named data) (hamount : sentAmount py data (sentEntry data) = .error e) : Garbled data
  | fee {e : AdapterExc} (hnamed : Named data) (hfee : intMember py (sentEntry data) "fee_sat" = .error e) : Garbled data
  | id (hnamed : Named data) (hid : ((sentEntry data).getD "id" (.str "")).pyStr? = none)
      (hstatus : sendStatus py ((sentEntry data).getD "status" (.str "UNSPECIFIED")) = "FAILED" ∨
        sendStatus py ((sentEntry data).getD "status" (.str "UNSPECIFIED")) = "PENDING") : Garbled data

/-- The inputs on which `execute` ends in an exception of another class. -/
inductive Mishandled (payload : Bytes) (preparedHash : String) : Prop
  | limit {m : String} (hhash : computePreparedHash py.sha256 payload = preparedHash)
      (hlimit : decodePayload py payload = .error (.limit m)) : Mishandled payload preparedHash
  | notObject {decoded : Json} (hhash : computePreparedHash py.sha256 payload = preparedHash)
      (hdecode : decodePayload py payload = .ok decoded) (hobject : decoded.isDict = false) :
      Mishandled payload preparedHash
  | answer {decoded token data : Json} (hchecked : checkPayload py env payload preparedHash = .ok (decoded, token))
      (hanswer : env.executor (w.sendCmd token) = .ok data) (hgarbled : Garbled py data) :
      Mishandled payload preparedHash

end

section

variable {w : WavelengthAdapter} {py : PyRuntime} {env : WavecliEnv} {payload : Bytes} {preparedHash : String}

/-! ## One part of `execute` after another -/

theorem sentAmount_undeclared {data entry : Json} {e : AdapterExc} (h : sentAmount py data entry = .error e) :
    e.Undeclared := by
  rcases bind_eq_error.mp h with hactual | ⟨actual, _, hentry⟩
  · exact intMember_undeclared hactual
  · by_cases hzero : actual = 0
    · rw [if_pos hzero] at hentry
      exact intMember_undeclared hentry
    · rw [if_neg hzero] at hentry
      cases hentry

theorem endsIn_checkPayload : EndsIn AdapterExc.Undeclared (checkPayload py env payload preparedHash) ↔
    computePreparedHash py.sha256 payload = preparedHash ∧
      ((∃ m, decodePayload py payload = .error (.limit m)) ∨
        ∃ decoded, decodePayload py payload = .ok decoded ∧ decoded.isDict = false) := by
  simp only [checkPayload, endsIn_bind, endsIn_raiseIf, raiseIf_eq_ok, AdapterExc.not_undeclared_adapterError,
    AdapterExc.undeclared_other, and_false, false_or, and_true, exists_const, not_not, ne_eq]
  refine and_congr_right fun _ => ?_
  cases decodePayload py payload with
  | ok decoded => cases hobject : decoded.isDict <;> simp [Except.mapError, hobject]
  | error e => cases e <;> simp [Except.mapError]

theorem not_endsIn_sendAnswer (answer : Except AdapterExc Json) :
    ¬ EndsIn AdapterExc.Undeclared (sendAnswer py answer) := by
  cases answer with
  | ok data => exact not_endsIn_ok data
  | error e => exact fun h => AdapterExc.not_undeclared_ambiguousResult _ (endsIn_error.mp h)

theorem sendAnswer_eq_ok {answer : Except AdapterExc Json} {data : Json} :
    sendAnswer py answer = .ok data ↔ answer = .ok data := by
  cases answer with
  | ok data' => exact Iff.rfl
  | error e => exact iff_of_false nofun nofun

theorem endsIn_parseSendResponse {data : Json} : EndsIn AdapterExc.Undeclared (parseSendResponse py data) ↔
    Named data ∧ ((∃ e, sentAmount py data (sentEntry data) = .error e) ∨
      ∃ e, intMember py (sentEntry data) "fee_sat" = .error e) := by
  simp only [parseSendResponse, endsIn_bind, endsIn_raiseIf, raiseIf_eq_ok, AdapterExc.not_undeclared_adapterError,
    and_false, false_or, exists_const, not_not, endsIn_iff_error fun _ => sentAmount_undeclared,
    endsIn_iff_error fun _ => intMember_undeclared, not_endsIn_pure, or_false]
  constructor
  · rintro ⟨hobject, hentry, hid, hunread⟩
    exact ⟨⟨hobject, hentry, hid⟩, hunread.imp_right fun ⟨_, _, hfee⟩ => hfee⟩
  · rintro ⟨⟨hobject, hentry, hid⟩, hunread⟩
    refine ⟨hobject, hentry, hid, ?_⟩
    cases hamount : sentAmount py data (data.getD "entry" .null) with
    | error e => exact .inl ⟨e, rfl⟩
    | ok amountSat =>
        rcases hunread with ⟨e, he⟩ | hfee
        · rw [sentEntry, hamount] at he
          cases he
        · exact .inr ⟨amountSat, rfl, hfee⟩

theorem endsIn_interpretSend {decoded : Json} {result : SendResult} :
    EndsIn AdapterExc.Undeclared (interpretSend py decoded result) ↔
      (result.status = "FAILED" ∨ result.status = "PENDING") ∧ result.entryId.pyStr? = none := by
  unfold interpretSend
  have hredact : EndsIn AdapterExc.Undeclared (redactValue py result.entryId) ↔ result.entryId.pyStr? = none := by
    cases result.entryId <;> simp [redactValue, Json.pyStr?]
  by_cases hfailed : result.status = "FAILED"
  · rw [if_pos hfailed, endsIn_bind, hredact]
    simp [hfailed]
  by_cases hpending : result.status = "PENDING"
  · rw [if_neg hfailed, if_pos hpending, endsIn_bind, hredact]
    simp [hpending]
  · rw [if_neg hfailed, if_neg hpending]
    simp only [endsIn_bind, endsIn_raiseIf, raiseIf_eq_ok, AdapterExc.not_undeclared_ambiguousResult, and_false,
      false_or, exists_const, not_endsIn_pure, hfailed, hpending, false_and]

/-- What `parseSendResponse` reads, in terms of the entry. -/
theorem parseSendResponse_ok {data : Json} {result : SendResult} (h : parseSendResponse py data = .ok result) :
    Named data ∧ result.entryId = (sentEntry data).getD "id" (.str "") ∧
      result.status = sendStatus py ((sentEntry data).getD "status" (.str "UNSPECIFIED")) := by
  simp only [parseSendResponse, bind_eq_ok, raiseIf_eq_ok, exists_const, not_not] at h
  obtain ⟨hobject, hentry, hid, _, _, _, _, hresult⟩ := h
  rw [← Except.ok.inj hresult]
  exact ⟨⟨hobject, hentry, hid⟩, rfl, rfl⟩

/-- A response with a named entry is refused only for its numbers. -/
theorem parseSendResponse_of_named {data : Json} {amountSat feeSat : Int} (hnamed : Named data)
    (hamount : sentAmount py data (sentEntry data) = .ok amountSat)
    (hfee : intMember py (sentEntry data) "fee_sat" = .ok feeSat) :
    ∃ result, parseSendResponse py data = .ok result := by
  obtain ⟨hobject, hentry, hid⟩ := hnamed
  unfold sentEntry at hentry hid hamount hfee
  unfold parseSendResponse
  rw [raiseIf_bind_of_not (not_not.mpr hobject)]
  simp only
  rw [raiseIf_bind_of_not (not_not.mpr hentry), raiseIf_bind_of_not (not_not.mpr hid), hamount]
  exact ⟨_, bind_eq_ok.mpr ⟨_, rfl, bind_eq_ok.mpr ⟨_, hfee, rfl⟩⟩⟩

/-- Reading a response ends in an undeclared exception when it is garbled. -/
theorem endsIn_answer {decoded data : Json} :
    EndsIn AdapterExc.Undeclared (parseSendResponse py data >>= interpretSend py decoded) ↔ Garbled py data := by
  rw [endsIn_bind, endsIn_parseSendResponse]
  constructor
  · rintro (⟨hnamed, ⟨e, hamount⟩ | ⟨e, hfee⟩⟩ | ⟨result, hparse, hinterpret⟩)
    · exact .amount hnamed hamount
    · exact .fee hnamed hfee
    · obtain ⟨hnamed, hid, hstatus⟩ := parseSendResponse_ok hparse
      rw [endsIn_interpretSend, hid, hstatus] at hinterpret
      exact .id hnamed hinterpret.2 hinterpret.1
  · intro hgarbled
    cases hgarbled with
    | amount hnamed hamount => exact .inl ⟨hnamed, .inl ⟨_, hamount⟩⟩
    | fee hnamed hfee => exact .inl ⟨hnamed, .inr ⟨_, hfee⟩⟩
    | id hnamed hid hstatus =>
        cases hamount : sentAmount py data (sentEntry data) with
        | error e => exact .inl ⟨hnamed, .inl ⟨e, rfl⟩⟩
        | ok amountSat =>
            cases hfee : intMember py (sentEntry data) "fee_sat" with
            | error e => exact .inl ⟨hnamed, .inr ⟨e, rfl⟩⟩
            | ok feeSat =>
                -- the numbers are read, so the id is printed
                obtain ⟨result, hparse⟩ := parseSendResponse_of_named hnamed hamount hfee
                obtain ⟨_, hid', hstatus'⟩ := parseSendResponse_ok hparse
                refine .inr ⟨result, hparse, endsIn_interpretSend.mpr ?_⟩
                rw [hid', hstatus']
                exact ⟨hstatus, hid⟩

theorem endsIn_execute : EndsIn AdapterExc.Undeclared ((w.execute py env payload preparedHash).run ()).result ↔
    Mishandled w py env payload preparedHash := by
  rw [result_execute, endsIn_bind, endsIn_checkPayload]
  constructor
  · rintro (⟨hhash, ⟨m, hlimit⟩ | ⟨decoded, hdecode, hobject⟩⟩ | ⟨⟨decoded, token⟩, hchecked, hsend⟩)
    · exact .limit hhash hlimit
    · exact .notObject hhash hdecode hobject
    · rcases endsIn_bind.mp hsend with hanswer | ⟨data, hanswer, hread⟩
      · exact absurd hanswer (not_endsIn_sendAnswer _)
      · exact .answer hchecked (sendAnswer_eq_ok.mp hanswer) (endsIn_answer.mp hread)
  · intro h
    cases h with
    | limit hhash hlimit => exact .inl ⟨hhash, .inl ⟨_, hlimit⟩⟩
    | notObject hhash hdecode hobject => exact .inl ⟨hhash, .inr ⟨_, hdecode, hobject⟩⟩
    | answer hchecked hanswer hgarbled =>
        refine .inr ⟨_, hchecked, endsIn_bind.mpr (.inr ⟨_, sendAnswer_eq_ok.mpr hanswer, ?_⟩)⟩
        exact endsIn_answer.mpr hgarbled

end

end WavelengthAdapter

end HermesPayments
