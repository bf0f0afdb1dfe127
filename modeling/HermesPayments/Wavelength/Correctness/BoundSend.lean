import HermesPayments.Lib.Json.WellRead
import HermesPayments.Wavelength.Runs

/-!
# `HermesPayments.Wavelength.Correctness.BoundSend` — what `execute` sends is what `prepare` bound

The intent token of a preview travels through the payload: written with sorted keys, hashed, decoded by `execute` and
written again into the request of a `Send`. What arrives is the token of the response, and the `Send` is all that the
wallet is asked to do (`sends_what_was_bound`). A payload that does not match its hash, or that has expired, sends
nothing.
-/

namespace HermesPayments

open Lib

namespace WavelengthAdapter

section

variable {w : WavelengthAdapter} {py : PyRuntime} {env : WavecliEnv} {payload : Bytes} {preparedHash : String}
  {decoded token : Json}

/-! ## The command -/

/-- A checked payload is sent, and nothing else is. -/
theorem effects_execute (hchecked : checkPayload py env payload preparedHash = .ok (decoded, token)) :
    ((w.execute py env payload preparedHash).run ()).effects = [w.sendCmd token] := by
  have hanswer : (env.run (w.sendCmd token)).run ()
      = ⟨.ok (env.executor (w.sendCmd token)), (), [w.sendCmd token]⟩ := rfl
  have hquiet {α β : Type} (r : Except AdapterExc α) (f : α → Wavecli β) (hf : ∀ a, ((f a).run ()).effects = []) :
      ((Proc.ofExcept r >>= f).run ()).effects = [] := by
    cases r with
    | ok a => exact hf a
    | error e => rfl
  rw [execute, hchecked, Proc.run_bind_ok (Proc.run_ofExcept _ _), Proc.run_bind_ok hanswer]
  show [w.sendCmd token] ++ _ = _
  rw [hquiet, List.append_nil]
  intro data
  refine hquiet _ _ fun result => ?_
  rfl

/-- A refused payload sends nothing. -/
theorem effects_execute_refused {e : AdapterExc} (hchecked : checkPayload py env payload preparedHash = .error e) :
    ((w.execute py env payload preparedHash).run ()).effects = [] := by
  rw [execute, hchecked, Proc.run_bind_error (Proc.run_ofExcept _ _)]

/-- A `Send` is no `PrepareSend`. -/
theorem sendCmd_ne_prepareCmd (token : Json) (invoice : String) (maxFeeSat : Int) :
    w.sendCmd token ≠ w.prepareCmd invoice maxFeeSat := by
  intro h
  have hmethod := List.append_cancel_left h
  exact absurd (List.cons.inj (List.cons.inj (List.cons.inj hmethod).2).2).1 (by decide)

/-! ## The payload -/

/-- The payload has expired, or says no time. -/
def Expired (py : PyRuntime) (env : WavecliEnv) (payload : Bytes) : Prop :=
  ∃ decoded, decodePayload py payload = .ok decoded ∧
    (asInt? (decoded.getD "expires_at_unix" (.int 0))).all (· ≤ env.now) = true

/-- **A payload that does not match its hash, or has expired, sends nothing.** -/
theorem refused_sends_nothing (h : computePreparedHash py.sha256 payload ≠ preparedHash ∨ Expired py env payload) :
    ((w.execute py env payload preparedHash).run ()).effects = [] := by
  cases hchecked : checkPayload py env payload preparedHash with
  | error e => exact effects_execute_refused hchecked
  | ok checked =>
      obtain ⟨hhash, hdecode, _, _, _, hunexpired⟩ := checkPayload_eq_ok.mp hchecked
      rcases h with hne | ⟨decoded, hdecode', hexpired⟩
      · exact absurd hhash hne
      · obtain rfl := Except.ok.inj (hdecode.symm.trans hdecode')
        cases hexpired.symm.trans hunexpired

section

variable {p : Preview} {invoice : String} {maxFeeSat : Int}

/-- The payload of a preview passes every check while the preview is open. -/
theorem checkPayload_prepared (htoken : p.sendIntentId.truthy = true) (hwell : p.sendIntentId.WellRead py.readFloat)
    (hearlier : env.now < p.expiresAtUnix)
    (hlimit : ∀ text, Utf8.decode (preparedPayload p invoice maxFeeSat) = some text → py.limit text = none) :
    checkPayload py env (preparedPayload p invoice maxFeeSat)
        (computePreparedHash py.sha256 (preparedPayload p invoice maxFeeSat))
      = .ok (decodedPayload py p invoice maxFeeSat, p.sendIntentId.reread py.readFloat payloadOptions) := by
  have hget (key : String) (v default : Json) (hv : (payloadMembers p invoice maxFeeSat).lookup (.text key) = some v) :
      (decodedPayload py p invoice maxFeeSat).getD key default = v.reread py.readFloat payloadOptions := by
    rw [Json.getD, get?_decodedPayload, hv]
    rfl
  have hexpires : (decodedPayload py p invoice maxFeeSat).getD "expires_at_unix" (.int 0) = .int p.expiresAtUnix := by
    rw [hget _ (.int p.expiresAtUnix) _ rfl, Json.reread]
  refine checkPayload_eq_ok.mpr ⟨rfl, decodePayload_prepared py p invoice maxFeeSat hlimit, rfl,
    hget _ p.sendIntentId _ rfl, ?_, ?_⟩
  · rw [hwell.truthy_reread, htoken]
  · rw [hexpires]
    simpa [asInt?] using hearlier

/-- The request of a `Send` holds the token alone. -/
theorem loads_sendRequest (hwell : token.WellRead py.readFloat) :
    Json.loads py.readFloat ((Json.obj [("send_intent_id", token.reread py.readFloat payloadOptions)]).dumps
        { sortKeys := true })
      = some (.obj [("send_intent_id", token.reread py.readFloat payloadOptions)]) := by
  have hkeys : ([(PyStr.text "send_intent_id", token.reread py.readFloat payloadOptions)].map Prod.fst).Nodup := by simp
  rw [Json.loads_dumps (Json.standard_default _ _), Json.reread_obj_of_nodup hkeys]
  show some (Json.obj [("send_intent_id", Json.reread py.readFloat _ (token.reread py.readFloat payloadOptions))]) = _
  rw [hwell.reread_reread rfl rfl]

/-- What `execute` returns for the payload of a preview is what the preview says. -/
theorem execute_prepared_ok {out : SendOutcome} {preparedHash : String}
    (hchecked : checkPayload py env (preparedPayload p invoice maxFeeSat) preparedHash
      = .ok (decodedPayload py p invoice maxFeeSat, token))
    (hresult : ((w.execute py env (preparedPayload p invoice maxFeeSat) preparedHash).run ()).result = .ok out) :
    out.settlementRef = .str p.paymentHash ∧ out.amountSat = p.amountSat := by
  rw [result_execute, hchecked] at hresult
  obtain ⟨data, _, hdata⟩ := bind_eq_ok.mp (show (sendAnswer py _ >>= _) = .ok out from hresult)
  obtain ⟨result, _, hinterpret⟩ := bind_eq_ok.mp hdata
  obtain ⟨hconfirms, rfl⟩ := interpretSend_ok hinterpret
  have hget (key : String) (v : Json) (hv : (payloadMembers p invoice maxFeeSat).lookup (.text key) = some v) :
      (decodedPayload py p invoice maxFeeSat).getD key .null = v.reread py.readFloat payloadOptions := by
    rw [Json.getD, get?_decodedPayload, hv]
    rfl
  have hhash := hconfirms.paymentHash
  rw [hget "payment_hash" (.str p.paymentHash) rfl, Json.reread] at hhash
  have hamount := hconfirms.amountSat
  rw [hget "amount_sat" (.int p.amountSat) rfl, Json.reread] at hamount
  exact ⟨Json.pyEq_str hhash, Json.pyEq_int.mp hamount⟩

end

end

/-- **`execute` sends exactly what `prepare` bound.** The response is a value that the JSON reader built, and the payload
    is within the limits of the reader. -/
theorem sends_what_was_bound (w : WavelengthAdapter) (py : PyRuntime) :
    (∀ (env env' : WavecliEnv) (instruction : RailReceiveInstruction) (amountSat maxFeeSat : Int) (prep : PrepareResult)
      (data : Json) (p : Preview),
      ((w.prepare py env instruction amountSat maxFeeSat).run ()).result = .ok prep →
      env.executor (w.prepareCmd (instruction.invoice.getD "") maxFeeSat) = .ok data →
      parsePrepareResponse py data = .ok p → env'.now < p.expiresAtUnix → data.WellRead py.readFloat →
      (∀ text, Utf8.decode prep.preparedPayload = some text → py.limit text = none) →
      let out := (w.execute py env' prep.preparedPayload prep.preparedHash).run ()
      (∃ request token, out.effects = [buildRawRpcCmd RAW_RPC_SERVICE "Send" request (some w.rpcServer) w.network w.noTls
          w.noMacaroons true none] ∧ Json.loads py.readFloat request = some (.obj [("send_intent_id", token)]) ∧
        token.same (data.getD "send_intent_id" (.str "")) = true) ∧
      (∀ invoice cap, w.prepareCmd invoice cap ∉ out.effects) ∧
      ∀ o, out.result = .ok o → o.settlementRef = data.getD "payment_hash" (.str "") ∧ o.amountSat = amountSat) ∧
    ∀ (env : WavecliEnv) (payload : Bytes) (preparedHash : String),
      computePreparedHash py.sha256 payload ≠ preparedHash ∨ Expired py env payload →
      ((w.execute py env payload preparedHash).run ()).effects = [] := by
  refine ⟨?_, fun env payload preparedHash h => refused_sends_nothing h⟩
  intro env env' instruction amountSat maxFeeSat prep data p hprepare hanswer hparse hearlier hdata hlimit out
  obtain ⟨_, data', p', hanswer', hparse', hcheck, rfl⟩ := prepare_returns_iff.mp hprepare
  obtain rfl := Except.ok.inj (hanswer.symm.trans hanswer')
  obtain rfl := Except.ok.inj (hparse.symm.trans hparse')
  obtain ⟨htoken, hhash⟩ := parsePrepareResponse_members hparse
  have hwell : p.sendIntentId.WellRead py.readFloat := htoken ▸ hdata.getD "send_intent_id" (.str "")
  have hchecked := checkPayload_prepared (parsePrepareResponse_ok hparse).2 hwell hearlier hlimit
  have heffects : out.effects = [w.sendCmd (p.sendIntentId.reread py.readFloat payloadOptions)] :=
    effects_execute hchecked
  refine ⟨⟨_, _, heffects, loads_sendRequest hwell, ?_⟩, ?_, ?_⟩
  · rw [← htoken]
    exact hwell.same_reread
  · intro invoice cap hmem
    rw [heffects] at hmem
    exact sendCmd_ne_prepareCmd _ _ _ (List.mem_singleton.mp hmem).symm
  · intro o ho
    obtain ⟨href, hamount⟩ := execute_prepared_ok hchecked ho
    exact ⟨href.trans hhash.symm, hamount.trans (checkPreview_eq_ok.mp hcheck).2.1⟩

end WavelengthAdapter

/-- The sample payment, prepared and executed. -/
theorem WavelengthAdapter.sends_what_was_bound_payment : ∃ request token,
    ((Sample.wavelength.execute Sample.py ⟨0, fun _ => .ok (Sample.sendResponse 2)⟩
      (preparedPayload Sample.preview "invoice A" 10) "hash").run ()).effects
      = [buildRawRpcCmd RAW_RPC_SERVICE "Send" request (some "") "regtest" true true true none] ∧
    Json.loads Sample.py.readFloat request = some (.obj [("send_intent_id", token)]) ∧
    token.same (.str "si-1") = true := by
  have hparse : parsePrepareResponse Sample.py Sample.previewResponse = .ok Sample.preview := rfl
  have hprepare : ((Sample.wavelength.prepare Sample.py ⟨0, fun _ => .ok Sample.previewResponse⟩
      ⟨.LIGHTNING, some "invoice A"⟩ 1000 10).run ()).result
      = .ok (previewed Sample.py Sample.preview "invoice A" 10) :=
    prepare_returns_iff.mpr ⟨by decide, _, _, rfl, hparse, rfl, rfl⟩
  have hwell : Sample.previewResponse.WellRead Sample.py.readFloat := by
    refine .obj (by decide) ?_
    simp only [List.forall_mem_cons, List.not_mem_nil, false_implies, implies_true, and_true]
    exact ⟨.str _, .int _, .int _, .bool _, .int _, .bool _, .str _, .str _, .int _⟩
  exact ((sends_what_was_bound Sample.wavelength Sample.py).1 _ ⟨0, _⟩ _ _ _ _ _ _ hprepare rfl hparse
    (by decide) hwell fun _ _ => rfl).1

end HermesPayments
