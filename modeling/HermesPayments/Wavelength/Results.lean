import HermesPayments.Wavelength

/-!
# `HermesPayments.Wavelength.Results` — what the adapter's methods answer

One lemma for each method: what a preview that `prepare` accepts satisfies (`prepare_ok`), what the payload it binds
decodes to (`decode_preparedPayload`), when a `Send` response is taken for a payment and when for a failure that the
policy core catches (`caught_sendAnswer_iff`), and when the activity verifies a receipt
(`verifySenderSettlement_verified_iff`). Whatever they answer, their commands name a test network
(`commands_onTestNetwork`).
-/

namespace HermesPayments

open Lib

/-- Neither `AdapterError` nor `AmbiguousResult`. -/
def AdapterExc.Undeclared (e : AdapterExc) : Prop := ∃ m, e = .other m

@[simp] theorem AdapterExc.undeclared_other (m : String) : (AdapterExc.other m).Undeclared := ⟨m, rfl⟩

@[simp] theorem AdapterExc.not_undeclared_adapterError (m : String) : ¬ (AdapterExc.adapterError m).Undeclared := nofun

@[simp] theorem AdapterExc.not_undeclared_ambiguousResult (m : String) : ¬ (AdapterExc.ambiguousResult m).Undeclared :=
  nofun

namespace WavelengthAdapter

variable {w : WavelengthAdapter} {py : PyRuntime} {env : WavecliEnv}

/-- What a method answers after it ran a command. -/
theorem result_run_bind {α : Type} (cmd : List String) (f : Except AdapterExc Json → Wavecli α) :
    ((env.run cmd >>= f).run ()).result = ((f (env.executor cmd)).run ()).result := by
  rw [Proc.run_bind_ok (show (env.run cmd).run () = ⟨.ok (env.executor cmd), (), [cmd]⟩ from rfl)]
  rfl

/-! ## The network -/

/-- The constructor returns every adapter, from its own arguments. -/
theorem init?_eq_some_iff {rpcServer network : String} {noTls noMacaroons : Bool} :
    init? rpcServer network noTls noMacaroons = some w ↔
      w.rpcServer = rpcServer ∧ w.network = network ∧ w.noTls = noTls ∧ w.noMacaroons = noMacaroons := by
  obtain ⟨rpcServer', network', noTls', noMacaroons', hsupported⟩ := w
  unfold init?
  constructor
  · intro h
    split at h
    · cases h
      simp
    · cases h
  · rintro ⟨rfl, rfl, rfl, rfl⟩
    exact dif_pos hsupported

/-- A wavecli command on a test network. -/
def OnTestNetwork (cmd : List String) : Prop :=
  ∃ network rest, cmd = "wavecli" :: "--network" :: network :: rest ∧ (network = "regtest" ∨ network = "signet")

theorem onTestNetwork_rawRpcCmd (method : String) (request : Json) : OnTestNetwork (w.rawRpcCmd method request) :=
  ⟨w.network, _, rfl, w.network_supported⟩

theorem onTestNetwork_activityCmd (kind : String) : OnTestNetwork (w.activityCmd kind) :=
  ⟨w.network, _, rfl, w.network_supported⟩

theorem emits_run {cmd : List String} (h : OnTestNetwork cmd) : (env.run cmd).Emits OnTestNetwork :=
  (Proc.Emits.emit (by simpa using h)).bind fun _ => (Proc.Still.pure _).emits

theorem emits_ofExcept {α : Type} (r : Except AdapterExc α) : (Proc.ofExcept r : Wavecli α).Emits OnTestNetwork :=
  (Proc.Still.ofExcept r).emits

theorem emits_pure {α : Type} (a : α) : (pure a : Wavecli α).Emits OnTestNetwork := (Proc.Still.pure a).emits

theorem emits_prepare (instruction : RailReceiveInstruction) (amountSat maxFeeSat : Int) :
    (w.prepare py env instruction amountSat maxFeeSat).Emits OnTestNetwork := by
  unfold prepare
  refine (emits_ofExcept _).bind fun _ => (emits_ofExcept _).bind fun _ => ?_
  refine (emits_run (onTestNetwork_rawRpcCmd _ _)).bind fun _ => (emits_ofExcept _).bind fun _ => ?_
  exact (emits_ofExcept _).bind fun _ => (emits_ofExcept _).bind fun _ => emits_pure _

theorem emits_execute (payload : Bytes) (preparedHash : String) :
    (w.execute py env payload preparedHash).Emits OnTestNetwork := by
  unfold execute
  refine (emits_ofExcept _).bind fun _ => (emits_run (onTestNetwork_rawRpcCmd _ _)).bind fun _ => ?_
  exact (emits_ofExcept _).bind fun _ => (emits_ofExcept _).bind fun _ => emits_ofExcept _

theorem emits_verifyActivity (kind : ActivityKind) (settlementRef : PyStr) (expectedAmountSat : Int) :
    (w.verifyActivity py env kind settlementRef expectedAmountSat).Emits OnTestNetwork := by
  unfold verifyActivity
  refine (emits_run (onTestNetwork_activityCmd _)).bind fun answer => ?_
  split
  · exact emits_pure _
  · exact emits_pure _
  · exact emits_ofExcept _

theorem emits_reconcileSettlement (payload : Bytes) (preparedHash : String) (expectedAmountSat : Int) :
    (w.reconcileSettlement py env payload preparedHash expectedAmountSat).Emits OnTestNetwork := by
  unfold reconcileSettlement
  -- The checks of the payload answer by themselves, and the wallet is asked last.
  refine .ite (emits_pure _) ?_
  split
  · exact (Proc.Still.raise _).emits
  · exact emits_pure _
  refine .ite (emits_pure _) ?_
  refine .ite (emits_pure _) ?_
  split
  · exact (Proc.Still.raise _).emits
  · exact emits_pure _
  refine .ite (emits_pure _) ?_
  refine (emits_run (onTestNetwork_activityCmd _)).bind fun answer => ?_
  split
  · exact emits_pure _
  · exact emits_pure _
  · exact emits_ofExcept _

/-- **No command leaves the test networks**, whatever method of an adapter runs it. -/
theorem commands_onTestNetwork (w : WavelengthAdapter) (py : PyRuntime) (env : WavecliEnv) :
    (∀ instruction amountSat maxFeeSat, (w.prepare py env instruction amountSat maxFeeSat).Emits OnTestNetwork) ∧
    (∀ payload preparedHash, (w.execute py env payload preparedHash).Emits OnTestNetwork) ∧
    (∀ kind ref amountSat, (w.verifyActivity py env kind ref amountSat).Emits OnTestNetwork) ∧
    ∀ payload preparedHash amountSat, (w.reconcileSettlement py env payload preparedHash amountSat).Emits OnTestNetwork :=
  ⟨emits_prepare, emits_execute, emits_verifyActivity, emits_reconcileSettlement⟩

/-! ## Members -/

theorem intOrRaise_eq_ok {r : Except IntError Int} {n : Int} : intOrRaise r = .ok n ↔ r = .ok n := by
  cases r with
  | ok m => exact ⟨fun h => congrArg _ (Except.ok.inj h), fun h => congrArg _ (Except.ok.inj h)⟩
  | error e => exact iff_of_false nofun nofun

/-- An exception of `int` is of no declared class. -/
theorem intMember_undeclared {data : Json} {key : String} {e : AdapterExc} (h : intMember py data key = .error e) :
    e.Undeclared := by
  unfold intMember intOrRaise at h
  cases hn : (data.getD key (.int 0)).toInt py.decimal with
  | ok n =>
      rw [hn] at h
      cases h
  | error e' =>
      rw [hn] at h
      exact ⟨_, (Except.error.inj h).symm⟩

/-! ## `prepare` -/

theorem checkPreview_eq_ok {amountSat maxFeeSat : Int} {p : Preview} :
    checkPreview env amountSat maxFeeSat p = .ok () ↔ env.now < p.expiresAtUnix ∧ p.amountSat = amountSat ∧
      p.expectedFeeSat ≤ maxFeeSat ∧ p.expectedTotalOutflowSat = p.amountSat + p.expectedFeeSat := by
  simp only [checkPreview, bind_eq_ok, raiseIf_eq_ok, exists_const, not_le, not_not, gt_iff_lt, not_lt, ne_eq]

/-- An accepted preview names a payment hash and an intent token. -/
theorem parsePrepareResponse_ok {data : Json} {p : Preview} (h : parsePrepareResponse py data = .ok p) :
    p.paymentHash ≠ "" ∧ p.sendIntentId.truthy = true := by
  simp only [parsePrepareResponse, bind_eq_ok, raiseIf_eq_ok, exists_const, not_not] at h
  obtain ⟨_, htoken, _, _, _, _, _, _, _, _, hhash, _, _, _, _, _, _, _, _, _, _, hp⟩ := h
  obtain rfl := Except.ok.inj hp
  exact ⟨hhash, htoken⟩

/-- The token and the payment hash of an accepted preview are those of the response. -/
theorem parsePrepareResponse_members {data : Json} {p : Preview} (h : parsePrepareResponse py data = .ok p) :
    p.sendIntentId = data.getD "send_intent_id" (.str "") ∧ data.getD "payment_hash" (.str "") = .str p.paymentHash := by
  have hhash := (parsePrepareResponse_ok h).1
  simp only [parsePrepareResponse, bind_eq_ok, raiseIf_eq_ok, exists_const, not_not] at h
  obtain ⟨_, _, _, _, _, _, _, _, _, _, _, _, _, _, _, _, _, _, _, _, _, hp⟩ := h
  obtain rfl := Except.ok.inj hp
  refine ⟨rfl, ?_⟩
  simp only at hhash
  cases hjson : data.getD "payment_hash" (.str "") with
  | str ref => rfl
  | null | bool _ | int _ | float _ | arr _ | obj _ =>
      rw [hjson] at hhash
      exact absurd rfl hhash

/-- The result of a prepare that bound the preview `p` of a response. -/
structure Bound (py : PyRuntime) (env : WavecliEnv) (amountSat maxFeeSat : Int) (prep : PrepareResult) (p : Preview)
    (invoice : String) : Prop where
  feeSat       : prep.feeSat = p.expectedFeeSat
  preparedHash : prep.preparedHash = computePreparedHash py.sha256 prep.preparedPayload
  payload      : prep.preparedPayload = preparedPayload p invoice maxFeeSat
  unexpired    : env.now < p.expiresAtUnix
  amountSat    : p.amountSat = amountSat
  capped       : p.expectedFeeSat ≤ maxFeeSat
  totalOutflow : p.expectedTotalOutflowSat = p.amountSat + p.expectedFeeSat
  paymentHash  : p.paymentHash ≠ ""
  token        : p.sendIntentId.truthy = true

/-- What `prepare` returns for an accepted response. -/
def previewed (py : PyRuntime) (p : Preview) (invoice : String) (maxFeeSat : Int) : PrepareResult :=
  ⟨p.expectedFeeSat, computePreparedHash py.sha256 (preparedPayload p invoice maxFeeSat), .LIGHTNING,
    preparedPayload p invoice maxFeeSat⟩

/-- `prepare` returns exactly for an accepted response. -/
theorem prepare_returns_iff {instruction : RailReceiveInstruction} {amountSat maxFeeSat : Int} {prep : PrepareResult} :
    ((w.prepare py env instruction amountSat maxFeeSat).run ()).result = .ok prep ↔
      instruction.invoice.getD "" ≠ "" ∧ ∃ data p,
        env.executor (w.prepareCmd (instruction.invoice.getD "") maxFeeSat) = .ok data ∧
        parsePrepareResponse py data = .ok p ∧ checkPreview env amountSat maxFeeSat p = .ok () ∧
        prep = previewed py p (instruction.invoice.getD "") maxFeeSat := by
  have hrail : ¬ instruction.rail ≠ .LIGHTNING := by cases instruction.rail; simp
  simp only [prepare, Proc.result_ofExcept_bind, result_run_bind, bind_eq_ok, raiseIf_eq_ok, exists_const, hrail,
    not_false_eq_true, true_and]
  refine and_congr_right fun _ => ?_
  constructor
  · rintro ⟨data, hanswer, p, hparse, _, hcheck, hprep⟩
    obtain rfl := Except.ok.inj hprep
    cases hexecutor : env.executor (w.prepareCmd (instruction.invoice.getD "") maxFeeSat) with
    | ok data' =>
        rw [hexecutor] at hanswer
        obtain rfl := Except.ok.inj hanswer
        exact ⟨_, p, rfl, hparse, hcheck, rfl⟩
    | error e =>
        rw [hexecutor] at hanswer
        cases hanswer
  · rintro ⟨data, p, hexecutor, hparse, hcheck, rfl⟩
    exact ⟨data, by rw [hexecutor]; rfl, p, hparse, (), hcheck, rfl⟩

/-- **`prepare` returns only what it bound.** -/
theorem prepare_ok {instruction : RailReceiveInstruction} {amountSat maxFeeSat : Int} {prep : PrepareResult}
    (h : (w.settlementAdapter py env).prepare instruction amountSat maxFeeSat = .ok prep) :
    ∃ p, Bound py env amountSat maxFeeSat prep p (instruction.invoice.getD "") := by
  obtain ⟨_, _, p, _, hparse, hcheck, rfl⟩ := prepare_returns_iff.mp h
  obtain ⟨hunexpired, hamount, hcap, htotal⟩ := checkPreview_eq_ok.mp hcheck
  obtain ⟨hhash, htoken⟩ := parsePrepareResponse_ok hparse
  exact ⟨p, rfl, rfl, rfl, hunexpired, hamount, hcap, htotal, hhash, htoken⟩

/-! ## The payload -/

/-- The payment hash bound inside a prepared payload. -/
def boundHash (py : PyRuntime) (payload : Bytes) : Option PyStr := do
  let text ← Utf8.decode payload
  let decoded ← Json.loads py.readFloat text
  (← decoded.get? "payment_hash").pyStr?

theorem payloadOptions_standard : payloadOptions.Standard := ⟨⟨[], rfl, nofun⟩, ⟨[], rfl, nofun⟩⟩

section

variable (py) (p : Preview) (invoice : String) (maxFeeSat : Int)

/-- What the payload of a preview reads back as. -/
def decodedPayload : Json := Json.reread py.readFloat payloadOptions (.obj (payloadMembers p invoice maxFeeSat))

theorem loads_preparedPayload :
    (Utf8.decode (preparedPayload p invoice maxFeeSat)).bind (Json.loads py.readFloat)
      = some (decodedPayload py p invoice maxFeeSat) := by
  rw [preparedPayload, Utf8.decode_encode, Option.bind_some, Json.loads_dumps payloadOptions_standard]
  rfl

/-- The members of a payload, reread. -/
theorem get?_decodedPayload (key : String) : (decodedPayload py p invoice maxFeeSat).get? key
    = ((payloadMembers p invoice maxFeeSat).lookup (.text key)).map (Json.reread py.readFloat payloadOptions) := by
  have hkeys : ((payloadMembers p invoice maxFeeSat).map Prod.fst).Nodup := by
    show (["send_intent_id", "amount_sat", "fee_sat", "total_outflow_sat", "payment_hash", "expires_at_unix", "rail",
      "quote_status", "invoice", "max_fee_sat"] : List PyStr).Nodup
    decide
  exact Json.get?_reread py.readFloat payloadOptions hkeys key

/-- A payload without limits decodes. -/
theorem decodePayload_prepared
    (hlimit : ∀ text, Utf8.decode (preparedPayload p invoice maxFeeSat) = some text → py.limit text = none) :
    decodePayload py (preparedPayload p invoice maxFeeSat) = .ok (decodedPayload py p invoice maxFeeSat) := by
  obtain ⟨text, htext, hdecoded⟩ := Option.bind_eq_some_iff.mp (loads_preparedPayload py p invoice maxFeeSat)
  rw [decodePayload, htext]
  simp only [hlimit text htext, hdecoded]

/-- **The payload binds the payment hash of its preview.** -/
theorem boundHash_preparedPayload : boundHash py (preparedPayload p invoice maxFeeSat) = some p.paymentHash := by
  have hloads := loads_preparedPayload py p invoice maxFeeSat
  obtain ⟨text, htext, hdecoded⟩ := Option.bind_eq_some_iff.mp hloads
  have hget := get?_decodedPayload py p invoice maxFeeSat "payment_hash"
  show ((Utf8.decode _).bind fun text => (Json.loads py.readFloat text).bind fun decoded =>
    (decoded.get? "payment_hash").bind Json.pyStr?) = _
  rw [htext, Option.bind_some, hdecoded, Option.bind_some, hget]
  rfl

end

/-! ## `execute` -/

/-- The answer to a `Send`, compared with the payload that was sent. -/
def sendOutcome (py : PyRuntime) (payload data : Json) : Except AdapterExc ExecuteResult :=
  (parseSendResponse py data >>= interpretSend py payload) >>= SendOutcome.toExecuteResult

/-- Every check before dispatch passes. -/
theorem checkPayload_eq_ok {payload : Bytes} {preparedHash : String} {decoded token : Json} :
    checkPayload py env payload preparedHash = .ok (decoded, token) ↔
      computePreparedHash py.sha256 payload = preparedHash ∧ decodePayload py payload = .ok decoded ∧
        decoded.isDict = true ∧ decoded.getD "send_intent_id" (.str "") = token ∧ token.truthy = true ∧
        (asInt? (decoded.getD "expires_at_unix" (.int 0))).all (· ≤ env.now) = false := by
  simp only [checkPayload, bind_eq_ok, raiseIf_eq_ok, exists_const, not_not, ne_eq]
  constructor
  · rintro ⟨hhash, decoded', hdecode, hdict, htoken, hexpires, hok⟩
    obtain ⟨rfl, rfl⟩ := Prod.mk.inj (Except.ok.inj hok)
    cases hpayload : decodePayload py payload with
    | ok j =>
        rw [hpayload] at hdecode
        obtain rfl := Except.ok.inj hdecode
        exact ⟨hhash, rfl, hdict, rfl, htoken, eq_false_of_ne_true hexpires⟩
    | error e =>
        rw [hpayload] at hdecode
        cases hdecode
  · rintro ⟨hhash, hdecode, hdict, rfl, htoken, hexpires⟩
    exact ⟨hhash, decoded, by rw [hdecode]; rfl, hdict, htoken, ne_true_of_eq_false hexpires, rfl⟩

/-- What `execute` answers, part by part. -/
theorem result_execute (payload : Bytes) (preparedHash : String) :
    ((w.execute py env payload preparedHash).run ()).result
      = checkPayload py env payload preparedHash >>= fun checked =>
        sendAnswer py (env.executor (w.sendCmd checked.2)) >>= fun data =>
        parseSendResponse py data >>= interpretSend py checked.1 := by
  simp only [execute, Proc.result_ofExcept_bind, Proc.run_ofExcept, result_run_bind]

theorem execute_eq (payload : Bytes) (preparedHash : String) :
    (w.settlementAdapter py env).execute payload preparedHash
      = checkPayload py env payload preparedHash >>= fun checked =>
        sendAnswer py (env.executor (w.sendCmd checked.2)) >>= fun data => sendOutcome py checked.1 data := by
  show ((w.execute py env payload preparedHash).run ()).result >>= SendOutcome.toExecuteResult = _
  simp only [result_execute, sendOutcome, bind_assoc]

/-- The exception is one that the policy core catches. -/
def Caught {α : Type} (r : Except AdapterExc α) : Prop := ∃ e, r = .error e ∧ ∀ m, e ≠ .other m

/-- The response confirms the payment of this payload. -/
structure Confirms (payload : Json) (result : SendResult) : Prop where
  complete    : result.status = "COMPLETE"
  named       : result.paymentHash.truthy = true
  amountSat   : (Json.int result.amountSat).pyEq (payload.getD "amount_sat" .null) = true
  entryId     : result.entryId.pyEq (payload.getD "payment_hash" .null) = true
  paymentHash : result.paymentHash.pyEq (payload.getD "payment_hash" .null) = true

/-- The response is one on which `execute` does not end in a caught exception: it confirms the payment, an amount in it
    is no number, or it reports a failed or pending payment under an id that is no text. -/
inductive Escapes (py : PyRuntime) (payload data : Json) : Prop
  | confirmed {result : SendResult} (hparse : parseSendResponse py data = .ok result)
      (hconfirms : Confirms payload result) : Escapes py payload data
  | unreadable {m : String} (hparse : parseSendResponse py data = .error (.other m)) : Escapes py payload data
  | unnamed {result : SendResult} (hparse : parseSendResponse py data = .ok result)
      (hstatus : result.status = "FAILED" ∨ result.status = "PENDING") (hid : result.entryId.pyStr? = none) :
      Escapes py payload data

theorem redactValue_eq_error {x : Json} {e : AdapterExc} (h : redactValue py x = .error e) :
    x.pyStr? = none ∧ ∃ m, e = .other m := by
  cases x with
  | str s => cases h
  | null | bool _ | int _ | float _ | arr _ | obj _ => exact ⟨rfl, _, (Except.error.inj h).symm⟩

/-- A reference that is no text ends in an exception that the policy core does not catch. -/
theorem toExecuteResult_error {out : SendOutcome} {e : AdapterExc} (h : out.toExecuteResult = .error e) :
    ∃ m, e = .other m := by
  unfold SendOutcome.toExecuteResult at h
  split at h
  · cases h
  · exact ⟨_, (Except.error.inj h).symm⟩

theorem interpretSend_of_unnamed {payload : Json} {result : SendResult}
    (hstatus : result.status = "FAILED" ∨ result.status = "PENDING") (hid : result.entryId.pyStr? = none) :
    ∃ m, interpretSend py payload result = .error (.other m) := by
  obtain ⟨m, hredact⟩ : ∃ m, redactValue py result.entryId = .error (.other m) := by
    cases hentry : result.entryId with
    | str s => rw [hentry] at hid; cases hid
    | null | bool _ | int _ | float _ | arr _ | obj _ => exact ⟨_, rfl⟩
  refine ⟨m, ?_⟩
  rcases hstatus with hstatus | hstatus
  · rw [interpretSend, if_pos hstatus, hredact]
    rfl
  · rw [interpretSend, if_neg (by rw [hstatus]; decide), if_pos hstatus, hredact]
    rfl

theorem interpretSend_ok {payload : Json} {result : SendResult} {out : SendOutcome}
    (h : interpretSend py payload result = .ok out) :
    Confirms payload result ∧ out = ⟨result.paymentHash, result.amountSat, result.feeSat⟩ := by
  unfold interpretSend at h
  split at h
  · obtain ⟨_, _, herror⟩ := bind_eq_ok.mp h
    cases herror
  · split at h
    · obtain ⟨_, _, herror⟩ := bind_eq_ok.mp h
      cases herror
    · simp only [bind_eq_ok, raiseIf_eq_ok, exists_const, not_not, ne_eq] at h
      obtain ⟨hcomplete, hnamed, hamount, hid, hhash, hout⟩ := h
      exact ⟨⟨hcomplete, hnamed, hamount, hid, hhash⟩, (Except.ok.inj hout).symm⟩

theorem interpretSend_of_confirms {payload : Json} {result : SendResult} (h : Confirms payload result) :
    interpretSend py payload result = .ok ⟨result.paymentHash, result.amountSat, result.feeSat⟩ := by
  obtain ⟨hcomplete, hnamed, hamount, hid, hhash⟩ := h
  have hfailed : result.status ≠ "FAILED" := by rw [hcomplete]; decide
  have hpending : result.status ≠ "PENDING" := by rw [hcomplete]; decide
  rw [interpretSend, if_neg hfailed, if_neg hpending, raiseIf_bind_of_not (not_not.mpr hcomplete),
    raiseIf_bind_of_not (not_not.mpr hnamed), raiseIf_bind_of_not (not_not.mpr hamount),
    raiseIf_bind_of_not (not_not.mpr hid), raiseIf_bind_of_not (not_not.mpr hhash)]
  rfl

theorem ambiguousResult_ne_other (m : String) : ∀ m', AdapterExc.ambiguousResult m ≠ .other m' := nofun

/-- A response that is refused raises a caught exception, unless its id cannot be printed. -/
theorem interpretSend_error {payload : Json} {result : SendResult} {e : AdapterExc}
    (h : interpretSend py payload result = .error e) : (∀ m, e ≠ .other m) ∨
      (result.status = "FAILED" ∨ result.status = "PENDING") ∧ result.entryId.pyStr? = none := by
  unfold interpretSend at h
  split at h
  case isTrue hfailed =>
      rcases bind_eq_error.mp h with hid | ⟨_, _, herror⟩
      · exact .inr ⟨.inl hfailed, (redactValue_eq_error hid).1⟩
      · left
        rw [← Except.error.inj herror]
        exact nofun
  case isFalse =>
      split at h
      case isTrue hpending =>
          rcases bind_eq_error.mp h with hid | ⟨_, _, herror⟩
          · exact .inr ⟨.inr hpending, (redactValue_eq_error hid).1⟩
          · left
            rw [← Except.error.inj herror]
            exact nofun
      case isFalse =>
          -- each of the remaining checks raises `AmbiguousResult`
          simp only [bind_eq_error, raiseIf_eq_error, raiseIf_eq_ok, exists_const] at h
          left
          rcases h with ⟨_, rfl⟩ | ⟨_, ⟨_, rfl⟩ | ⟨_, ⟨_, rfl⟩ | ⟨_, ⟨_, rfl⟩ | ⟨_, ⟨_, rfl⟩ | ⟨_, hnone⟩⟩⟩⟩⟩
          all_goals first | exact ambiguousResult_ne_other _ | cases hnone

/-- **A response is taken for a failure that the policy core catches**, or it escapes. -/
theorem caught_sendOutcome_iff {payload data : Json} :
    Caught (sendOutcome py payload data) ↔ ¬ Escapes py payload data := by
  constructor
  · rintro ⟨e, herror, hcaught⟩ hescapes
    cases hescapes with
    | confirmed hparse hconfirms =>
        rw [sendOutcome, hparse] at herror
        have hout : (interpretSend py payload _ >>= SendOutcome.toExecuteResult) = .error e := herror
        rw [interpretSend_of_confirms hconfirms] at hout
        obtain ⟨m, rfl⟩ := toExecuteResult_error hout
        exact hcaught m rfl
    | unreadable hparse =>
        rw [sendOutcome, hparse] at herror
        exact hcaught _ (Except.error.inj herror).symm
    | unnamed hparse hstatus hid =>
        rw [sendOutcome, hparse] at herror
        have hout : (interpretSend py payload _ >>= SendOutcome.toExecuteResult) = .error e := herror
        obtain ⟨m, hother⟩ : ∃ m, interpretSend py payload _ = .error (.other m) := interpretSend_of_unnamed hstatus hid
        rw [hother] at hout
        exact hcaught _ (Except.error.inj hout).symm
  · intro hescapes
    cases hparse : parseSendResponse py data with
    | error e =>
        refine ⟨e, by rw [sendOutcome, hparse]; rfl, fun m he => ?_⟩
        rw [he] at hparse
        exact hescapes (.unreadable hparse)
    | ok result =>
        cases hresult : interpretSend py payload result with
        | ok out => exact absurd (.confirmed hparse (interpretSend_ok hresult).1) hescapes
        | error e =>
            refine ⟨e, ?_, ?_⟩
            · rw [sendOutcome, hparse]
              show (interpretSend py payload result >>= _) = _
              rw [hresult]
              rfl
            · rcases interpretSend_error hresult with hcaught | ⟨hstatus, hid⟩
              · exact hcaught
              · exact absurd (.unnamed hparse hstatus hid) hescapes

/-- The fee that a `Send` response reports, zero by default. -/
def reportedFee (py : PyRuntime) (data : Json) : Option Int :=
  let entry := data.getD "entry" .null
  if entry.isDict then (intMember py entry "fee_sat").toOption else none

theorem reportedFee_of_parse {data : Json} {result : SendResult} (h : parseSendResponse py data = .ok result) :
    reportedFee py data = some result.feeSat := by
  simp only [parseSendResponse, bind_eq_ok, raiseIf_eq_ok, exists_const, not_not] at h
  obtain ⟨_, hentry, _, _, _, _, hfee, hresult⟩ := h
  obtain rfl := Except.ok.inj hresult
  rw [reportedFee, if_pos hentry, hfee]
  rfl

/-- What `execute` returns is what a confirming response says. -/
theorem sendOutcome_ok {payload data : Json} {res : ExecuteResult} (h : sendOutcome py payload data = .ok res) :
    ∃ result, parseSendResponse py data = .ok result ∧ Confirms payload result ∧ res.feeSat = result.feeSat := by
  obtain ⟨out, hout, hres⟩ := bind_eq_ok.mp h
  obtain ⟨result, hparse, hinterpret⟩ := bind_eq_ok.mp hout
  obtain ⟨hconfirms, rfl⟩ := interpretSend_ok hinterpret
  refine ⟨result, hparse, hconfirms, ?_⟩
  unfold SendOutcome.toExecuteResult at hres
  split at hres
  · rw [← Except.ok.inj hres]
  · cases hres

/-! ## Receipt verification -/

/-- The scan for a payment hash passes over this entry. -/
def Skipped (py : PyRuntime) (ref : PyStr) (entry : Json) : Prop :=
  (∃ parsed, parseActivityEntry py entry = .ok parsed ∧ parsed.paymentHash ≠ ref) ∨
    Caught (parseActivityEntry py entry)

/-- The first entry with this payment hash is a completed payment of this amount. -/
inductive Evidence (py : PyRuntime) (kind : ActivityKind) (ref : PyStr) (amountSat : Int) : List Json → Prop
  | here {entry : Json} {rest : List Json} {parsed : ActivityEntry}
      (hparse : parseActivityEntry py entry = .ok parsed) (hhash : parsed.paymentHash = ref)
      (hstatus : parsed.status = "COMPLETE") (hamount : kind.amount parsed.amountSat = amountSat) :
      Evidence py kind ref amountSat (entry :: rest)
  | later {entry : Json} {rest : List Json} (hskip : Skipped py ref entry)
      (hrest : Evidence py kind ref amountSat rest) : Evidence py kind ref amountSat (entry :: rest)

theorem not_skipped {ref : PyStr} {entry : Json} {parsed : ActivityEntry}
    (hparse : parseActivityEntry py entry = .ok parsed) (hhash : parsed.paymentHash = ref) :
    ¬ Skipped py ref entry := by
  rintro (⟨parsed', hparse', hne⟩ | ⟨e, herror, _⟩)
  · obtain rfl := Except.ok.inj (hparse.symm.trans hparse')
    exact hne hhash
  · rw [hparse] at herror
    cases herror

/-- A skipped entry is not looked at. -/
theorem verifyScan_skip {kind : ActivityKind} {ref : PyStr} {amountSat : Int} {entry : Json} {rest : List Json}
    (h : Skipped py ref entry) :
    verifyScan py kind ref amountSat (entry :: rest) = verifyScan py kind ref amountSat rest := by
  rcases h with ⟨parsed, hparse, hhash⟩ | ⟨e, hparse, hcaught⟩
  · rw [verifyScan, hparse]
    exact if_pos hhash
  · rw [verifyScan, hparse]
    cases e with
    | other m => exact absurd rfl (hcaught m)
    | adapterError m | ambiguousResult m => rfl

/-- The entry the scan stops at decides. -/
theorem verifyScan_stop {kind : ActivityKind} {ref : PyStr} {amountSat : Int} {entry : Json} {rest : List Json}
    (h : ¬ Skipped py ref entry) :
    (∃ v, verifyScan py kind ref amountSat (entry :: rest) = .ok v ∧ v.verified = true) ↔
      ∃ parsed, parseActivityEntry py entry = .ok parsed ∧ parsed.paymentHash = ref ∧
        parsed.status = "COMPLETE" ∧ kind.amount parsed.amountSat = amountSat := by
  cases hparse : parseActivityEntry py entry with
  | error e =>
      have hother : ∃ m, e = .other m := by
        by_contra hcaught
        exact h (.inr ⟨e, hparse, fun m he => hcaught ⟨m, he⟩⟩)
      obtain ⟨m, rfl⟩ := hother
      rw [verifyScan, hparse]
      constructor
      · rintro ⟨_, hv, _⟩
        cases hv
      · rintro ⟨_, hnone, _⟩
        cases hnone
  | ok parsed =>
      have hhash : parsed.paymentHash = ref := by
        by_contra hne
        exact h (.inl ⟨parsed, hparse, hne⟩)
      rw [verifyScan, hparse]
      simp only [hhash, ne_eq, not_true_eq_false, if_false]
      by_cases hstatus : parsed.status = "COMPLETE"
      · by_cases hamount : kind.amount parsed.amountSat = amountSat
        · simp [hstatus, hamount, hhash]
        · simp [hstatus, hamount]
      · simp [hstatus]

/-- **The scan verifies a receipt** exactly when the first entry with its payment hash does. -/
theorem verifyScan_verified_iff {kind : ActivityKind} {ref : PyStr} {amountSat : Int} {entries : List Json} :
    (∃ v, verifyScan py kind ref amountSat entries = .ok v ∧ v.verified = true) ↔
      Evidence py kind ref amountSat entries := by
  induction entries with
  | nil =>
      constructor
      · rintro ⟨v, hv, hverified⟩
        rw [← Except.ok.inj hv] at hverified
        cases hverified
      · nofun
  | cons entry rest ih =>
      by_cases hskip : Skipped py ref entry
      · rw [verifyScan_skip hskip, ih]
        constructor
        · exact .later hskip
        · intro h
          cases h with
          | here hparse hhash _ _ => exact absurd hskip (not_skipped hparse hhash)
          | later _ hrest => exact hrest
      · rw [verifyScan_stop hskip]
        constructor
        · rintro ⟨_, hparse, hhash, hstatus, hamount⟩
          exact .here hparse hhash hstatus hamount
        · intro h
          cases h with
          | here hparse hhash hstatus hamount => exact ⟨_, hparse, hhash, hstatus, hamount⟩
          | later hlater _ => exact absurd hlater hskip

/-- The wallet shows a completed payment of this amount under this payment hash. -/
def Shows (w : WavelengthAdapter) (py : PyRuntime) (env : WavecliEnv) (kind : ActivityKind) (ref : PyStr)
    (amountSat : Int) : Prop :=
  ∃ data, env.executor (w.activityCmd kind.value) = .ok data ∧ Evidence py kind ref amountSat (activityEntries data)

/-- **Sender-side verification succeeds** exactly when the wallet shows the payment. -/
theorem verifySenderSettlement_verified_iff {ref : String} {amountSat : Int} :
    (∃ v, (w.settlementAdapter py env).verifySenderSettlement ref amountSat = .ok v ∧ v.verified = true) ↔
      Shows w py env .send ref amountSat := by
  show (∃ v, ((w.verifyActivity py env .send ref amountSat).run ()).result = .ok v ∧ v.verified = true) ↔ _
  rw [verifyActivity, result_run_bind]
  cases hanswer : env.executor (w.activityCmd ActivityKind.send.value) with
  | ok data =>
      show (∃ v, verifyScan py .send ref amountSat (activityEntries data) = .ok v ∧ v.verified = true) ↔ _
      rw [verifyScan_verified_iff]
      constructor
      · intro h
        exact ⟨data, hanswer, h⟩
      · rintro ⟨data', hanswer', h⟩
        obtain rfl := Except.ok.inj (hanswer.symm.trans hanswer')
        exact h
  | error e =>
      constructor
      · -- a failed query verifies nothing
        rintro ⟨v, hv, hverified⟩
        cases e <;> (rw [← Except.ok.inj hv] at hverified; cases hverified)
      · rintro ⟨_, hok, _⟩
        rw [hanswer] at hok
        cases hok

end WavelengthAdapter
end HermesPayments
