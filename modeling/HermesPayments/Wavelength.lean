import HermesPayments.Lib.Proc
import HermesPayments.Lib.Utf8
import HermesPayments.Wavelength.Parse

/-!
# `HermesPayments.Wavelength` — the Wavelength adapter

The settlement adapter over wavecli. `prepare` asks the daemon for a preview and binds it into an opaque payload,
`execute` dispatches the payment of one payload, and `verify_receipt`, `verify_sender_settlement` and
`reconcile_settlement` look for a payment hash in the wallet's activity. Each method is a `Proc` whose effects are the
commands handed to the executor. What the executor answers, an exception included, is part of the environment.
-/

namespace HermesPayments

open Lib

/-- The adapter as constructed: only test networks are supported. -/
structure WavelengthAdapter where
  rpcServer         : String
  network           : String
  noTls             : Bool
  noMacaroons       : Bool
  network_supported : network = "regtest" ∨ network = "signet"

/-- The constructor call: `none` is its `ValueError`. -/
def WavelengthAdapter.init? (rpcServer network : String) (noTls noMacaroons : Bool) : Option WavelengthAdapter :=
  if h : network = "regtest" ∨ network = "signet" then some ⟨rpcServer, network, noTls, noMacaroons, h⟩ else none

/-- What the outside answers during one call of the adapter: the clock and the executor. -/
structure WavecliEnv where
  now      : Int
  executor : List String → Except AdapterExc Json

/-- A method of the adapter. -/
abbrev Wavecli (α : Type) := Proc (List String) AdapterExc Unit α

/-- Run a command; an exception of the executor is an answer like any other. -/
def WavecliEnv.run (env : WavecliEnv) (cmd : List String) : Wavecli (Except AdapterExc Json) := do
  Proc.emit [cmd]
  return env.executor cmd

namespace WavelengthAdapter

section

variable (w : WavelengthAdapter) (py : PyRuntime) (env : WavecliEnv)

def rawRpcCmd (method : String) (request : Json) : List String :=
  buildRawRpcCmd RAW_RPC_SERVICE method (request.dumps { sortKeys := true }) (some w.rpcServer) w.network w.noTls
    w.noMacaroons true none

def activityCmd (kind : String) : List String :=
  buildWavecliActivityCmd kind (some w.rpcServer) w.network w.noTls w.noMacaroons true none

/-! ## `prepare` -/

/-- The daemon's preview must be the one asked for: unexpired, of this amount, within the fee cap and consistent. -/
def checkPreview (amountSat maxFeeSat : Int) (p : Preview) : Except AdapterExc Unit := do
  raiseIf (p.expiresAtUnix ≤ env.now) (.adapterError "PrepareSend returned an expired intent")
  raiseIf (p.amountSat ≠ amountSat)
    (.adapterError s!"PrepareSend amount {p.amountSat} does not match quoted amount {amountSat}")
  raiseIf (p.expectedFeeSat > maxFeeSat)
    (.adapterError s!"raw PrepareSend fee {p.expectedFeeSat} exceeds max_fee_sat {maxFeeSat}")
  raiseIf (p.expectedTotalOutflowSat ≠ p.amountSat + p.expectedFeeSat)
    (.adapterError "PrepareSend total outflow does not equal amount plus fee")

def payloadOptions : Json.DumpsOptions := { itemSeparator := ",", keySeparator := ":", sortKeys := true }

/-- The members of the opaque payload. -/
def payloadMembers (p : Preview) (invoice : String) (maxFeeSat : Int) : List (PyStr × Json) :=
  [("send_intent_id", p.sendIntentId), ("amount_sat", .int p.amountSat), ("fee_sat", .int p.expectedFeeSat),
    ("total_outflow_sat", .int p.expectedTotalOutflowSat), ("payment_hash", .str p.paymentHash),
    ("expires_at_unix", .int p.expiresAtUnix), ("rail", .str p.rail), ("quote_status", p.quoteStatus),
    ("invoice", .str invoice), ("max_fee_sat", .int maxFeeSat)]

/-- The opaque payload, which never leaves the sender. -/
def preparedPayload (p : Preview) (invoice : String) (maxFeeSat : Int) : Bytes :=
  Utf8.encode ((Json.obj (payloadMembers p invoice maxFeeSat)).dumps payloadOptions)

/-- The raw `PrepareSend` of an invoice. -/
def prepareCmd (invoice : String) (maxFeeSat : Int) : List String :=
  w.rawRpcCmd "PrepareSend" (.obj [("invoice", .str invoice), ("max_fee_sat", .int maxFeeSat)])

/-- An exception of the executor that is no `AdapterError` becomes one. -/
def prepareAnswer (answer : Except AdapterExc Json) : Except AdapterExc Json :=
  answer.mapError fun
    | .other m => .adapterError s!"raw PrepareSend failed: {redactSensitive py.isAlnum m}"
    | e        => e

/-- Non-mutating prepare via the raw `PrepareSend` RPC. -/
def prepare (instruction : RailReceiveInstruction) (amountSat maxFeeSat : Int) : Wavecli PrepareResult := do
  Proc.ofExcept (raiseIf (instruction.rail ≠ .LIGHTNING)
    (.adapterError s!"unsupported rail: {instruction.rail.value}"))
  let invoice := instruction.invoice.getD ""
  Proc.ofExcept (raiseIf (invoice = "") (.adapterError "no invoice in receive instruction"))
  let answer ← env.run (w.prepareCmd invoice maxFeeSat)
  let data ← Proc.ofExcept (prepareAnswer py answer)
  let prepared ← Proc.ofExcept (parsePrepareResponse py data)
  Proc.ofExcept (checkPreview env amountSat maxFeeSat prepared)
  let payload := preparedPayload prepared invoice maxFeeSat
  return ⟨prepared.expectedFeeSat, computePreparedHash py.sha256 payload, .LIGHTNING, payload⟩

/-! ## `execute` -/

/-- Why a payload does not decode: an exception that is caught, or one of another class. -/
inductive PayloadError where
  | undecodable (message : String)
  | limit (message : String)

/-- `json.loads(prepared_payload.decode("utf-8"))`. -/
def decodePayload (payload : Bytes) : Except PayloadError Json :=
  match Utf8.decode payload with
  | none => .error (.undecodable (py.undecodable payload))
  | some text =>
      match py.limit text, Json.loads py.readFloat text with
      | some m, _    => .error (.limit m)
      | none, some j => .ok j
      | none, none   => .error (.undecodable (py.undecodable payload))

/-- `x` where `isinstance(x, int)`: a truth value is an instance. -/
def asInt? : Json → Option Int
  | .int n  => some n
  | .bool b => some (if b then 1 else 0)
  | _       => none

/-- The checks before dispatch: the decoded payload, with its intent token. -/
def checkPayload (payload : Bytes) (preparedHash : String) : Except AdapterExc (Json × Json) := do
  raiseIf (computePreparedHash py.sha256 payload ≠ preparedHash)
    (.adapterError ("prepared_payload does not match prepared_hash; " ++
      "execute called with tampered or wrong payload"))
  let decoded ← (decodePayload py payload).mapError fun
    | .undecodable m => AdapterExc.adapterError s!"cannot decode prepared payload: {m}"
    | .limit m       => .other m
  raiseIf (¬ decoded.isDict) (.other s!"'{decoded.typeName}' object has no attribute 'get'")
  let token := decoded.getD "send_intent_id" (.str "")
  raiseIf (¬ token.truthy) (.adapterError ("prepared payload missing send_intent_id; " ++
      "cannot dispatch without a valid intent token"))
  raiseIf ((asInt? (decoded.getD "expires_at_unix" (.int 0))).all (· ≤ env.now))
    (.adapterError ("prepared intent is missing, malformed, or expired; " ++
      "re-prepare before executing"))
  return (decoded, token)

/-- `redact_sensitive` of a value that should be text. -/
def redactValue : Json → Except AdapterExc String
  | .str s => .ok (redactSensitive py.isAlnum s.display)
  | x      => .error (.other s!"expected string or bytes-like object, got '{x.typeName}'")

/-- What a completed `Send` returned: the reference may be any value the payload holds as payment hash. -/
structure SendOutcome where
  settlementRef : Json
  amountSat     : Int
  feeSat        : Int

/-- Map the status of a `Send` response to a terminal or an ambiguous outcome, and compare it with the payload. -/
def interpretSend (payload : Json) (result : SendResult) : Except AdapterExc SendOutcome :=
  if result.status = "FAILED" then do
    let entry ← redactValue py result.entryId
    .error (.adapterError s!"raw Send returned FAILED: entry {entry}")
  else if result.status = "PENDING" then do
    -- funds were dispatched, settlement is not confirmed
    let entry ← redactValue py result.entryId
    .error (.ambiguousResult (s!"raw Send dispatched but status is PENDING (entry {entry}); " ++
      "settlement not confirmed — manual verification required"))
  else do
    raiseIf (result.status ≠ "COMPLETE") (.ambiguousResult s!"unknown send status: {result.status}")
    raiseIf (¬ result.paymentHash.truthy)
      (.ambiguousResult "raw Send returned no payment_hash; settlement status unknown")
    -- the daemon result must match the exact preview approved by policy
    raiseIf (¬ (Json.int result.amountSat).pyEq (payload.getD "amount_sat" .null))
      (.ambiguousResult "raw Send amount differs from the prepared preview")
    raiseIf (¬ result.entryId.pyEq (payload.getD "payment_hash" .null))
      (.ambiguousResult "raw Send entry ID differs from the prepared payment hash")
    raiseIf (¬ result.paymentHash.pyEq (payload.getD "payment_hash" .null))
      (.ambiguousResult "raw Send payment hash differs from the prepared preview")
    return ⟨result.paymentHash, result.amountSat, result.feeSat⟩

/-- The raw `Send` of one intent token. -/
def sendCmd (token : Json) : List String := w.rawRpcCmd "Send" (.obj [("send_intent_id", token)])

/-- A failed `Send` cannot prove that the daemon did not accept it. -/
def sendAnswer (answer : Except AdapterExc Json) : Except AdapterExc Json :=
  answer.mapError fun e =>
    .ambiguousResult s!"raw Send outcome unknown: {redactSensitive py.isAlnum e.message}"

/-- Execute settlement via the raw `Send` RPC with the saved intent token. -/
def execute (payload : Bytes) (preparedHash : String) : Wavecli SendOutcome := do
  let (decoded, token) ← Proc.ofExcept (checkPayload py env payload preparedHash)
  let answer ← env.run (w.sendCmd token)
  let data ← Proc.ofExcept (sendAnswer py answer)
  let result ← Proc.ofExcept (parseSendResponse py data)
  Proc.ofExcept (interpretSend py decoded result)

/-! ## `reconcile_settlement` -/

/-- The scan of the activity for the prepared payment. -/
def reconcileScan (paymentHash : PyStr) (expectedAmountSat : Int) :
    List Json → Except AdapterExc ReconcileResult
  | [] => .ok
      { status := "UNKNOWN", settlementRef := paymentHash, error := some "no matching sender activity entry found" }
  | entry :: rest =>
      match parseActivityEntry py entry with
      | .error (.other m) => .error (.other m)
      | .error _ => reconcileScan paymentHash expectedAmountSat rest
      | .ok parsed =>
          if parsed.paymentHash ≠ paymentHash then reconcileScan paymentHash expectedAmountSat rest
          else
            let observed : Int := parsed.amountSat.natAbs
            if observed ≠ expectedAmountSat then .ok
              { status := "UNKNOWN", settlementRef := paymentHash, amountSat := observed, feeSat := parsed.feeSat,
                error := some s!"activity amount mismatch: expected {expectedAmountSat}, got {observed}" }
            else if parsed.status = "COMPLETE" then .ok
              { status := "COMPLETE", settlementRef := paymentHash, amountSat := observed, feeSat := parsed.feeSat,
                rail := some .LIGHTNING, verified := true }
            else if parsed.status = "PENDING" then .ok
              { status := "PENDING", settlementRef := paymentHash, amountSat := observed, feeSat := parsed.feeSat,
                rail := some .LIGHTNING, error := some "matching sender activity is still PENDING" }
            else .ok
              { status := "UNKNOWN", settlementRef := paymentHash, amountSat := observed, feeSat := parsed.feeSat,
                rail := some .LIGHTNING, error := some s!"matching sender activity has status {parsed.status}" }

/-- Inspect sender activity after a crash or an ambiguous outcome; nothing is dispatched. -/
def reconcileSettlement (payload : Bytes) (preparedHash : String) (expectedAmountSat : Int) :
    Wavecli ReconcileResult := do
  let unknown (error : String) : ReconcileResult := { status := "UNKNOWN", error := some error }
  if computePreparedHash py.sha256 payload ≠ preparedHash then
    return unknown "prepared payload does not match prepared_hash"
  match decodePayload py payload with
  | .error (.limit m) => Proc.raise (.other m)
  | .error (.undecodable m) =>
      return unknown s!"cannot decode prepared payload: {redactSensitive py.isAlnum m}"
  | .ok decoded =>
  if !decoded.isDict then
    return unknown "prepared payload is not a JSON object"
  let paymentHash := ((decoded.getD "payment_hash" (.str "")).pyStr?).getD ""
  if paymentHash = "" then
    return unknown "prepared payload has no payment_hash"
  match (decoded.getD "amount_sat" (.int 0)).toInt py.decimal with
  | .error (.overflowError m) => Proc.raise (.other m)
  | .error _ => return { unknown "prepared payload has invalid amount_sat" with settlementRef := paymentHash }
  | .ok amountSat =>
  if amountSat ≠ expectedAmountSat then
    return { unknown "prepared amount does not match the intent" with settlementRef := paymentHash }
  match ← env.run (w.activityCmd "send") with
  | .error (.other m) =>
      return { unknown s!"sender activity query failed: {redactSensitive py.isAlnum m}" with
        settlementRef := paymentHash }
  | .error e =>
      return { unknown s!"cannot query sender activity: {redactSensitive py.isAlnum e.message}" with
        settlementRef := paymentHash }
  | .ok data => Proc.ofExcept (reconcileScan py paymentHash expectedAmountSat (activityEntries data))

/-! ## Receipt verification -/

/-- The direction of an activity query. -/
inductive ActivityKind where
  | recv | send
deriving DecidableEq

def ActivityKind.value : ActivityKind → String
  | .recv => "recv"
  | .send => "send"

/-- An amount as a receipt states it: a send is a negative outflow in the wallet. -/
def ActivityKind.amount (kind : ActivityKind) (amountSat : Int) : Int :=
  if kind = .send then amountSat.natAbs else amountSat

/-- The scan of the activity for one payment hash. -/
def verifyScan (kind : ActivityKind) (settlementRef : PyStr) (expectedAmountSat : Int) :
    List Json → Except AdapterExc ReceiptVerifyResult
  | [] =>
      let shown := String.ofList (settlementRef.display.toList.take 8)
      .ok { verified := false, settlementRef := settlementRef, amountSat := 0, feeSat := 0,
            error := some (s!"no activity entry found for settlement_ref {shown}...; " ++
              "cannot verify receipt without source-grounded ID mapping (fail closed)") }
  | entry :: rest =>
      match parseActivityEntry py entry with
      | .error (.other m) => .error (.other m)
      | .error _ => verifyScan kind settlementRef expectedAmountSat rest
      | .ok parsed =>
          if parsed.paymentHash ≠ settlementRef then verifyScan kind settlementRef expectedAmountSat rest
          else
            let amountSat := kind.amount parsed.amountSat
            if parsed.status ≠ "COMPLETE" then .ok
              { verified := false, settlementRef := settlementRef, amountSat := amountSat, feeSat := parsed.feeSat,
                error := some s!"entry found but status is {parsed.status}; expected COMPLETE" }
            else if amountSat ≠ expectedAmountSat then .ok
              { verified := false, settlementRef := settlementRef, amountSat := amountSat, feeSat := parsed.feeSat,
                error := some s!"amount mismatch: expected {expectedAmountSat}, got {amountSat}" }
            else .ok
              { verified := true, settlementRef := settlementRef, amountSat := amountSat, feeSat := parsed.feeSat }

/-- Verify one payment hash in one direction of the local activity. -/
def verifyActivity (kind : ActivityKind) (settlementRef : PyStr) (expectedAmountSat : Int) :
    Wavecli ReceiptVerifyResult := do
  let unverified (error : String) : ReceiptVerifyResult :=
    { verified := false, settlementRef := settlementRef, amountSat := 0, feeSat := 0, error := some error }
  match ← env.run (w.activityCmd kind.value) with
  | .error (.other m) => return unverified s!"activity query failed: {redactSensitive py.isAlnum m}"
  | .error e => return unverified s!"cannot query activity: {redactSensitive py.isAlnum e.message}"
  | .ok data => Proc.ofExcept (verifyScan py kind settlementRef expectedAmountSat (activityEntries data))

/-- Verify a receipt against recipient-side incoming activity. -/
def verifyReceipt (settlementRef : PyStr) (expectedAmountSat : Int) : Wavecli ReceiptVerifyResult :=
  verifyActivity w py env .recv settlementRef expectedAmountSat

/-- Verify a received receipt against sender-side activity. -/
def verifySenderSettlement (settlementRef : PyStr) (expectedAmountSat : Int) : Wavecli ReceiptVerifyResult :=
  verifyActivity w py env .send settlementRef expectedAmountSat

/-! ## Behind the adapter interface -/

/-- A reference that is no text fails the receipt's schema, which no caller catches either. A string with an unpaired
    surrogate is none. -/
def SendOutcome.toExecuteResult (s : SendOutcome) : Except AdapterExc ExecuteResult :=
  match s.settlementRef.str? with
  | some ref => .ok ⟨ref, s.amountSat, s.feeSat, .LIGHTNING⟩
  | none     => .error (.other s!"settlement_ref is no text but {s.settlementRef.typeName}")

/-- The adapter as the policy core calls it. -/
def settlementAdapter : SettlementAdapter where
  rail                   := .LIGHTNING
  prepare                := fun instruction amountSat maxFeeSat =>
    ((w.prepare py env instruction amountSat maxFeeSat).run ()).result
  execute                := fun payload preparedHash =>
    ((w.execute py env payload preparedHash).run ()).result >>= SendOutcome.toExecuteResult
  verifyReceipt          := fun ref amountSat => ((w.verifyReceipt py env ref amountSat).run ()).result
  verifySenderSettlement := fun ref amountSat => ((w.verifySenderSettlement py env ref amountSat).run ()).result
  reconcileSettlement    := fun payload preparedHash amountSat =>
    ((w.reconcileSettlement py env payload preparedHash amountSat).run ()).result

end

end WavelengthAdapter
end HermesPayments
