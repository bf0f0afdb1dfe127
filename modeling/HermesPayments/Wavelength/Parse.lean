import HermesPayments.Lib.Raise
import HermesPayments.Adapter
import HermesPayments.Redact

/-!
# `HermesPayments.Wavelength.Parse` — commands for wavecli and the reading of its answers

The Wavelength adapter talks to a wallet through the command line tool wavecli. Here are the two commands it builds and
the four readers of the JSON that comes back: a `PrepareSend` response, a `Send` response, the list of activity entries
under the envelopes in use, and one such entry. What comes back is untrusted, so every reader is total on JSON values
and says which exception it ends with. Its strings may have unpaired surrogates; in the text of an exception these appear
as replacement characters.
-/

namespace HermesPayments

open Lib

/-- The parts of the interpreter and of its library that the adapter depends on. -/
structure PyRuntime where
  sha256      : Bytes → String
  isAlnum     : Char → Bool
  decimal     : Char → Option Nat
  upper       : PyStr → PyStr
  readFloat   : String → PyFloat
  /-- The text of the exception for a document that runs into a limit of the JSON reader. -/
  limit       : String → Option String
  /-- The text of the exception for bytes that are no UTF-8, or no JSON document. -/
  undecodable : Bytes → String

/-! ## Commands -/

/-- What every wavecli command starts with. -/
def wavecliCmd (rpcServer : Option String) (network : String) (noTls noMacaroons jsonOutput : Bool) : List String :=
  let server := rpcServer.elim "localhost:10029" (fun s => if s = "" then "localhost:10029" else s)
  ["wavecli", "--network", network, "--rpcserver", server] ++
    (if noTls then ["--no-tls"] else []) ++ (if noMacaroons then ["--no-macaroons"] else []) ++
    (if jsonOutput then ["--json"] else [])

/-- A raw RPC: `dev <service> <method> --request-json <request>`. -/
def buildRawRpcCmd (service method requestJson : String) (rpcServer : Option String) (network : String)
    (noTls noMacaroons jsonOutput : Bool) (timeout : Option String) : List String :=
  wavecliCmd rpcServer network noTls noMacaroons jsonOutput ++
    timeout.elim [] (fun t => ["--timeout", t]) ++ ["dev", service, method, "--request-json", requestJson]

/-- A query of the wallet's activity, of one direction or of one entry. -/
def buildWavecliActivityCmd (kind : String) (rpcServer : Option String) (network : String)
    (noTls noMacaroons jsonOutput : Bool) (inspectId : Option String) : List String :=
  wavecliCmd rpcServer network noTls noMacaroons jsonOutput ++ ["activity"] ++
    (if inspectId.any (· ≠ "") then ["inspect", inspectId.getD ""] else ["--format", "json", "--kind", kind])

def RAW_RPC_SERVICE : String := "wavewalletrpc.WalletService"

/-! ## Numbers -/

/-- What `_coerce_numeric` returns. -/
inductive Numeric where
  | int (n : Int)
  | float (x : PyFloat)

/-- An exception of `int(...)` is no `AdapterError`. -/
def intOrRaise (r : Except IntError Int) : Except AdapterExc Int := r.mapError fun e => .other e.message

/-- `int(x)`. -/
def Numeric.toInt : Numeric → Except AdapterExc Int
  | .int n   => .ok n
  | .float x => intOrRaise x.toInt

section

variable (py : PyRuntime)

/-- `[+-]?\d+`. -/
def isIntegerText (text : List Char) : Bool :=
  let digits := (Literal.scanSign text).2
  !digits.isEmpty && digits.all (fun c => (py.decimal c).isSome)

/-- `[+-]?(?:\d+\.\d*|\.\d+)`. -/
def isDecimalText (text : List Char) : Bool :=
  let unsigned := (Literal.scanSign text).2
  let digit (c : Char) : Bool := (py.decimal c).isSome
  match unsigned.dropWhile digit with
  | '.' :: fraction => fraction.all digit && !((unsigned.takeWhile digit).isEmpty && fraction.isEmpty)
  | _ => false

/-- Normalise a number that may come as a text, without accepting arbitrary text. -/
def coerceNumeric (value : Json) (field : String) : Except AdapterExc Numeric :=
  let unexpected := AdapterExc.adapterError s!"unexpected {field} type: {value.typeName}"
  match value with
  | .bool _  => .error (.adapterError s!"unexpected {field} type: bool")
  | .int n   => .ok (.int n)
  | .float x => .ok (.float x)
  | .str s =>
      -- an unpaired surrogate is neither space nor digit
      let text := stripWhere spaceChar (s.chars '?')
      if isIntegerText py text then
        (intOrRaise (intOfText py.decimal (String.ofList text))).map .int
      else if isDecimalText py text then .ok (.float (py.readFloat (String.ofList text)))
      else .error unexpected
  | _ => .error unexpected

/-- `int(x)` for a member of a response. -/
def intMember (data : Json) (key : String) : Except AdapterExc Int :=
  intOrRaise ((data.getD key (.int 0)).toInt py.decimal)

/-! ## `PrepareSend` -/

/-- The daemon's preview: all the binding fields of a `PrepareSend` response. -/
structure Preview where
  sendIntentId            : Json
  amountSat               : Int
  expectedFeeSat          : Int
  feeKnown                : Bool
  expectedTotalOutflowSat : Int
  totalOutflowKnown       : Bool
  rail                    : PyStr
  paymentHash             : PyStr
  expiresAtUnix           : Int
  quoteStatus             : Json

/-- A text without a prefix of its enumeration; any other value as its `str`. -/
def enumLabel (dropped : String) : Json → PyStr
  | .str s => pyRemove s dropped
  | x      => x.pyStr

/-- Parse a raw `PrepareSendResponse`. -/
def parsePrepareResponse (data : Json) : Except AdapterExc Preview := do
  raiseIf (¬ data.isDict) (.adapterError s!"PrepareSend returned expected object, got {data.typeName}")
  let sendIntentId := data.getD "send_intent_id" (.str "")
  raiseIf (¬ sendIntentId.truthy) (.adapterError ("PrepareSend returned empty send_intent_id; " ++
      "cannot proceed without a valid intent token"))
  let expiresAt ← coerceNumeric py (data.getD "expires_at_unix" (.int 0)) "expires_at_unix"
  let feeSat ← coerceNumeric py (data.getD "expected_fee_sat" (.int 0)) "expected_fee_sat"
  let feeKnown := (data.getD "fee_known" (.bool false)).truthy
  raiseIf (¬ feeKnown)
    (.adapterError "PrepareSend returned fee_known=false; fee must be known before policy approval")
  let totalOutflowKnown := (data.getD "total_outflow_known" (.bool false)).truthy
  let totalOutflowSat ← coerceNumeric py (data.getD "expected_total_outflow_sat" (.int 0))
    "expected_total_outflow_sat"
  raiseIf (¬ totalOutflowKnown) (.adapterError ("PrepareSend returned total_outflow_known=false; " ++
      "total outflow must be known before policy approval"))
  let paymentHash := ((data.getD "payment_hash" (.str "")).pyStr?).getD ""
  raiseIf (paymentHash = "")
    (.adapterError "PrepareSend returned empty payment_hash; cannot bind a recipient receipt safely")
  let rail := enumLabel "SEND_RAIL_" (data.getD "rail" (.str ""))
  let amountSat ← coerceNumeric py (data.getD "amount_sat" (.int 0)) "amount_sat"
  let amountSat ← amountSat.toInt
  let feeSat ← feeSat.toInt
  let totalOutflowSat ← totalOutflowSat.toInt
  let expiresAt ← expiresAt.toInt
  return ⟨sendIntentId, amountSat, feeSat, feeKnown, totalOutflowSat, totalOutflowKnown, rail, paymentHash,
    expiresAt, data.getD "quote_status" (.str "")⟩

/-! ## Wallet entries -/

/-- The payment hash of an entry: at the top level, in `progress`, or in the request. Empty where there is none. -/
def extractPaymentHash (entry : Json) : PyStr :=
  let hashIn (j : Json) : Json := j.getD "payment_hash" (.str "")
  let progress := entry.getD "progress" (.obj [])
  let request := entry.getD "request" (.obj [])
  let invoice := request.getD "lightning_invoice" (.obj [])
  if (hashIn entry).truthy then (hashIn entry).pyStr
  else if progress.isDict && (hashIn progress).truthy then (hashIn progress).pyStr
  else if request.isDict && invoice.isDict && (hashIn invoice).truthy then (hashIn invoice).pyStr
  else ""

/-- The names of the status numbers. -/
def PROTO_STATUS_MAP : List (Int × PyStr) :=
  [(0, "UNSPECIFIED"), (1, "PENDING"), (2, "COMPLETE"), (3, "FAILED")]

/-- A status name in any letter case, with or without its prefix. -/
def statusName (s : PyStr) : PyStr := pyRemove (py.upper s) "ENTRY_STATUS_"

/-- What a `Send` response says. The entry's id may be any value. -/
structure SendResult where
  entryId     : Json
  paymentHash : Json
  amountSat   : Int
  feeSat      : Int
  status      : PyStr

/-- The status of a `Send` response: a name, or a number of the enumeration. -/
def sendStatus : Json → PyStr
  | .str s  => statusName py s
  | .int n  => (PROTO_STATUS_MAP.lookup n).getD (Json.int n).pyStr
  -- a truth value is an instance of int
  | .bool b => (PROTO_STATUS_MAP.lookup (if b then 1 else 0)).getD (Json.bool b).pyStr
  | x       => x.pyStr

/-- The amount actually sent, with the amount of the entry in place of zero. -/
def sentAmount (data entry : Json) : Except AdapterExc Int :=
  intMember py data "actual_amount_sat" >>= fun actual =>
    if actual = 0 then intMember py entry "amount_sat" else .ok actual

/-- Parse a raw `SendResponse`: an entry and the amount actually sent. -/
def parseSendResponse (data : Json) : Except AdapterExc SendResult := do
  raiseIf (¬ data.isDict) (.adapterError s!"Send returned expected object, got {data.typeName}")
  let entry := data.getD "entry" .null
  raiseIf (¬ entry.isDict) (.adapterError s!"SendResponse missing 'entry' dict; got {entry.typeName}")
  let entryId := entry.getD "id" (.str "")
  raiseIf (¬ entryId.truthy) (.adapterError "SendResponse entry has empty id")
  -- for Lightning sends, the id of the entry is the payment hash
  let extracted := extractPaymentHash entry
  let paymentHash := if extracted = "" then entryId else .str extracted
  let amountSat ← sentAmount py data entry
  let status := sendStatus py (entry.getD "status" (.str "UNSPECIFIED"))
  let feeSat ← intMember py entry "fee_sat"
  return ⟨entryId, paymentHash, amountSat, feeSat, status⟩

/-- What an activity entry says. -/
structure ActivityEntry where
  status      : PyStr
  amountSat   : Int
  feeSat      : Int
  paymentHash : PyStr

/-- The status of an activity entry: a name, or the `str` of any other value. -/
def activityStatus : Json → PyStr
  | .str s => statusName py s
  | x      => x.pyStr

/-- Parse an activity entry, which may be wrapped under `entry`. -/
def parseActivityEntry (data : Json) : Except AdapterExc ActivityEntry := do
  raiseIf (¬ data.isDict) (.adapterError s!"expected dict for activity entry, got {data.typeName}")
  let wrapped := data.getD "entry" .null
  let entry := if wrapped.isDict then wrapped else data
  let status := activityStatus py (entry.getD "status" (.str "UNSPECIFIED"))
  let amountSat ← intMember py entry "amount_sat"
  let feeSat ← intMember py entry "fee_sat"
  return ⟨status, amountSat, feeSat, extractPaymentHash entry⟩

end

/-- The activity entries under the envelopes in use: a bare list, a collection under one of three keys, and an
    `activity` wrapper around either. -/
def activityEntries (data : Json) : List Json :=
  match data with
  | .arr items => items.filter Json.isDict
  | .obj _ =>
      let activity := data.getD "activity" .null
      let data := if activity.isDict then activity else data
      let candidate := data.getD "entries" (data.getD "items" (data.getD "recent" (.arr [])))
      let entry := data.getD "entry" .null
      let candidate := if !candidate.truthy && entry.isDict then .arr [entry] else candidate
      match candidate with
      | .obj ms    => [.obj ms]
      | .arr items => items.filter Json.isDict
      | _          => []
  | _ => []

end HermesPayments
