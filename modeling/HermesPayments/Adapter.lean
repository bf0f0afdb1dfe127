import HermesPayments.Models

/-!
# `HermesPayments.Adapter` — the settlement adapter boundary

What the policy core knows of a settlement rail: the result records, the exceptions, and the methods it
calls. The adapter is injected, so an operation takes the adapter as the value of its methods *during that
operation*: a different operation may be answered by different functions, which is how an outside world that
changes between calls enters the model.
-/

namespace HermesPayments

open Lib

/-! ## Adapter results -/

/-- Result of a non-mutating prepare call. -/
structure PrepareResult where
  feeSat          : Int
  preparedHash    : String
  rail            : Rail
  preparedPayload : Bytes
deriving DecidableEq

/-- Result of a successful execute call. -/
structure ExecuteResult where
  settlementRef : String
  amountSat     : Int
  feeSat        : Int
  rail          : Rail
deriving DecidableEq

/-- Result of verifying a receipt against the rail. -/
structure ReceiptVerifyResult where
  verified      : Bool
  settlementRef : PyStr
  amountSat     : Int
  feeSat        : Int
  error         : Option String := none
deriving DecidableEq

/-- Read-only result of recovering an interrupted settlement dispatch. -/
structure ReconcileResult where
  status        : String
  settlementRef : PyStr := ""
  amountSat     : Int := 0
  feeSat        : Int := 0
  rail          : Option Rail := none
  verified      : Bool := false
  error         : Option String := none
deriving DecidableEq

/-! ## Adapter exceptions -/

/-- What an adapter method may raise: the declared `AdapterError`, its subclass `AmbiguousResult`, or any
    other exception. -/
inductive AdapterExc where
  | adapterError (message : String)
  | ambiguousResult (message : String)
  | other (message : String)
deriving DecidableEq

/-- `str(e)`. -/
def AdapterExc.message : AdapterExc → String
  | .adapterError m    => m
  | .ambiguousResult m => m
  | .other m           => m

/-- The methods of a settlement adapter. -/
structure SettlementAdapter where
  rail                   : Rail
  prepare                : RailReceiveInstruction → Int → Int → Except AdapterExc PrepareResult
  execute                : Bytes → String → Except AdapterExc ExecuteResult
  verifyReceipt          : String → Int → Except AdapterExc ReceiptVerifyResult
  verifySenderSettlement : String → Int → Except AdapterExc ReceiptVerifyResult
  reconcileSettlement    : Bytes → String → Int → Except AdapterExc ReconcileResult

end HermesPayments
