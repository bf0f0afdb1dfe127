import HermesPayments.Lib.Dict
import HermesPayments.Models
import Mathlib.Data.Finset.Insert

/-!
# `HermesPayments.Store` — the idempotency store and the audit log

`IdempotencyStore` is the content of the store: the same three collections sit in memory and, after a save,
in the JSON file that replaces the previous one. `AuditEntry` is one line of the audit log.
-/

namespace HermesPayments

open Lib

/-! ## Idempotency store -/

/-- Intent ids, approval keys and receipt bindings. -/
structure IdempotencyStore where
  intents   : Finset String
  approvals : Finset String
  receipts  : Dict String String
deriving DecidableEq

namespace IdempotencyStore

/-- The store of a path that does not exist yet. -/
def empty : IdempotencyStore := ⟨∅, ∅, Dict.empty⟩

def hasIntent (s : IdempotencyStore) (intentId : String) : Bool := intentId ∈ s.intents

def addIntent (s : IdempotencyStore) (intentId : String) : IdempotencyStore :=
  { s with intents := insert intentId s.intents }

/-- The replay key of an approval triple. -/
def approvalKey (intentId quoteId preparedHash : String) : String :=
  s!"{intentId}:{quoteId}:{preparedHash}"

def hasApproval (s : IdempotencyStore) (intentId quoteId preparedHash : String) : Bool :=
  approvalKey intentId quoteId preparedHash ∈ s.approvals

def addApproval (s : IdempotencyStore) (intentId quoteId preparedHash : String) : IdempotencyStore :=
  { s with approvals := insert (approvalKey intentId quoteId preparedHash) s.approvals }

def hasReceipt (s : IdempotencyStore) (intentId : String) : Bool := (s.receipts.get? intentId).isSome

def addReceipt (s : IdempotencyStore) (intentId settlementRef : String) : IdempotencyStore :=
  { s with receipts := s.receipts.set intentId settlementRef }

def getReceipt (s : IdempotencyStore) (intentId : String) : Option String := s.receipts.get? intentId

/-! ### Each record touches one collection -/

@[simp] theorem intents_addIntent (s : IdempotencyStore) (i : String) :
    (s.addIntent i).intents = insert i s.intents := rfl
@[simp] theorem approvals_addIntent (s : IdempotencyStore) (i : String) :
    (s.addIntent i).approvals = s.approvals := rfl
@[simp] theorem receipts_addIntent (s : IdempotencyStore) (i : String) :
    (s.addIntent i).receipts = s.receipts := rfl
@[simp] theorem intents_addApproval (s : IdempotencyStore) (i q h : String) :
    (s.addApproval i q h).intents = s.intents := rfl
@[simp] theorem approvals_addApproval (s : IdempotencyStore) (i q h : String) :
    (s.addApproval i q h).approvals = insert (approvalKey i q h) s.approvals := rfl
@[simp] theorem receipts_addApproval (s : IdempotencyStore) (i q h : String) :
    (s.addApproval i q h).receipts = s.receipts := rfl
@[simp] theorem intents_addReceipt (s : IdempotencyStore) (i r : String) :
    (s.addReceipt i r).intents = s.intents := rfl
@[simp] theorem approvals_addReceipt (s : IdempotencyStore) (i r : String) :
    (s.addReceipt i r).approvals = s.approvals := rfl
@[simp] theorem receipts_addReceipt (s : IdempotencyStore) (i r : String) :
    (s.addReceipt i r).receipts = s.receipts.set i r := rfl

end IdempotencyStore

/-! ## Audit log -/

inductive AuditValue where
  | str (s : String)
  | int (n : Int)
deriving DecidableEq

/-- One audit entry: its sequence number, the event, and the keyword fields. -/
structure AuditEntry where
  seq    : Nat
  event  : String
  fields : List (String × AuditValue)
deriving DecidableEq

/-- A keyword of an entry. -/
def AuditEntry.field? (e : AuditEntry) (key : String) : Option AuditValue := e.fields.lookup key

end HermesPayments
