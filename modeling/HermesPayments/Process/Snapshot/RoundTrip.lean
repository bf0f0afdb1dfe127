import HermesPayments.Envelope.RoundTrip
import HermesPayments.Lib.Json.WellRead
import HermesPayments.Lib.Raise
import HermesPayments.Process.Snapshot

/-!
# `HermesPayments.Process.Snapshot.RoundTrip` — what is written is what is recovered

Each part of the document is read back as the part it was written from, after any change that carries the members of an
object over (`readRecord_carried`, `readMessage_carried`). So recovery over the text of a snapshot does what recovery over
the snapshot does, exceptions and effects included (`run_maybeRecoverFile`).
-/

namespace HermesPayments

open Lib PaymentState

@[simp] theorem PaymentState.ofValue?_value (s : PaymentState) : PaymentState.ofValue? s.value = some s := by
  cases s <;> rfl

@[simp] theorem messageType?_className (m : PaymentMessage) : messageType? m.className = some (kindForModel m) := by
  cases m <;> rfl

theorem payload_approval (a : PaymentApproval) : a.payload =
    .obj [("protocol_version", .str protocolVersion), ("id", .str a.id), ("intent_id", .str a.intentId),
      ("quote_id", .str a.quoteId), ("prepared_hash", .str a.preparedHash), ("approver", a.approver.modelDump),
      ("created_at", .int a.createdAt)] := rfl

/-! ## Parts -/

section

variable {rt : Runtime} {decimal : Char → Option Nat} {f : Json → Json} {id : String}

/-- What shows a member is an object that holds something. -/
theorem isDict_truthy_of_get? {j v : Json} {key : String} (h : j.get? key = some v) :
    j.isDict = true ∧ j.truthy = true := by
  cases j with
  | obj ms =>
      refine ⟨rfl, ?_⟩
      cases ms with
      | nil => cases h
      | cons m ms => rfl
  | null | bool _ | int _ | float _ | str _ | arr _ => cases h

@[simp] theorem orRaise_some {α : Type} (e : RecoverExc) (a : α) : orRaise e (some a) = .ok a := rfl

@[simp] theorem guardedInt_int (e : RecoverExc) (n : Int) : guardedInt decimal e (some (.int n)) = .ok n := rfl

@[simp] theorem intOf_int (n : Int) : intOf decimal (.int n) = .ok n := rfl

@[simp] theorem uncheckedText_str (e : RecoverExc) (s : String) : uncheckedText e (some (.str s)) = .ok s := rfl

variable (hf : Json.Carries f)

include hf

/-- A part is read back when a part that is there is truthy and read back. -/
theorem readPart_carried {α : Type} {data : Json} {key : String} {dump : α → Json} {part : Option α}
    {read : Json → Except RecoverExc α} (hdata : data.get? key = some (f (optionalPart dump part)))
    (htruthy : ∀ a, (f (dump a)).truthy = true) (hread : ∀ a, read (f (dump a)) = .ok a) :
    readPart data key read = .ok part := by
  rw [readPart, Json.getD, hdata]
  cases part with
  | none =>
      simp only [optionalPart, hf.null]
      rfl
  | some a =>
      simp only [optionalPart, Option.getD_some, htruthy a, hread a]
      rfl

theorem readPrepared_carried (p : PrepareResult) : readPrepared decimal id (f p.dump) = .ok p := by
  simp [readPrepared, PrepareResult.dump, strField, hf.get?, hf.str, hf.int, List.lookup_cons,
    Rail.ofValue?_value]
  rfl

theorem readReconciliation_carried (r : ReconcileResult) : readReconciliation decimal id (f r.dump) = .ok r := by
  have hget (key : String) (v : Json) (hv : r.dump.get? key = some v) : (f r.dump).get? key = some (f v) :=
    hf.get?_some (by simp) hv
  have hrail : readPart (f r.dump) "rail" (fun rail => orRaise
      (.exc (.processProtocolError s!"invalid reconciliation state for {redactedIdentifier id}"))
      (rail.str?.bind Rail.ofValue?)) = .ok r.rail := by
    refine readPart_carried hf (hget "rail" _ rfl) (fun rail => ?_) fun rail => ?_
    · rw [hf.str]
      cases rail
      rfl
    · rw [hf.str]
      simp [Rail.ofValue?_value]
  have herror : optionalStrField (f r.dump) "error" = some r.error := by
    rw [optionalStrField, hget "error" _ rfl]
    cases r.error with
    | none => simp [optionalPart, hf.null]
    | some e => simp [optionalPart, hf.str]
  rw [readReconciliation]
  simp only [Json.getD, hget "status" _ rfl, hget "settlement_ref" _ rfl, hget "amount_sat" _ rfl, hget "fee_sat" _ rfl,
    hget "verified" _ rfl, hf.str, hf.int, hf.bool, hrail, herror]
  rfl

/-- Every dump of a message is an object that holds something. -/
theorem truthy_payload (m : PaymentMessage) : (f m.payload).truthy = true := by
  have hget : (f m.payload).get? "id" = some (f (.str m.id)) := by
    cases m with
    | intent m => rw [payload_intent, hf.get? (by simp)]; rfl
    | quote m => rw [payload_quote, hf.get? (by simp)]; rfl
    | receipt m => rw [payload_receipt, hf.get? (by simp)]; rfl
  exact (isDict_truthy_of_get? hget).2

variable (hint : rt.ReadsIntegers)

include hint

theorem PaymentApproval.modelValidate_carried (a : PaymentApproval) :
    PaymentApproval.modelValidate rt (f a.payload) = some a := by
  rw [payload_approval]
  simp [PaymentApproval.modelValidate, versionField, strField, intField, hf.get?, hf.str, hf.int,
    List.lookup_cons, AgentIdentity.modelValidate_carried hf, hint _]

/-- **A record is read back** as the record that recovery restores. -/
theorem readRecord_carried (d : SnapshotRecord) : readRecord rt decimal id (f d.dump) = .ok (some d.restore) := by
  have hget (key : String) (v : Json) (hv : d.dump.get? key = some v) : (f d.dump).get? key = some (f v) :=
    hf.get?_some (by simp) hv
  have hdict : (f d.dump).isDict = true := (isDict_truthy_of_get? (hget "state" _ rfl)).1
  have htruthy := truthy_payload hf
  have hexpires : (f (PaymentMessage.intent d.intent).payload).getD "expires_at" (.int 0) = .int d.intent.expiresAt := by
    rw [payload_intent, Json.getD, hf.get?_some (by simp) (v := .int d.intent.expiresAt) rfl, hf.int]
    rfl
  have hquote : readPart (f d.dump) "quote" (fun q => orRaise (.exc .validationError) (PaymentQuote.modelValidate rt q))
      = .ok d.quote :=
    readPart_carried hf (hget "quote" _ rfl) (fun q => htruthy (.quote q)) fun q => by
      rw [PaymentQuote.modelValidate_carried hf hint]
      rfl
  have hprepared : readPart (f d.dump) "prepared" (readPrepared decimal id) = .ok d.prepared :=
    readPart_carried hf (hget "prepared" _ rfl)
      (fun p => (isDict_truthy_of_get? (hf.get? (by simp) "fee_sat")).2) fun p => readPrepared_carried hf p
  have happroval : readPart (f d.dump) "approval"
      (fun a => orRaise (.exc .validationError) (PaymentApproval.modelValidate rt a)) = .ok d.approval :=
    readPart_carried hf (hget "approval" _ rfl)
      (fun a => (isDict_truthy_of_get? (hf.get? (by simp) "id")).2) fun a => by
      rw [PaymentApproval.modelValidate_carried hf hint]
      rfl
  have hreceipt : readPart (f d.dump) "receipt"
      (fun rc => orRaise (.exc .validationError) (PaymentReceipt.modelValidate rt rc)) = .ok d.receipt :=
    readPart_carried hf (hget "receipt" _ rfl) (fun rc => htruthy (.receipt rc)) fun rc => by
      rw [PaymentReceipt.modelValidate_carried hf hint]
      rfl
  have hreconciliation : readPart (f d.dump) "reconciliation" (readReconciliation decimal id) = .ok d.reconciliation :=
    readPart_carried hf (hget "reconciliation" _ rfl)
      (fun r => (isDict_truthy_of_get? (hf.get? (by simp) "status")).2) fun r => readReconciliation_carried hf r
  have hintent : (f d.dump).getD "intent" .null = f (PaymentMessage.intent d.intent).payload := by
    rw [Json.getD, hget "intent" _ rfl]
    rfl
  rw [readRecord]
  simp only [hintent, hdict, htruthy, Bool.and_self, if_true, PaymentIntent.modelValidate_carried hf hint, orRaise_some,
    ok_bind, hget "state" _ rfl, hf.str, Json.str?_str, Option.bind_some, PaymentState.ofValue?_value, hexpires, intOf_int,
    hquote, hprepared, happroval, hreceipt, hreconciliation]
  rfl

/-- **A message is read back.** -/
theorem readMessage_carried (m : PeerMessage) : readMessage rt decimal (f m.dump) = .ok m := by
  have hmessage := modelValidate_carried hf hint m.message
  simp [readMessage, PeerMessage.dump, strField, hf.get?, hf.str, hf.int, List.lookup_cons,
    AgentIdentity.modelValidate_carried hf, ok_bind, hmessage]

end

/-! ## The document -/

/-- The records stand in the order in which they are written. -/
def ProcessSnapshot.Sorted (snapshot : ProcessSnapshot) : Prop :=
  snapshotOptions.order snapshot.records.entries = snapshot.records.entries

theorem ProcessState.snapshot_sorted (s : ProcessState) : s.snapshot.Sorted := by
  exact Json.order_order (o := snapshotOptions) rfl rfl _

section

variable {rt : Runtime} {snapshot : ProcessSnapshot}

/-- What the reader makes of a value that was written to the file. -/
abbrev fromFile (rt : Runtime) : Json → Json := Json.reread rt.readFloat snapshotOptions

theorem loadSnapshot_text (hlimit : rt.limit snapshot.text = none) : loadSnapshot rt (some snapshot.text)
    = .ok (fromFile rt (snapshotDocument snapshot.records.entries snapshot.inbox)) := by
  have hloads : Json.loads rt.readFloat snapshot.text = _ := Json.loads_dumps (Json.standard_default true true) _
  simp only [loadSnapshot, jsonLoads, hlimit, hloads]
  rfl

theorem get?_document (key : String) (v : Json)
    (hv : (snapshotDocument snapshot.records.entries snapshot.inbox).get? key = some v) :
    (fromFile rt (snapshotDocument snapshot.records.entries snapshot.inbox)).get? key = some (fromFile rt v) :=
  (Json.carries_reread _ _).get?_some (by simp) hv

theorem snapshotRecords_document (hsorted : snapshot.Sorted) :
    snapshotRecords (fromFile rt (snapshotDocument snapshot.records.entries snapshot.inbox))
      = .ok (snapshot.records.entries.map fun e => (.text e.1, fromFile rt e.2.dump)) := by
  have hnd := Json.nodup_textKeys snapshot.records.nodup SnapshotRecord.dump
  have hrecords : fromFile rt (.obj (snapshot.records.entries.map fun e => (.text e.1, e.2.dump)))
      = .obj (snapshot.records.entries.map fun e => (.text e.1, fromFile rt e.2.dump)) := by
    rw [fromFile, Json.reread_obj_of_nodup hnd,
      Json.DumpsOptions.order_mapKeys _ (fun _ _ => PyStr.text_le_text) SnapshotRecord.dump, hsorted, List.map_map]
    rfl
  have hget : (fromFile rt (snapshotDocument snapshot.records.entries snapshot.inbox)).get? "records"
      = some (fromFile rt (.obj (snapshot.records.entries.map fun e => (.text e.1, e.2.dump)))) :=
    get?_document "records" _ rfl
  rw [snapshotRecords, (isDict_truthy_of_get? hget).1, if_pos rfl, Json.getD, hget, hrecords]
  rfl

theorem inbox_document (rt : Runtime) (snapshot : ProcessSnapshot) :
    (fromFile rt (snapshotDocument snapshot.records.entries snapshot.inbox)).getD "inbox" (.arr [])
      = .arr (snapshot.inbox.map fun m => fromFile rt m.dump) := by
  rw [Json.getD, get?_document "inbox" _ rfl]
  show fromFile rt (.arr (snapshot.inbox.map PeerMessage.dump)) = _
  rw [fromFile, Json.reread, Json.rereadItems_eq, List.map_map]
  rfl

/-! ## Recovery -/

variable {decimal : Char → Option Nat} (config : ProcessConfig) (env : String → Env) (reconcile : Bool)
  (hint : rt.ReadsIntegers)

include hint

theorem recoverEntries_document (entries : List (String × SnapshotRecord)) :
    recoverEntries rt decimal config env reconcile (entries.map fun e => (.text e.1, fromFile rt e.2.dump))
      = (recoverRecords config env reconcile entries).mapError .exc := by
  induction entries with
  | nil => rfl
  | cons e rest ih =>
      have hread : readRecord rt decimal e.1 (fromFile rt e.2.dump) = .ok (some e.2.restore) :=
        readRecord_carried (Json.carries_reread _ _) hint e.2
      rw [List.map_cons, recoverEntries, PyStr.display_text, hread, recoverRecords, Proc.mapError_bind, ih]
      rfl

theorem run_recoverInbox (inbox : List PeerMessage) (s : ProcessState) :
    (recoverInbox rt decimal (inbox.map fun m => fromFile rt m.dump)).run s
      = ⟨.ok (), { s with inbox := inbox.foldl Inbox.add s.inbox }, []⟩ := by
  induction inbox generalizing s with
  | nil => rfl
  | cons m rest ih =>
      have hread : readMessage rt decimal (fromFile rt m.dump) = .ok m :=
        readMessage_carried (Json.carries_reread _ _) hint m
      rw [List.map_cons, recoverInbox, hread]
      exact ih _

/-- **Recovery over the text of the snapshot** is recovery over the snapshot. -/
theorem run_maybeRecoverFile (s : ProcessState)
    (hfile : ∀ snapshot, s.file = some snapshot → snapshot.Sorted ∧ rt.limit snapshot.text = none) :
    (maybeRecoverFile rt decimal config env reconcile (s.file.map ProcessSnapshot.text)).run s
      = ((maybeRecover config env reconcile).mapError .exc).run s := by
  have hget : (Proc.get : Process ProcessState).run s = ⟨.ok s, s, []⟩ := rfl
  rw [maybeRecoverFile, maybeRecover, Proc.run_mapError, Proc.run_bind_ok hget, Proc.after_nil]
  cases hs : s.file with
  | none => rfl
  | some snapshot =>
      obtain ⟨hsorted, hlimit⟩ := hfile snapshot hs
      have hne : (snapshot.records.entries.map fun e => (PyStr.text e.1, fromFile rt e.2.dump)) ≠ [] ↔
          snapshot.records.entries ≠ [] := by simp
      rw [Option.map_some, loadSnapshot_text hlimit, Proc.run_ok_bind, snapshotRecords_document hsorted, Proc.run_ok_bind,
        recoverEntries_document config env reconcile hint, inbox_document, Proc.run_bind, Proc.run_mapError, Proc.run_bind]
      rcases (recoverRecords config env reconcile snapshot.records.entries).run s with ⟨_ | ⟨⟩, s', es⟩
      · rfl
      · simp only [Except.mapError]
        rw [Proc.run_bind_ok (run_recoverInbox hint snapshot.inbox s'), Proc.run_bind_ok (Proc.run_modify _ s')]
        simp only [hne]
        by_cases hempty : snapshot.records.entries = []
        · rw [if_neg (not_not.mpr hempty), if_neg (not_not.mpr hempty)]
          rfl
        · rw [if_pos hempty, if_pos hempty]
          rfl

end

end HermesPayments
