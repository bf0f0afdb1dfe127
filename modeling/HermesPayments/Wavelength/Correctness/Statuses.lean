import HermesPayments.Wavelength.Correctness.Failures
import HermesPayments.Wavelength.Correctness.Search

/-!
# `HermesPayments.Wavelength.Correctness.Statuses` — two readers of one status

A wallet entry names its status or gives its number in the enumeration. The reader of a `Send` response maps the numbers
to their names; the reader of activity entries writes every number out. So the two read the status of one entry alike
exactly when it is not given by number (`statuses_alike_iff`), and then recovery and receipt verification come to the end
that `execute` came to. `numbered_completion_lost` is a payment that completes for `execute` alone.
-/

namespace HermesPayments

open Lib WavelengthAdapter

/-- The status is given by its number in the enumeration. A truth value counts as 0 or 1. -/
def isNumbered : Json → Bool
  | .int n  => 0 ≤ n ∧ n ≤ 3
  | .bool _ => true
  | _       => false

namespace WavelengthAdapter

/-- The call raised that the payment was dispatched and is pending. -/
def ReportsPending (executed : Except AdapterExc SendOutcome) : Prop :=
  ∃ entry : String, executed = .error (.ambiguousResult (s!"raw Send dispatched but status is PENDING (entry {entry}); " ++
    "settlement not confirmed — manual verification required"))

section

variable (w : WavelengthAdapter) (py : PyRuntime)

/-- The scan for a payment hash comes to this entry. -/
inductive Reached (ref : PyStr) (entry : Json) : List Json → Prop
  | here (rest : List Json) : Reached ref entry (entry :: rest)
  | later {e : Json} {rest : List Json} (hskip : Skipped py ref e) (hrest : Reached ref entry rest) :
      Reached ref entry (e :: rest)

/-- The `Send` of this payload was answered by a response that confirms the payment, its status apart. -/
def Answered (env : WavecliEnv) (payload : Bytes) (preparedHash : String) (data : Json) (result : SendResult) : Prop :=
  ∃ decoded token, checkPayload py env payload preparedHash = .ok (decoded, token) ∧
    env.executor (w.sendCmd token) = .ok data ∧ Confirms decoded { result with status := "COMPLETE" }

/-- Once `execute` was answered by the response, recovery and receipt verification come to the same end when they come to
    the entry, in an activity that shows the amount they look for. -/
structure TreatedAlike (data entry : Json) (result : SendResult) (parsed : ActivityEntry) : Prop where
  reconciled : ∀ (env env' : WavecliEnv) (payload : Bytes) (preparedHash : String) (activity : Json),
    Answered w py env payload preparedHash data result →
    Prepared py payload preparedHash parsed.paymentHash parsed.amountSat.natAbs →
    env'.executor (w.activityCmd "send") = .ok activity →
    Reached py parsed.paymentHash entry (activityEntries activity) →
    let executed := ((w.execute py env payload preparedHash).run ()).result
    ∃ r, ((w.reconcileSettlement py env' payload preparedHash parsed.amountSat.natAbs).run ()).result = .ok r ∧
      ((∃ out, executed = .ok out) ↔ r.status = "COMPLETE") ∧ (ReportsPending executed ↔ r.status = "PENDING")
  verified : ∀ (env env' : WavecliEnv) (payload : Bytes) (preparedHash : String) (kind : ActivityKind) (activity : Json),
    Answered w py env payload preparedHash data result →
    env'.executor (w.activityCmd kind.value) = .ok activity →
    Reached py parsed.paymentHash entry (activityEntries activity) →
    let executed := ((w.execute py env payload preparedHash).run ()).result
    ∃ v, ((w.verify py env' kind parsed.paymentHash (kind.amount parsed.amountSat)).run ()).result = .ok v ∧
      ((∃ out, executed = .ok out) ↔ v.verified = true)

end

section

variable {w : WavelengthAdapter} {py : PyRuntime}

/-! ## The two readers -/

/-- Only the numbers of the enumeration have a name. -/
theorem lookup_PROTO_STATUS_MAP {n : Int} (h : isNumbered (.int n) = false) : PROTO_STATUS_MAP.lookup n = none := by
  have hout : ¬ (0 ≤ n ∧ n ≤ 3) := of_decide_eq_false h
  refine List.lookup_eq_none_iff.mpr ?_
  intro p hp
  -- the keys of the map are the numbers of the enumeration
  have hkey : 0 ≤ p.1 ∧ p.1 ≤ 3 := by
    revert p
    decide
  rw [bne_iff_ne]
  rintro rfl
  exact hout hkey

/-- A number of the enumeration is never written as its name. -/
theorem name_ne_number {n : Int} (h : isNumbered (.int n) = true) :
    sendStatus py (.int n) ≠ activityStatus py (.int n) := by
  obtain ⟨hlow, hhigh⟩ : 0 ≤ n ∧ n ≤ 3 := of_decide_eq_true h
  obtain rfl | rfl | rfl | rfl : n = 0 ∨ n = 1 ∨ n = 2 ∨ n = 3 := by omega
  · show PyStr.text "UNSPECIFIED" ≠ PyStr.text "0"
    decide
  · show PyStr.text "PENDING" ≠ PyStr.text "1"
    decide
  · show PyStr.text "COMPLETE" ≠ PyStr.text "2"
    decide
  · show PyStr.text "FAILED" ≠ PyStr.text "3"
    decide

/-- **The two readers agree on a status** exactly when it is not given by number. -/
theorem sendStatus_eq_activityStatus_iff (status : Json) :
    sendStatus py status = activityStatus py status ↔ isNumbered status = false := by
  cases status with
  | str s => exact iff_of_true rfl rfl
  | int n =>
      cases hnumbered : isNumbered (.int n) with
      | true => exact iff_of_false (name_ne_number hnumbered) Bool.noConfusion
      | false =>
          -- a number without a name is written out by both
          refine iff_of_true ?_ rfl
          show (PROTO_STATUS_MAP.lookup n).getD (Json.int n).pyStr = _
          rw [lookup_PROTO_STATUS_MAP hnumbered]
          rfl
  | bool b =>
      refine iff_of_false ?_ Bool.noConfusion
      cases b with
      | true =>
          show PyStr.text "PENDING" ≠ PyStr.text "True"
          decide
      | false =>
          show PyStr.text "UNSPECIFIED" ≠ PyStr.text "False"
          decide
  | null | float _ | arr _ | obj _ => exact iff_of_true rfl rfl

/-! ## What `execute` concludes -/

section

variable {env : WavecliEnv} {payload : Bytes} {preparedHash : String} {data decoded : Json} {result : SendResult}

/-- What `execute` answers is what it makes of the response. -/
theorem result_execute_answered (h : Answered w py env payload preparedHash data result)
    (hsend : parseSendResponse py data = .ok result) :
    ∃ decoded, decodePayload py payload = .ok decoded ∧ Confirms decoded { result with status := "COMPLETE" } ∧
      ((w.execute py env payload preparedHash).run ()).result = interpretSend py decoded result := by
  obtain ⟨decoded, token, hchecked, hanswer, hconfirms⟩ := h
  refine ⟨decoded, (checkPayload_eq_ok.mp hchecked).2.1, hconfirms, ?_⟩
  rw [result_execute, hchecked]
  show (sendAnswer py (env.executor (w.sendCmd token)) >>= _) = _
  rw [sendAnswer_eq_ok.mpr hanswer]
  show (parseSendResponse py data >>= _) = _
  rw [hsend]
  rfl

/-- A response that confirms the payment but for the status is accepted exactly for the status `COMPLETE`. -/
theorem interpretSend_returns_iff (h : Confirms decoded { result with status := "COMPLETE" }) :
    (∃ out, interpretSend py decoded result = .ok out) ↔ result.status = "COMPLETE" := by
  constructor
  · rintro ⟨out, hout⟩
    exact (interpretSend_ok hout).1.complete
  · intro hcomplete
    have hconfirms : Confirms decoded result := ⟨hcomplete, h.named, h.amountSat, h.entryId, h.paymentHash⟩
    exact ⟨_, interpretSend_of_confirms hconfirms⟩

/-- An unknown status is not reported as pending. -/
theorem unknown_not_pending (status entry : String) : s!"unknown send status: {status}" ≠
    s!"raw Send dispatched but status is PENDING (entry {entry}); " ++
      "settlement not confirmed — manual verification required" := by
  show "unknown send status: " ++ status ≠ "raw Send dispatched but status is PENDING (entry " ++ entry ++ "); " ++
    "settlement not confirmed — manual verification required"
  intro h
  -- the two texts differ in their first character
  have hfirst := congrArg (fun s : String => s.toList.head?) h
  simp at hfirst

/-- … and reported as pending exactly for the status `PENDING`. -/
theorem reportsPending_interpretSend_iff {id : PyStr} (h : Confirms decoded { result with status := "COMPLETE" })
    (hid : result.entryId = .str id) :
    ReportsPending (interpretSend py decoded result) ↔ result.status = "PENDING" := by
  constructor
  · rintro ⟨entry, hraised⟩
    by_contra hpending
    by_cases hfailed : result.status = "FAILED"
    · rw [interpretSend, if_pos hfailed, hid] at hraised
      cases hraised
    by_cases hcomplete : result.status = "COMPLETE"
    · -- a completed payment is returned
      obtain ⟨out, hout⟩ := (interpretSend_returns_iff h).mpr hcomplete
      cases hout.symm.trans hraised
    · rw [interpretSend, if_neg hfailed, if_neg hpending, raiseIf, if_pos hcomplete] at hraised
      exact unknown_not_pending _ _ (AdapterExc.ambiguousResult.inj (Except.error.inj hraised))
  · intro hpending
    refine ⟨redactSensitive py.isAlnum id.display, ?_⟩
    rw [interpretSend, if_neg (by rw [hpending]; decide), if_pos hpending, hid]
    rfl

end

/-! ## What the scans conclude -/

section

variable {ref : PyStr} {amountSat : Int} {entry : Json} {entries rest : List Json} {parsed : ActivityEntry}

/-- A scan that passes over what it skips ends as it does at the entry it comes to. -/
theorem Reached.scan {α : Type} {f : List Json → α} (h : Reached py ref entry entries)
    (hskip : ∀ e rest, Skipped py ref e → f (e :: rest) = f rest) : ∃ rest, f entries = f (entry :: rest) := by
  induction h with
  | here rest => exact ⟨rest, rfl⟩
  | @later e rest hpassed _ ih =>
      rw [hskip e rest hpassed]
      exact ih

theorem reconcileScan_skip (h : Skipped py ref entry) :
    reconcileScan py ref amountSat (entry :: rest) = reconcileScan py ref amountSat rest := by
  rcases h with ⟨parsed, hparse, hhash⟩ | ⟨e, hparse, hcaught⟩
  · rw [reconcileScan, hparse]
    exact if_pos hhash
  · rw [reconcileScan, hparse]
    cases e with
    | other m => exact absurd rfl (hcaught m)
    | adapterError m | ambiguousResult m => rfl

/-- What recovery makes of the entry under the hash, when it shows the amount. -/
theorem reconcileScan_at (rest : List Json) (hparse : parseActivityEntry py entry = .ok parsed) :
    ∃ r, reconcileScan py parsed.paymentHash parsed.amountSat.natAbs (entry :: rest) = .ok r ∧
      (r.status = "COMPLETE" ↔ parsed.status = "COMPLETE") ∧ (r.status = "PENDING" ↔ parsed.status = "PENDING") := by
  rw [reconcileScan, hparse]
  simp only [ne_eq, not_true_eq_false, if_false]
  by_cases hcomplete : parsed.status = "COMPLETE"
  · rw [if_pos hcomplete, hcomplete]
    exact ⟨_, rfl, by simp, by simp⟩
  by_cases hpending : parsed.status = "PENDING"
  · rw [if_neg hcomplete, if_pos hpending, hpending]
    exact ⟨_, rfl, by simp, by simp⟩
  · rw [if_neg hcomplete, if_neg hpending]
    have hunknown : "UNKNOWN" ≠ "PENDING" := by decide
    exact ⟨_, rfl, iff_of_false unknown_ne_complete hcomplete, iff_of_false hunknown hpending⟩

end

/-! ## Alike to the end -/

/-- The payload that is recovered names the payment by a text, and so does an id that equals it. -/
theorem entryId_of_prepared {payload : Bytes} {preparedHash : String} {ref : PyStr} {amountSat : Int} {decoded entryId : Json}
    (h : Prepared py payload preparedHash ref amountSat) (hdecode : decodePayload py payload = .ok decoded)
    (hentry : entryId.pyEq (decoded.getD "payment_hash" .null) = true) : entryId = .str ref := by
  obtain ⟨decoded', hdecode', _, hhash, _⟩ := h.decodes
  obtain rfl := Except.ok.inj (hdecode.symm.trans hdecode')
  have hbound : decoded.getD "payment_hash" .null = .str ref := by
    refine Json.getD_of_ne_default hhash ?_
    rintro ⟨⟩
    exact h.ref_ne rfl
  rw [hbound] at hentry
  exact Json.pyEq_str hentry

/-- **The same status comes to the same end.** -/
theorem treatedAlike_of_status_eq {data entry : Json} {result : SendResult} {parsed : ActivityEntry}
    (hsend : parseSendResponse py data = .ok result) (hactivity : parseActivityEntry py entry = .ok parsed)
    (hstatus : result.status = parsed.status) : TreatedAlike w py data entry result parsed := by
  constructor
  · intro env env' payload preparedHash activity hanswered hprepared hqueried hreached executed
    obtain ⟨decoded, hdecode, hconfirms, hexecuted⟩ := result_execute_answered hanswered hsend
    have hid : result.entryId = .str parsed.paymentHash := entryId_of_prepared hprepared hdecode hconfirms.entryId
    obtain ⟨rest, hscan⟩ : ∃ rest,
        reconcileScan py parsed.paymentHash parsed.amountSat.natAbs (activityEntries activity)
          = reconcileScan py parsed.paymentHash parsed.amountSat.natAbs (entry :: rest) :=
      hreached.scan fun _ _ => reconcileScan_skip
    obtain ⟨r, hr, hcomplete, hpending⟩ := reconcileScan_at rest hactivity
    refine ⟨r, ?_, ?_, ?_⟩
    · rw [run_reconcileSettlement_prepared hprepared, hqueried]
      exact hscan.trans hr
    · rw [hcomplete, ← hstatus, ← interpretSend_returns_iff hconfirms, ← hexecuted]
    · rw [hpending, ← hstatus, ← reportsPending_interpretSend_iff hconfirms hid, ← hexecuted]
  · intro env env' payload preparedHash kind activity hanswered hqueried hreached executed
    obtain ⟨decoded, _, hconfirms, hexecuted⟩ := result_execute_answered hanswered hsend
    obtain ⟨rest, hscan⟩ : ∃ rest,
        verifyScan py kind parsed.paymentHash (kind.amount parsed.amountSat) (activityEntries activity)
          = verifyScan py kind parsed.paymentHash (kind.amount parsed.amountSat) (entry :: rest) :=
      hreached.scan fun _ _ => verifyScan_skip
    obtain ⟨v, hv, hverified⟩ : ∃ v,
        verifyScan py kind parsed.paymentHash (kind.amount parsed.amountSat) (entry :: rest) = .ok v ∧
          (v.verified = true ↔ Accepts kind (kind.amount parsed.amountSat) parsed) := verifyScan_at hactivity rfl
    -- the amount is the one looked for, so the status alone decides
    have haccepts : Accepts kind (kind.amount parsed.amountSat) parsed ↔ parsed.status = "COMPLETE" := and_iff_left rfl
    refine ⟨v, ?_, ?_⟩
    · rw [result_verify, hqueried]
      exact hscan.trans hv
    · rw [hverified, haccepts, ← hstatus, ← interpretSend_returns_iff hconfirms, ← hexecuted]

/-- **Both readers read a status alike**, and the calls that branch on it come to the same end, exactly when the status
    is not given by number. The activity may show the entry itself, or wrapped. -/
theorem statuses_alike_iff (w : WavelengthAdapter) (py : PyRuntime) {data entry : Json} {result : SendResult}
    {parsed : ActivityEntry} (hsend : parseSendResponse py data = .ok result)
    (hactivity : parseActivityEntry py entry = .ok parsed) (hsame : unwrapEntry entry = sentEntry data) :
    (result.status = parsed.status ∧ TreatedAlike w py data entry result parsed) ↔
      isNumbered ((sentEntry data).getD "status" (.str "UNSPECIFIED")) = false := by
  obtain ⟨_, _, hsent⟩ := parseSendResponse_ok hsend
  obtain ⟨_, hread, _⟩ := parseActivityEntry_ok hactivity
  rw [hsame] at hread
  have hstatus : result.status = parsed.status ↔
      isNumbered ((sentEntry data).getD "status" (.str "UNSPECIFIED")) = false := by
    rw [hsent, hread]
    exact sendStatus_eq_activityStatus_iff _
  rw [← hstatus]
  constructor
  · exact And.left
  · intro heq
    exact ⟨heq, treatedAlike_of_status_eq hsend hactivity heq⟩

end

end WavelengthAdapter

namespace Sample

/-- The wallet's entry of the sample payment, with this status. -/
def walletEntry (status : Json) : Json :=
  .obj [("id", .str "aa"), ("status", status), ("amount_sat", .int (-1000)), ("fee_sat", .int 2),
    ("progress", .obj [("payment_hash", .str "aa")])]

/-- The `Send` response that holds the entry. -/
def sentEntryResponse (status : Json) : Json := .obj [("entry", walletEntry status), ("actual_amount_sat", .int 1000)]

end Sample

/-- The sample payment, completed under the name of the status with its prefix. -/
theorem statuses_alike_completed : ∃ result parsed,
    parseSendResponse Sample.py (Sample.sentEntryResponse (.str "ENTRY_STATUS_COMPLETE")) = .ok result ∧
    parseActivityEntry Sample.py (Sample.walletEntry (.str "ENTRY_STATUS_COMPLETE")) = .ok parsed ∧
    result.status = parsed.status ∧ TreatedAlike Sample.wavelength Sample.py
      (Sample.sentEntryResponse (.str "ENTRY_STATUS_COMPLETE")) (Sample.walletEntry (.str "ENTRY_STATUS_COMPLETE"))
      result parsed :=
  ⟨_, _, rfl, rfl, (statuses_alike_iff Sample.wavelength Sample.py rfl rfl rfl).mpr rfl⟩

/-- **A completed payment is lost** when its status is the number 2: `execute` returns, recovery knows nothing of it, and
    its receipt is not verified. -/
theorem numbered_completion_lost :
    (parseSendResponse Sample.py (Sample.sentEntryResponse (.int 2))).map SendResult.status = .ok "COMPLETE" ∧
    (parseActivityEntry Sample.py (Sample.walletEntry (.int 2))).map ActivityEntry.status = .ok "2" ∧
    (∃ out, ((Sample.wavelength.execute Sample.py (Sample.answering (.ok (Sample.sentEntryResponse (.int 2)))).wavecli
      (preparedPayload Sample.preview "invoice A" 10) "hash").run ()).result = .ok out) ∧
    (∃ r, ((Sample.wavelength.reconcileSettlement Sample.py
      (Sample.answering (.ok (.arr [Sample.walletEntry (.int 2)]))).wavecli
      (preparedPayload Sample.preview "invoice A" 10) "hash" 1000).run ()).result = .ok r ∧ r.status = "UNKNOWN") ∧
    ∃ v, ((Sample.wavelength.verifySenderSettlement Sample.py
      (Sample.answering (.ok (.arr [Sample.walletEntry (.int 2)]))).wavecli "aa" 1000).run ()).result = .ok v ∧
      v.verified = false := by
  refine ⟨rfl, rfl, ?_, ?_, ?_⟩
  · have hanswered : Answered Sample.wavelength Sample.py
        (Sample.answering (.ok (Sample.sentEntryResponse (.int 2)))).wavecli (preparedPayload Sample.preview "invoice A" 10)
        "hash" (Sample.sentEntryResponse (.int 2)) ⟨.str "aa", .str "aa", 1000, 2, "COMPLETE"⟩ :=
      ⟨_, _, Sample.payload_checked _, rfl, Sample.confirms 2⟩
    obtain ⟨decoded, _, hconfirms, hexecuted⟩ := result_execute_answered hanswered rfl
    rw [hexecuted]
    exact (interpretSend_returns_iff hconfirms).mpr rfl
  · rw [run_reconcileSettlement_prepared Sample.payload_prepared]
    exact ⟨_, rfl, rfl⟩
  · exact ⟨_, rfl, rfl⟩

end HermesPayments
