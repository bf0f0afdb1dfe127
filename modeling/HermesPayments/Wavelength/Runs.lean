import HermesPayments.Policy.Runs
import HermesPayments.Wavelength.Results

/-!
# `HermesPayments.Wavelength.Runs` — an orchestrator over the Wavelength adapter

The runs of an orchestrator whose adapter is a `WavelengthAdapter`: the adapter stays, and each call meets its own
clock and executor. Every prepared result that a record of such a run holds was bound by the adapter for the intent of
that record (`WavelengthRun.previewed`), so its payload is the payload of a preview within the fee cap.
-/

namespace HermesPayments

open Lib PaymentState WavelengthAdapter

/-- What the outside answers during one operation over the adapter. -/
structure WavelengthEnv where
  now       : Int
  wavecli   : WavecliEnv
  saveFails : Bool

/-- The environment as the policy core sees it. -/
def WavelengthEnv.toEnv (w : WavelengthAdapter) (py : PyRuntime) (env : WavelengthEnv) : Env :=
  ⟨env.now, w.settlementAdapter py env.wavecli, env.saveFails⟩

/-- One observed call over the adapter. -/
structure WavelengthCall where
  op      : Op
  env     : WavelengthEnv
  result  : Except Exc Answer
  effects : List Effect

section

variable (cfg : Config) (w : WavelengthAdapter) (py : PyRuntime)

/-- The call as the policy core sees it. -/
def WavelengthCall.toCall (c : WavelengthCall) : Call := ⟨c.op, c.env.toEnv w py, c.result, c.effects⟩

/-- The call `c` leads from `o` to `o'`. -/
def WavelengthCalls (o : PaymentOrchestrator) (c : WavelengthCall) (o' : PaymentOrchestrator) : Prop :=
  Calls cfg o (c.toCall w py) o'

abbrev WavelengthHistory := List (Event PaymentOrchestrator WavelengthCall)

/-- The runs of one orchestrator over the adapter. -/
abbrev WavelengthRun (h : WavelengthHistory) (o : PaymentOrchestrator) : Prop :=
  Run Fresh (WavelengthCalls cfg w py) h o

end

section

variable {cfg : Config} {w : WavelengthAdapter} {py : PyRuntime} {h : WavelengthHistory} {o o' : PaymentOrchestrator}

theorem WavelengthRun.consistent (hrun : WavelengthRun cfg w py h o) : o.Consistent :=
  hrun.invariant (fun _ h0 => h0.consistent) fun _ _ _ ho hcall => Calls.consistent hcall ho

/-- **A property of one record** that holds at submission, and that every call keeps, holds in every state reached. -/
theorem WavelengthRun.record {P : IntentRecord → Prop} (hinit : ∀ i, P (PaymentOrchestrator.submittedRecord i))
    (hkeep : ∀ env es op res id r r', RecordStep (WavelengthEnv.toEnv w py env) es op res id r r' → P r → P r')
    (hrun : WavelengthRun cfg w py h o) {id : String} {r : IntentRecord} (hr : o.record? id = some r) : P r := by
  have hall : ∀ id r, o.record? id = some r → P r := by
    refine hrun.invariant (I := fun o => ∀ id r, o.record? id = some r → P r) ?_ ?_
    · intro o hfresh id r hr
      rw [hfresh.record? id] at hr
      cases hr
    · intro o c o' hold hcall id r' hr'
      refine Calls.record_of hcall hr' (fun i _ => hinit i) ?_
      intro r hr hrec
      exact hkeep _ _ _ _ _ _ _ hrec (hold id r hr)
  exact hall id r hr

/-! ## Previews -/

/-- Every prepared result of the record was bound by the adapter for its intent. -/
def IntentRecord.Previewed (py : PyRuntime) (r : IntentRecord) : Prop :=
  ∀ prep, r.prepared = some prep →
    ∃ env p invoice, Bound py env r.intent.amountSat r.intent.maxFeeSat prep p invoice

/-- **Every prepared result is a preview of its intent**, in every state reached. -/
theorem WavelengthRun.previewed (hrun : WavelengthRun cfg w py h o) {id : String} {r : IntentRecord}
    (hr : o.record? id = some r) : r.Previewed py := by
  refine hrun.record (P := IntentRecord.Previewed py) (fun i => nofun) ?_ hr
  intro env es op res id r r' hrec hprev prep hprep
  rw [hrec.intent_eq]
  rcases hrec.prepared_from hprep with hold | ⟨q, hcall⟩
  · exact hprev prep hold
  · obtain ⟨p, hbound⟩ := prepare_ok hcall
    exact ⟨env.wavecli, p, _, hbound⟩

end

/-! ## How a dispatch ends -/

section

variable {cfg : Config} {env : Env} {o o' : PaymentOrchestrator} {res : Except Exc Answer} {es : List Effect}
  {id : String} {r : IntentRecord} {prep : PrepareResult}

/-- What `execute` leaves of the intent it dispatches. -/
theorem Step.execute_ends (h : Step cfg env o .execute res o' es) (hfirst : o.firstIn APPROVED = some (id, r))
    (hprep : r.prepared = some prep) (hmem : .executeCall id prep.preparedPayload prep.preparedHash ∈ es) :
    (Caught (env.adapter.execute prep.preparedPayload prep.preparedHash) ∧ o'.store = o.store ∧
      o'.record? id = some { r with state := RECONCILIATION_REQUIRED }) ∨
    ((¬ Caught (env.adapter.execute prep.preparedPayload prep.preparedHash) ∧
      ∀ exec, env.adapter.execute prep.preparedPayload prep.preparedHash = .ok exec →
        exec.feeSat < 0 ∨ ¬ env.saves cfg) ∧ o'.record? id = some { r with state := EXECUTING }) ∨
    ∃ exec rc, env.adapter.execute prep.preparedPayload prep.preparedHash = .ok exec ∧ rc.feeSat = exec.feeSat ∧
      o'.record? id = some { r with receipt := some rc, state := SETTLED } := by
  have hr := (PaymentOrchestrator.record?_of_firstIn hfirst).1
  have hupdated {s : IdempotencyStore} {f : IntentRecord → IntentRecord} :
      ((o.withStore s).update id f).record? id = some (f r) := by
    rw [PaymentOrchestrator.record?_update, if_pos rfl]
    show Option.map f (o.record? id) = _
    rw [hr]
    rfl
  cases h with
  | refused _ _ hquiet _ => cases hquiet _ hmem
  | dispatchAmbiguous hfirst' hprep' hcall hcaught _ _ _ _ =>
      obtain ⟨rfl, rfl⟩ := Prod.mk.inj (Option.some.inj (hfirst.symm.trans hfirst'))
      obtain rfl := Option.some.inj (hprep.symm.trans hprep')
      exact .inl ⟨⟨_, hcall, hcaught⟩, rfl, hupdated (s := o.store)⟩
  | dispatchStranded hfirst' hprep' hwhy =>
      obtain ⟨rfl, rfl⟩ := Prod.mk.inj (Option.some.inj (hfirst.symm.trans hfirst'))
      obtain rfl := Option.some.inj (hprep.symm.trans hprep')
      refine .inr (.inl ⟨⟨?_, ?_⟩, hupdated⟩)
      · rintro ⟨e, herror, hcaught⟩
        rcases hwhy with ⟨m, hcall, _, _⟩ | ⟨_, hcall, _⟩ | ⟨_, hcall, _⟩
        · obtain rfl := Except.error.inj (hcall.symm.trans herror)
          exact absurd rfl (hcaught m)
        · cases hcall.symm.trans herror
        · cases hcall.symm.trans herror
      · intro exec hok
        rcases hwhy with ⟨_, hcall, _⟩ | ⟨_, hcall, hneg, _⟩ | ⟨_, _, _, hunsaved, _⟩
        · cases hcall.symm.trans hok
        · obtain rfl := Except.ok.inj (hcall.symm.trans hok)
          exact .inl hneg
        · exact .inr hunsaved
  | @dispatchSettled _ _ _ exec hfirst' hprep' hcall hfee _ =>
      obtain ⟨rfl, rfl⟩ := Prod.mk.inj (Option.some.inj (hfirst.symm.trans hfirst'))
      obtain rfl := Option.some.inj (hprep.symm.trans hprep')
      exact .inr (.inr ⟨exec, builtReceipt cfg env r exec hfee, hcall, rfl, hupdated⟩)

/-- A dispatched intent ends in reconciliation exactly when the adapter raised one of its own exceptions. -/
theorem Step.execute_reconciles_iff (h : Step cfg env o .execute res o' es)
    (hfirst : o.firstIn APPROVED = some (id, r)) (hprep : r.prepared = some prep)
    (hmem : .executeCall id prep.preparedPayload prep.preparedHash ∈ es) :
    o'.stateOf id = RECONCILIATION_REQUIRED ↔
      Caught (env.adapter.execute prep.preparedPayload prep.preparedHash) := by
  rcases h.execute_ends hfirst hprep hmem with ⟨hcaught, _, hr'⟩ | ⟨⟨hcaught, _⟩, hr'⟩ | ⟨exec, rc, hcall, _, hr'⟩
  · exact ⟨fun _ => hcaught, fun _ => PaymentOrchestrator.stateOf_of_record? hr'⟩
  · rw [PaymentOrchestrator.stateOf_of_record? hr']
    exact ⟨nofun, fun h => absurd h hcaught⟩
  · rw [PaymentOrchestrator.stateOf_of_record? hr', hcall]
    exact ⟨nofun, nofun⟩

/-- A dispatch that the adapter answers settles the intent, with the fee of the answer. -/
theorem Step.execute_ok (h : Step cfg env o .execute res o' es) (hfirst : o.firstIn APPROVED = some (id, r))
    (hprep : r.prepared = some prep) (hmem : .executeCall id prep.preparedPayload prep.preparedHash ∈ es)
    {exec : ExecuteResult} (hcall : env.adapter.execute prep.preparedPayload prep.preparedHash = .ok exec)
    (hfee : 0 ≤ exec.feeSat) (hsave : env.saves cfg) :
    ∃ rc, o'.record? id = some { r with receipt := some rc, state := SETTLED } ∧ rc.feeSat = exec.feeSat := by
  rcases h.execute_ends hfirst hprep hmem with ⟨⟨_, herror, _⟩, _⟩ | ⟨⟨_, hwhy⟩, _⟩ | ⟨exec', rc, hcall', hrc, hr'⟩
  · cases hcall.symm.trans herror
  · rcases hwhy exec hcall with hneg | hunsaved
    · omega
    · exact absurd hsave hunsaved
  · obtain rfl := Except.ok.inj (hcall.symm.trans hcall')
    exact ⟨rc, hr', hrc⟩

/-- `execute` dispatches the first approved intent. -/
theorem WavelengthCalls.dispatched {w : WavelengthAdapter} {py : PyRuntime} {c : WavelengthCall}
    (hcall : WavelengthCalls cfg w py o c o') (ho : o.Consistent) (hop : c.op = .execute)
    (hfirst : o.firstIn APPROVED = some (id, r)) (hprep : r.prepared = some prep) :
    Step cfg (c.env.toEnv w py) o .execute c.result o' c.effects ∧
      .executeCall id prep.preparedPayload prep.preparedHash ∈ c.effects := by
  have hstep : Step cfg (c.env.toEnv w py) o c.op c.result o' c.effects := Calls.step hcall
  rw [hop] at hstep
  obtain ⟨prep', hprep', hmem⟩ := Calls.execute_dispatches hcall ho hop hfirst
  obtain rfl := Option.some.inj (hprep.symm.trans hprep')
  obtain ⟨x, hx, hdispatch⟩ := List.mem_filterMap.mp hmem
  refine ⟨hstep, ?_⟩
  cases x with
  | executeCall _ _ _ =>
      cases hdispatch
      exact hx
  | storeSave _ | auditAppend _ | prepareCall _ _ _ _ _ | verifyCall _ _ _ _ | reconcileCall _ _ _ _ =>
      cases hdispatch

end

section

variable {cfg : Config} {w : WavelengthAdapter} {py : PyRuntime} {h : WavelengthHistory} {o : PaymentOrchestrator}

/-! ## Playing a list of calls -/

/-- The event of one call. -/
def wavelengthEvent (cfg : Config) (w : WavelengthAdapter) (py : PyRuntime) (o : PaymentOrchestrator)
    (c : Op × WavelengthEnv) : Event PaymentOrchestrator WavelengthCall :=
  let out := (call cfg (c.2.toEnv w py) c.1).run o
  ⟨o, ⟨c.1, c.2, out.result, out.effects⟩, out.state⟩

theorem wavelengthEvent_before (o : PaymentOrchestrator) (c : Op × WavelengthEnv) :
    (wavelengthEvent cfg w py o c).before = o := rfl

theorem wavelengthEvent_calls (o : PaymentOrchestrator) (c : Op × WavelengthEnv) :
    WavelengthCalls cfg w py o (wavelengthEvent cfg w py o c).seen (wavelengthEvent cfg w py o c).after := rfl

/-- A run goes on with any call. -/
theorem wavelengthRun_snoc (hrun : WavelengthRun cfg w py h o) (c : Op × WavelengthEnv) :
    WavelengthRun cfg w py (h ++ [wavelengthEvent cfg w py o c]) (wavelengthEvent cfg w py o c).after :=
  hrun.snoc (wavelengthEvent_calls o c)

theorem wavelengthRun_play (hrun : WavelengthRun cfg w py h o) (calls : List (Op × WavelengthEnv)) :
    WavelengthRun cfg w py (h ++ playEvents (wavelengthEvent cfg w py) o calls)
      (playState (wavelengthEvent cfg w py) o calls) :=
  run_playEvents wavelengthEvent_before wavelengthEvent_calls hrun calls

end

/-! ## A small payment over the adapter -/

namespace Sample

/-- A runtime whose hash is constant and whose text is ASCII. -/
def py : PyRuntime where
  sha256      := fun _ => "hash"
  isAlnum     := Char.isAlphanum
  decimal     := fun c => if c.isDigit then some (c.toNat - 48) else none
  upper       := fun s => s
  readFloat   := fun _ => .nan
  limit       := fun _ => none
  undecodable := fun _ => "no JSON document"

def wavelength : WavelengthAdapter := ⟨"", "regtest", true, true, .inl rfl⟩

def previewResponse : Json := .obj [("send_intent_id", .str "si-1"), ("amount_sat", .int 1000),
  ("expected_fee_sat", .int 2), ("fee_known", .bool true), ("expected_total_outflow_sat", .int 1002),
  ("total_outflow_known", .bool true), ("rail", .str "LIGHTNING"), ("payment_hash", .str "aa"),
  ("expires_at_unix", .int 100)]

def preview : Preview := ⟨.str "si-1", 1000, 2, true, 1002, true, "LIGHTNING", "aa", 100, .str ""⟩

/-- A completed `Send` of the amount asked for, with the fee it reports. -/
def sendResponse (feeSat : Int) : Json :=
  .obj [("entry", .obj [("id", .str "aa"), ("status", .str "COMPLETE"), ("fee_sat", .int feeSat)]),
    ("actual_amount_sat", .int 1000)]

/-- The wallet's activity: a completed send of the sample amount under a payment hash. -/
def activity (ref : String) : Json :=
  .arr [.obj [("payment_hash", .str ref), ("status", .str "COMPLETE"), ("amount_sat", .int (-1000))]]

def answering (answer : Except AdapterExc Json) : WavelengthEnv := ⟨0, ⟨0, fun _ => answer⟩, false⟩

/-- Everything up to the approval of intent `i`. -/
def previewed : List (Op × WavelengthEnv) :=
  [(.submit (intent "i" 100), answering (.ok .null)), (.receiveQuote (quote "i" "invoice A" 100), answering (.ok .null)),
    (.prepare, answering (.ok previewResponse)), (.approve (approval "i"), answering (.ok .null))]

/-- The orchestrator once intent `i` is approved. -/
def approvedState : PaymentOrchestrator :=
  playState (wavelengthEvent config wavelength py) (.init .empty 0) previewed

/-- The record of intent `i` once it is approved. -/
def approvedRecord : IntentRecord :=
  { intent := intent "i" 100, state := APPROVED, quote := some (quote "i" "invoice A" 100),
    prepared := some ⟨2, "hash", .LIGHTNING, preparedPayload preview "invoice A" 10⟩,
    approval := some (approval "i"), quoteExpiresAt := 100, expiresAt := 100 }

theorem approved_first : approvedState.firstIn APPROVED = some ("i", approvedRecord) := rfl

/-- The payload of the sample payment, decoded. -/
def payload : Json := decodedPayload py preview "invoice A" 10

theorem payload_getD (key : String) (v default : Json) (hkey : (payloadMembers preview "invoice A" 10).lookup (.text key) = some v) :
    payload.getD key default = Json.reread py.readFloat payloadOptions v := by
  rw [Json.getD, payload, get?_decodedPayload, hkey]
  rfl

theorem payload_checked (answer : Except AdapterExc Json) : checkPayload py (answering answer).wavecli
    (preparedPayload preview "invoice A" 10) "hash" = .ok (payload, .str "si-1") := by
  have htoken : payload.getD "send_intent_id" (.str "") = .str "si-1" := payload_getD _ (.str "si-1") _ rfl
  have hexpires : payload.getD "expires_at_unix" (.int 0) = .int 100 := payload_getD _ (.int 100) _ rfl
  refine checkPayload_eq_ok.mpr ⟨rfl, decodePayload_prepared py preview _ _ fun _ _ => rfl, rfl, htoken, rfl, ?_⟩
  show (asInt? (payload.getD "expires_at_unix" (.int 0))).all (· ≤ 0) = false
  rw [hexpires]
  rfl

/-- A completed response of the sample payment confirms it, whatever the fee. -/
theorem confirms (feeSat : Int) : Confirms payload ⟨.str "aa", .str "aa", 1000, feeSat, "COMPLETE"⟩ := by
  have hamount : payload.getD "amount_sat" .null = .int 1000 := payload_getD _ (.int 1000) _ rfl
  have hhash : payload.getD "payment_hash" .null = .str "aa" := payload_getD _ (.str "aa") _ rfl
  refine ⟨rfl, rfl, ?_, ?_, ?_⟩
  · rw [hamount, Json.pyEq_int]
  · rw [hhash, Json.pyEq_str_self]
  · rw [hhash, Json.pyEq_str_self]

/-- The history of the approval. -/
def previewedHistory : WavelengthHistory :=
  playEvents (wavelengthEvent config wavelength py) (.init .empty 0) previewed

theorem run_previewed : WavelengthRun config wavelength py previewedHistory approvedState := by
  have hnil : WavelengthRun config wavelength py [] (.init .empty 0) := .nil fresh.fresh
  exact wavelengthRun_play hnil previewed

/-- Nothing is dispatched or settled before the approval. -/
theorem previewed_op : ∀ e ∈ previewedHistory, e.seen.op ≠ .execute ∧ ∀ rc, e.seen.op ≠ .receiveReceipt rc := by
  intro e he
  have hops : ∀ c ∈ previewed, c.1 ≠ .execute ∧ ∀ rc, c.1 ≠ .receiveReceipt rc := by simp [previewed]
  obtain ⟨_, c, hc, rfl⟩ := mem_playEvents he
  exact hops c hc

end Sample

end HermesPayments
