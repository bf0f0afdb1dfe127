import HermesPayments.Lib.Run
import HermesPayments.Policy.Lifecycle

/-!
# `HermesPayments.Policy.Runs` — runs of one orchestrator

A run starts from an orchestrator constructed over *some* store file and makes any sequence of calls, each
under its own environment: time passes between calls, and the adapter may answer differently every time. A
`Call` is what is observed of one call; the history of a run holds every call made and rejected.

`Consistent` is the invariant of one record and of the orchestrator that the later modules build on.
-/

namespace HermesPayments

open Lib PaymentState

/-! ## Runs -/

/-- One observed call: what was asked, under which environment, how it ended, what it did outside. -/
structure Call where
  op      : Op
  env     : Env
  result  : Except Exc Answer
  effects : List Effect

/-- The call `c` leads from `o` to `o'`. -/
def Calls (cfg : Config) (o : PaymentOrchestrator) (c : Call) (o' : PaymentOrchestrator) : Prop :=
  (HermesPayments.call cfg c.env c.op).run o = ⟨c.result, o', c.effects⟩

/-- A freshly constructed orchestrator, over whatever its store file held. -/
def Fresh (o : PaymentOrchestrator) : Prop := ∃ store seq, o = .init store seq

/-- A freshly constructed orchestrator whose store file did not exist. -/
def FreshEmpty (o : PaymentOrchestrator) : Prop := ∃ seq, o = .init .empty seq

abbrev History := List (Event PaymentOrchestrator Call)

/-- The runs of one orchestrator. -/
abbrev PolicyRun (cfg : Config) (h : History) (o : PaymentOrchestrator) : Prop := Run Fresh (Calls cfg) h o

/-- Reachable by some sequence of operations, successful or rejected. -/
def Reachable (cfg : Config) (o : PaymentOrchestrator) : Prop := ∃ h, PolicyRun cfg h o

theorem Fresh.record? {o : PaymentOrchestrator} (h : Fresh o) (id : String) : o.record? id = none := by
  obtain ⟨store, seq, rfl⟩ := h
  rfl

theorem FreshEmpty.fresh {o : PaymentOrchestrator} (h : FreshEmpty o) : Fresh o := by
  obtain ⟨seq, rfl⟩ := h
  exact ⟨_, seq, rfl⟩

section

variable {cfg : Config} {o o' : PaymentOrchestrator} {c : Call}

theorem Calls.step (h : Calls cfg o c o') : Step cfg c.env o c.op c.result o' c.effects := by
  have hstep : Steps cfg c.env o c.op _ := call_step o c.op
  unfold Calls at h
  rw [Steps, h] at hstep
  exact hstep

/-- Every call of an operation is a step of a run. -/
theorem Calls.of_call (cfg : Config) (env : Env) (o : PaymentOrchestrator) (op : Op) :
    Calls cfg o ⟨op, env, ((call cfg env op).run o).result, ((call cfg env op).run o).effects⟩
      ((call cfg env op).run o).state := rfl

/-! ## The record invariant -/

namespace PaymentState

/-- A quote has been accepted and the intent is still open. -/
def hasQuote (s : PaymentState) : Bool :=
  s ∈ [QUOTED, PREPARED, APPROVED, EXECUTING, RECONCILIATION_REQUIRED]

/-- A payload has been prepared and the intent is still open. -/
def hasPrepared (s : PaymentState) : Bool := s ∈ [PREPARED, APPROVED, EXECUTING, RECONCILIATION_REQUIRED]

/-- An approval has been accepted and the intent is still open. -/
def hasApproval (s : PaymentState) : Bool := s ∈ [APPROVED, EXECUTING, RECONCILIATION_REQUIRED]

/-- No approval has been accepted yet. -/
def beforeApproval (s : PaymentState) : Bool := s ∈ [SUBMITTED, QUOTED, PREPARED]

end PaymentState

/-- What holds of the record tracked under `id`, whatever happened to it. -/
structure IntentRecord.Consistent (id : String) (r : IntentRecord) : Prop where
  intent_id       : r.intent.id = id
  expiresAt       : r.expiresAt = r.intent.expiresAt
  state           : r.state ≠ DRAFT
  quote           : ∀ q, r.quote = some q → q.intentId = id ∧ r.quoteExpiresAt = q.expiresAt
  quote_isSome    : r.state.hasQuote = true → r.quote.isSome = true
  prepared_isSome : r.state.hasPrepared = true → r.prepared.isSome = true
  approval        : ∀ a, r.approval = some a → a.intentId = id
  approval_isSome : r.state.hasApproval = true → r.approval.isSome = true
  approval_none   : r.state.beforeApproval = true → r.approval = none

theorem consistent_submitted (i : PaymentIntent) :
    (PaymentOrchestrator.submittedRecord i).Consistent i.id where
  intent_id         := rfl
  expiresAt         := rfl
  state h           := by cases h
  quote _ h         := by cases h
  quote_isSome h    := by cases h
  prepared_isSome h := by cases h
  approval _ h      := by cases h
  approval_isSome h := by cases h
  approval_none _   := rfl

/-- A call keeps the invariant of the record it changes. -/
theorem RecordStep.consistent {env : Env} {es : List Effect} {op : Op} {res : Except Exc Answer}
    {id : String} {r r' : IntentRecord} (h : RecordStep env es op res id r r') (hr : r.Consistent id) :
    r'.Consistent id := by
  obtain ⟨hid, hexp, hst, hq, hqs, hps, ha, has, hno⟩ := hr
  cases h with
  | kept => exact ⟨hid, hexp, hst, hq, hqs, hps, ha, has, hno⟩
  | quoteOverwritten _ _ _ =>
      refine ⟨hid, hexp, hst, ?_, fun _ => rfl, hps, ha, has, hno⟩
      rintro q' ⟨⟩
      exact ⟨rfl, rfl⟩
  | quoted _ _ hstate =>
      refine ⟨hid, hexp, nofun, ?_, fun _ => rfl, nofun, ha, nofun, fun _ => hno (by rw [hstate]; rfl)⟩
      rintro q' ⟨⟩
      exact ⟨rfl, rfl⟩
  | prepared hstate hquote _ _ _ _ =>
      exact ⟨hid, hexp, nofun, hq, fun _ => by rw [hquote]; rfl, fun _ => rfl, ha, nofun,
        fun _ => hno (by rw [hstate]; rfl)⟩
  | approved _ hquote _ hprep _ =>
      refine ⟨hid, hexp, nofun, hq, fun _ => by rw [hquote]; rfl, fun _ => by rw [hprep]; rfl, ?_,
        fun _ => rfl, nofun⟩
      rintro a' ⟨⟩
      rfl
  | dispatchOpen hstate hprep hs _ =>
      refine ⟨hid, hexp, ?_, hq, fun _ => hqs (by rw [hstate]; rfl), fun _ => hps (by rw [hstate]; rfl),
        ha, fun _ => has (by rw [hstate]; rfl), ?_⟩
      · rcases hs with rfl | rfl <;> nofun
      · rcases hs with rfl | rfl <;> nofun
  | reconciled _ => exact ⟨hid, hexp, hst, hq, hqs, hps, ha, has, hno⟩
  | swept hstate =>
      exact ⟨hid, hexp, nofun, hq, fun _ => hqs (by rw [hstate]; rfl), fun _ => hps (by rw [hstate]; rfl),
        ha, fun _ => has (by rw [hstate]; rfl), nofun⟩
  | dispatchSettled _ _ _ | receiptSettled _ _ _ _ _ _ | confirmed _ | cancelled _ | rejected _ =>
      exact ⟨hid, hexp, nofun, hq, nofun, nofun, ha, nofun, nofun⟩

/-! ## The orchestrator invariant -/

/-- Every tracked id is known to the store in memory, and every record is consistent. -/
structure PaymentOrchestrator.Consistent (o : PaymentOrchestrator) : Prop where
  known   : ∀ id r, o.record? id = some r → o.store.hasIntent id = true
  records : ∀ id r, o.record? id = some r → r.Consistent id

theorem Fresh.consistent (h : Fresh o) : o.Consistent where
  known id r hr := by rw [h.record? id] at hr; cases hr
  records id r hr := by rw [h.record? id] at hr; cases hr

/-- A submitted id is known. -/
theorem IdempotencyStore.hasIntent_addIntent (s : IdempotencyStore) (id : String) :
    (s.addIntent id).hasIntent id = true := by simp [IdempotencyStore.hasIntent]

/-- The store never forgets an intent. -/
theorem StoreChange.hasIntent {op : Op} {s s' : IdempotencyStore} (h : StoreChange op s s') {id : String}
    (hs : s.hasIntent id = true) : s'.hasIntent id = true := by
  cases h with
  | same => exact hs
  | intent _ _ =>
      have : id ∈ s.intents := by simpa [IdempotencyStore.hasIntent] using hs
      simp [IdempotencyStore.hasIntent, this]
  | approval _ => exact hs
  | receipt _ => exact hs

theorem Calls.consistent (h : Calls cfg o c o') (ho : o.Consistent) : o'.Consistent := by
  have hstep := h.step
  refine ⟨fun id r hr => ?_, fun id r hr => ?_⟩
  · have hchange := hstep.change id
    rw [hr] at hchange
    cases hro : o.record? id with
    | some r₀ => exact hstep.store_change.hasIntent (ho.known id r₀ hro)
    | none =>
        -- the id is new: `submit` recorded it in the same call
        rw [hro] at hchange
        cases hchange with
        | created _ hid _ hstore _ _ =>
            rw [hstore, ← hid]
            exact IdempotencyStore.hasIntent_addIntent _ _
  · have hchange := hstep.change id
    rw [hr] at hchange
    generalize hro : o.record? id = ro at hchange
    cases hchange with
    | created _ hid _ _ _ _ => rw [← hid]; exact consistent_submitted _
    | changed hrec => exact hrec.consistent (ho.records id _ hro)

theorem PolicyRun.consistent {h : History} (hrun : PolicyRun cfg h o) : o.Consistent :=
  hrun.invariant (fun _ h0 => h0.consistent) (fun _ _ _ ho hstep => hstep.consistent ho)

theorem Reachable.consistent (h : Reachable cfg o) : o.Consistent := by
  obtain ⟨g, hrun⟩ := h
  exact PolicyRun.consistent hrun

/-! ## Records along a run -/

/-- A tracked intent stays tracked, and a call does to its record what `RecordStep` lists. -/
theorem Calls.record_step (h : Calls cfg o c o') (ho : o.Consistent) {id : String} {r : IntentRecord}
    (hr : o.record? id = some r) :
    ∃ r', o'.record? id = some r' ∧ RecordStep c.env c.effects c.op c.result id r r' := by
  have hchange := h.step.change id
  rw [hr] at hchange
  generalize hro' : o'.record? id = ro' at hchange
  cases hchange with
  | created _ hid hnew _ _ _ =>
      have hknown := ho.known id r hr
      rw [hid, hknown] at hnew
      cases hnew
  | changed hrec => exact ⟨_, rfl, hrec⟩

/-- A record after a call is the record of a submission, or what the call made of the record before. -/
theorem Calls.record_of {P : IntentRecord → Prop} (h : Calls cfg o c o') {id : String} {r' : IntentRecord}
    (hr' : o'.record? id = some r') (hnew : ∀ i : PaymentIntent, i.id = id → P (PaymentOrchestrator.submittedRecord i))
    (hkept : ∀ r, o.record? id = some r → RecordStep c.env c.effects c.op c.result id r r' → P r') : P r' := by
  have hchange := h.step.change id
  rw [hr'] at hchange
  generalize hro : o.record? id = ro at hchange
  cases hchange with
  | created _ hid _ _ _ _ => exact hnew _ hid
  | changed hrec => exact hkept _ hro hrec

/-- **A property of one record and the history behind it** that holds at submission, and that every step on the record
    keeps, holds in every state reached. The calls may be under a guard. -/
theorem Run.record_history {step : PaymentOrchestrator → Call → PaymentOrchestrator → Prop}
    {Q : History → IntentRecord → Prop} {id : String} {h : History} {r : IntentRecord}
    (hcalls : ∀ o c o', step o c o' → Calls cfg o c o')
    (hnew : ∀ h i, Q h (PaymentOrchestrator.submittedRecord i))
    (hkeep : ∀ h o c o' r r', Run Fresh step h o → step o c o' → o.record? id = some r → o'.record? id = some r' →
      Q h r → RecordStep c.env c.effects c.op c.result id r r' → Q (h ++ [⟨o, c, o'⟩]) r')
    (hrun : Run Fresh step h o) (hr : o.record? id = some r) : Q h r := by
  refine hrun.history (P := fun h o => ∀ r, o.record? id = some r → Q h r) ?_ ?_ r hr
  · intro o hfresh r hr
    rw [hfresh.record? id] at hr
    cases hr
  · intro h o c o' hprev ih hstep r' hr'
    refine (hcalls o c o' hstep).record_of hr' (fun i _ => hnew _ i) ?_
    intro r hr hrec
    exact hkeep h o c o' r r' hprev hstep hr hr' (ih r hr) hrec

/-- `execute` dispatches the first approved intent, whenever there is one. -/
theorem Calls.execute_dispatches (h : Calls cfg o c o') (ho : o.Consistent) (hop : c.op = .execute)
    {id : String} {r : IntentRecord} (hfirst : o.firstIn APPROVED = some (id, r)) :
    ∃ prep, r.prepared = some prep ∧
      (id, prep.preparedPayload, prep.preparedHash) ∈ dispatches c.effects := by
  obtain ⟨hr, hstate⟩ := PaymentOrchestrator.record?_of_firstIn hfirst
  obtain ⟨prep, hprep⟩ :=
    Option.isSome_iff_exists.mp ((ho.records id r hr).prepared_isSome (by rw [hstate]; rfl))
  have hmem := HermesPayments.execute_dispatches cfg c.env hfirst hprep
  unfold Calls at h
  rw [hop] at h
  rw [h] at hmem
  exact ⟨prep, hprep, List.mem_filterMap.mpr ⟨_, hmem, rfl⟩⟩

/-- A property of one record that `RecordStep` keeps holds of it ever after. -/
theorem Run.record_stays {init : PaymentOrchestrator → Prop} {P : IntentRecord → Prop} {h : History}
    {id : String} {j k : Nat} {e e' : Event PaymentOrchestrator Call}
    (hfresh : ∀ o, init o → Fresh o)
    (hkeep : ∀ env es op res r r', RecordStep env es op res id r r' → P r → P r')
    (hrun : Run init (Calls cfg) h o) (he : h[j]? = some e) (he' : h[k]? = some e') (hjk : j < k)
    (hp : ∃ r, e.after.record? id = some r ∧ P r) : ∃ r, e'.before.record? id = some r ∧ P r := by
  refine hrun.stays (Q := fun o => ∃ r, o.record? id = some r ∧ P r) ?_ he he' hjk hp
  rintro g o c o' hg ⟨r, hr, hpr⟩ hcall
  have hcons : o.Consistent :=
    hg.invariant (fun o ho => (hfresh o ho).consistent) (fun _ _ _ ho hstep => hstep.consistent ho)
  obtain ⟨r', hr', hrec⟩ := hcall.record_step hcons hr
  exact ⟨r', hr', hkeep _ _ _ _ _ _ hrec hpr⟩

/-! ## Playing a list of calls -/

/-- The state a list of calls leads to. -/
def play (cfg : Config) : PaymentOrchestrator → List (Op × Env) → PaymentOrchestrator
  | o, [] => o
  | o, (op, env) :: rest => play cfg ((call cfg env op).run o).state rest

/-- The history a list of calls leaves. -/
def playHistory (cfg : Config) : PaymentOrchestrator → List (Op × Env) → History
  | _, [] => []
  | o, (op, env) :: rest =>
      let out := (call cfg env op).run o
      ⟨o, ⟨op, env, out.result, out.effects⟩, out.state⟩ :: playHistory cfg out.state rest

theorem run_play {init : PaymentOrchestrator → Prop} {h : History} (hrun : Run init (Calls cfg) h o)
    (ops : List (Op × Env)) : Run init (Calls cfg) (h ++ playHistory cfg o ops) (play cfg o ops) := by
  induction ops generalizing h o with
  | nil => simpa [playHistory, play] using hrun
  | cons entry rest ih =>
      obtain ⟨op, env⟩ := entry
      have := ih (hrun.snoc (Calls.of_call cfg env o op))
      simpa [playHistory, play] using this

theorem run_play_init {init : PaymentOrchestrator → Prop} (h0 : init o) (ops : List (Op × Env)) :
    Run init (Calls cfg) (playHistory cfg o ops) (play cfg o ops) := by
  have hrun : Run init (Calls cfg) ([] ++ playHistory cfg o ops) (play cfg o ops) :=
    run_play (.nil h0) ops
  rwa [List.nil_append] at hrun

theorem reachable_play (h : Reachable cfg o) (ops : List (Op × Env)) : Reachable cfg (play cfg o ops) := by
  obtain ⟨g, hrun⟩ := h
  exact ⟨_, run_play hrun ops⟩

end

/-! ## A small payment

Values the witnesses of the later modules are made of: two parties, an adapter that prepares any invoice, and
the calls up to a given point of the lifecycle. -/

namespace Sample

def party : AgentIdentity := ⟨String.ofList (List.replicate 64 'a'), none, by decide⟩

def intent (id : String) (expiresAt : Int) : PaymentIntent :=
  ⟨id, "key", party, party, 1000, "invoice 7", 10, expiresAt, 0, by decide, by decide, by decide, by decide⟩

def quote (intentId invoice : String) (expiresAt : Int) : PaymentQuote :=
  ⟨"q", intentId, "quote 1", party, ⟨.LIGHTNING, some invoice⟩, 5, .max, expiresAt, 0, by decide, by decide⟩

def approval (intentId : String) : PaymentApproval := ⟨"a", intentId, "quote 1", "hash", party, 0⟩

def receipt (intentId ref : String) : PaymentReceipt :=
  ⟨"r", intentId, "quote 1", party, ref, 1000, 2, .LIGHTNING, 0, 0, by decide, by decide⟩

/-- An adapter that prepares every invoice, with a given answer to `execute`. -/
def adapter (answer : Except AdapterExc ExecuteResult) : SettlementAdapter where
  rail                   := .LIGHTNING
  prepare                := fun _ _ _ => .ok ⟨2, "hash", .LIGHTNING, [1, 2, 3]⟩
  execute                := fun _ _ => answer
  verifyReceipt          := fun ref amount => .ok { verified := true, settlementRef := ref, amountSat := amount, feeSat := 0 }
  verifySenderSettlement := fun ref amount => .ok { verified := true, settlementRef := ref, amountSat := amount, feeSat := 0 }
  reconcileSettlement    := fun _ _ _ => .ok { status := "UNKNOWN" }

/-- The answer of a wallet that paid. -/
def paid : Except AdapterExc ExecuteResult := .ok ⟨"ref", 1000, 2, .LIGHTNING⟩

def env (now : Int) (answer : Except AdapterExc ExecuteResult) : Env := ⟨now, adapter answer, false⟩

/-- No files, no allowlists. -/
def storePath : PathText := ⟨"store.json", by decide⟩

def auditPath : PathText := ⟨"audit.jsonl", by decide⟩

def config : Config := ⟨fun _ => "digest", Char.isAlphanum, none, none, none, none⟩

/-- Everything up to the approval of intent `id`, all at one clock reading. -/
def approved (id : String) (now : Int) : List (Op × Env) :=
  [(.submit (intent id 100), env now paid), (.receiveQuote (quote id "invoice A" 100), env now paid),
    (.prepare, env now paid), (.approve (approval id), env now paid)]

theorem fresh : FreshEmpty (.init .empty 0) := ⟨0, rfl⟩

theorem reachable (ops : List (Op × Env)) : Reachable config (play config (.init .empty 0) ops) :=
  reachable_play ⟨[], .nil fresh.fresh⟩ ops

/-- The history of a payment: submitted, quoted, prepared, approved, executed. -/
def payment : History :=
  playHistory config (.init .empty 0) (approved "i" 0 ++ [(.execute, env 0 paid)])

theorem payment_run : Run FreshEmpty (Calls config) payment
    (play config (.init .empty 0) (approved "i" 0 ++ [(.execute, env 0 paid)])) :=
  run_play_init fresh _

end Sample

end HermesPayments
