import HermesPayments.Policy.Runs

/-!
# `HermesPayments.Policy.Correctness.FlowSelection` — which intent `prepare` and `execute` act on

`prepare` and `execute` take no intent id: they look for the intent that is `QUOTED`, or `APPROVED`. The lookup is
documented to raise when more than one intent is, but it takes the first. So an ambiguous selection is refused exactly
when the first intent does not get as far as the adapter (`refuses_ambiguity_iff`): whenever its payment could go ahead,
it does, with any number of other intents in the same state.
-/

namespace HermesPayments

open Lib PaymentState

/-! ## The rule -/

/-- The state an operation without an intent id looks for. -/
def Op.looksFor : Op → Option PaymentState
  | .prepare => some QUOTED
  | .execute => some APPROVED
  | _        => none

/-- The tracked intents in a state. -/
def PaymentOrchestrator.inState (o : PaymentOrchestrator) (s : PaymentState) : List (String × IntentRecord) :=
  o.intents.entries.filter (fun e => e.2.state = s)

/-- A call of one of the adapter's methods. -/
def Effect.callsAdapter : Effect → Bool
  | .prepareCall _ _ _ _ _ | .executeCall _ _ _ | .verifyCall _ _ _ _ | .reconcileCall _ _ _ _ => true
  | .storeSave _ | .auditAppend _ => false

/-- The call acts on some intent: it returns, calls the adapter or changes a record. -/
def Acts (o : PaymentOrchestrator) (c : Call) (o' : PaymentOrchestrator) : Prop :=
  (∃ ans, c.result = .ok ans) ∨ (∃ x ∈ c.effects, x.callsAdapter = true) ∨ ∃ id, o'.record? id ≠ o.record? id

/-- The call acts only where a single intent is in the state it looks for, and is refused where several are. -/
structure RefusesAmbiguity (o : PaymentOrchestrator) (c : Call) (o' : PaymentOrchestrator) : Prop where
  single  : ∀ s, c.op.looksFor = some s → Acts o c o' → (o.inState s).length = 1
  several : ∀ s, c.op.looksFor = some s → 2 ≤ (o.inState s).length →
    (∃ m, c.result = .error (.stateError m)) ∧ ¬ Acts o c o' ∧ o'.store = o.store

/-- The first intent in the state passes every check before the adapter is called. -/
inductive Selects (cfg : Config) (o : PaymentOrchestrator) (env : Env) : Op → PaymentState → Prop
  | prepare {id : String} {r : IntentRecord} {q : PaymentQuote} (hfirst : o.firstIn QUOTED = some (id, r))
      (hunexpired : ¬ (r.quoteExpiresAt ≠ 0 ∧ env.now > r.quoteExpiresAt))
      (hrail : allowed cfg.railAllowlist env.adapter.rail = true) (hquote : r.quote = some q) :
      Selects cfg o env .prepare QUOTED
  | execute {id : String} {r : IntentRecord} {prep : PrepareResult} (hfirst : o.firstIn APPROVED = some (id, r))
      (hprep : r.prepared = some prep) : Selects cfg o env .execute APPROVED

section

variable {cfg : Config} {env : Env} {o o' : PaymentOrchestrator} {op : Op} {s : PaymentState} {c : Call}

/-! ## The lookup -/

theorem firstIn_eq_head? (o : PaymentOrchestrator) (s : PaymentState) : o.firstIn s = (o.inState s).head? :=
  List.head?_filter.symm

/-- The lookup finds an intent where one is in the state. -/
theorem firstIn_eq_none_iff : o.firstIn s = none ↔ (o.inState s).length = 0 := by
  rw [firstIn_eq_head?, List.head?_eq_none_iff, List.length_eq_zero_iff]

theorem Selects.looksFor (h : Selects cfg o env op s) : op.looksFor = some s := by
  cases h with
  | prepare _ _ _ _ | execute _ _ => rfl

theorem Selects.tracked (h : Selects cfg o env op s) : 1 ≤ (o.inState s).length := by
  by_contra hnone
  have hempty : o.firstIn s = none := firstIn_eq_none_iff.mpr (by omega)
  cases h with
  | prepare hfirst _ _ _ | execute hfirst _ => cases hempty.symm.trans hfirst

/-! ## What is selected is acted on -/

/-- `prepare` asks the adapter whenever the first quoted intent passes the checks before. -/
theorem prepare_calls {id : String} {r : IntentRecord} {q : PaymentQuote} (hfirst : o.firstIn QUOTED = some (id, r))
    (hunexpired : ¬ (r.quoteExpiresAt ≠ 0 ∧ env.now > r.quoteExpiresAt))
    (hrail : allowed cfg.railAllowlist env.adapter.rail = true) (hquote : r.quote = some q) :
    .prepareCall id q.receiveInstruction r.intent.amountSat r.intent.maxFeeSat
        (env.adapter.prepare q.receiveInstruction r.intent.amountSat r.intent.maxFeeSat)
      ∈ ((call cfg env .prepare).run o).effects := by
  have hstate : r.state = QUOTED := (PaymentOrchestrator.record?_of_firstIn hfirst).2
  refine Proc.mem_effects_bind ?_
  rw [prepare, Proc.run_bind_ok (run_findByState_some hfirst)]
  simp only [checkQuoteExpired, hunexpired, validateRail, hrail, hstate, hquote, Proc.run_bind, if_false, if_true,
    Proc.run_pure, Proc.after_nil, transition_prepared_ok, decide_true, Bool.not_true, Bool.false_eq_true, Proc.run_emit,
    Proc.effects_after]
  exact List.mem_append_left _ (List.mem_singleton.mpr rfl)

theorem Selects.calls (h : Selects cfg o env op s) :
    ∃ x ∈ ((call cfg env op).run o).effects, x.callsAdapter = true := by
  cases h with
  | prepare hfirst hunexpired hrail hquote => exact ⟨_, prepare_calls hfirst hunexpired hrail hquote, rfl⟩
  | execute hfirst hprep => exact ⟨_, execute_dispatches cfg env hfirst hprep, rfl⟩

/-- What is not selected is refused, and nothing happens. -/
theorem refused_of_not_selects (hop : op.looksFor = some s) (h : ¬ Selects cfg o env op s) :
    ∃ m, (call cfg env op).run o = ⟨.error (.stateError m), o, []⟩ := by
  cases op with
  | prepare =>
      obtain rfl : QUOTED = s := Option.some.inj hop
      simp only [call, prepare, Proc.run_bind]
      cases hfirst : o.firstIn QUOTED with
      | none =>
          obtain ⟨m, hm⟩ := run_findByState_none hfirst
          exact ⟨m, by simp [hm]⟩
      | some e =>
          obtain ⟨id, r⟩ := e
          have hstate : r.state = QUOTED := (PaymentOrchestrator.record?_of_firstIn hfirst).2
          simp only [run_findByState_some hfirst, Proc.after_nil]
          by_cases hexpired : r.quoteExpiresAt ≠ 0 ∧ env.now > r.quoteExpiresAt
          · simp [checkQuoteExpired, hexpired]
          by_cases hrail : allowed cfg.railAllowlist env.adapter.rail = true
          swap
          · simp [checkQuoteExpired, hexpired, validateRail, hrail]
          cases hquote : r.quote with
          | none => simp [checkQuoteExpired, hexpired, validateRail, hrail, hstate]
          | some q => exact absurd (.prepare hfirst hexpired hrail hquote) h
  | execute =>
      obtain rfl : APPROVED = s := Option.some.inj hop
      simp only [call, execute, Proc.run_bind]
      cases hfirst : o.firstIn APPROVED with
      | none =>
          obtain ⟨m, hm⟩ := run_findByState_none hfirst
          exact ⟨m, by simp [hm]⟩
      | some e =>
          obtain ⟨id, r⟩ := e
          simp only [run_findByState_some hfirst, Proc.after_nil]
          cases hprep : r.prepared with
          | none => simp
          | some prep => exact absurd (.execute hfirst hprep) h
  | submit _ | receiveQuote _ | approve _ | receiveReceipt _ | confirmSettled _ | reconcileSettlement _ | cancel _
  | reject _ | checkExpired _ => cases hop

/-- A call acts exactly when it selects an intent. -/
theorem Calls.acts_iff (hcall : Calls cfg o c o') (hop : c.op.looksFor = some s) :
    Acts o c o' ↔ Selects cfg o c.env c.op s := by
  constructor
  · intro hacts
    by_contra hno
    obtain ⟨m, hrun⟩ := refused_of_not_selects hop hno
    obtain ⟨hresult, hstate, heffects⟩ := Outcome.mk.inj (hcall.symm.trans hrun)
    rcases hacts with ⟨ans, hok⟩ | ⟨x, hx, _⟩ | ⟨id, hchanged⟩
    · cases hok.symm.trans hresult
    · rw [heffects] at hx
      cases hx
    · rw [hstate] at hchanged
      exact hchanged rfl
  · intro hselects
    obtain ⟨x, hx, hcalls⟩ := hselects.calls
    have heffects : ((call cfg c.env c.op).run o).effects = c.effects := congrArg Outcome.effects hcall
    rw [heffects] at hx
    exact .inr (.inl ⟨x, hx, hcalls⟩)

/-- **One call refuses an ambiguous selection** unless it selects the first of several intents. -/
theorem Calls.refusesAmbiguity_iff (hcall : Calls cfg o c o') :
    RefusesAmbiguity o c o' ↔ ∀ s, Selects cfg o c.env c.op s → (o.inState s).length < 2 := by
  constructor
  · intro hrule s hselects
    have hacts := (hcall.acts_iff hselects.looksFor).mpr hselects
    have hone := hrule.single s hselects.looksFor hacts
    omega
  · intro hfew
    constructor
    · intro s hop hacts
      have hselects := (hcall.acts_iff hop).mp hacts
      have hlt := hfew s hselects
      have hle := hselects.tracked
      omega
    · intro s hop htwo
      have hno : ¬ Selects cfg o c.env c.op s := by
        intro hselects
        have hlt := hfew s hselects
        omega
      obtain ⟨m, hrun⟩ := refused_of_not_selects hop hno
      obtain ⟨hresult, hstate, _⟩ := Outcome.mk.inj (hcall.symm.trans hrun)
      exact ⟨⟨m, hresult⟩, fun hacts => hno ((hcall.acts_iff hop).mp hacts), by rw [hstate]⟩

end

/-- **An ambiguous selection is refused** in a run, from whatever states it may start, exactly when no call selects the
    first of several intents. -/
theorem refuses_ambiguity_iff {init : PaymentOrchestrator → Prop} {cfg : Config} {h : History} {o : PaymentOrchestrator}
    (hrun : Run init (Calls cfg) h o) : (∀ e ∈ h, RefusesAmbiguity e.before e.seen e.after) ↔
      ∀ e ∈ h, ∀ s, Selects cfg e.before e.seen.env e.seen.op s → (e.before.inState s).length < 2 := by
  refine forall₂_congr fun e he => ?_
  obtain ⟨_, _, hcall⟩ := hrun.of_mem he
  exact Calls.refusesAmbiguity_iff hcall

namespace Sample

/-- Two quoted intents. -/
def twoQuoted : PaymentOrchestrator :=
  play config (.init .empty 0) ((approved "i" 0).take 2 ++ (approved "j" 0).take 2)

/-- One call of `prepare` on two quoted intents. -/
def prepareEvent : Event PaymentOrchestrator Call :=
  let out := (call config (env 0 paid) .prepare).run twoQuoted
  ⟨twoQuoted, ⟨.prepare, env 0 paid, out.result, out.effects⟩, out.state⟩

end Sample

/-- Of two quoted intents, `prepare` takes the first. -/
theorem ambiguity_not_refused : ¬ ∀ (cfg : Config) (h : History) (o : PaymentOrchestrator), PolicyRun cfg h o →
    ∀ e ∈ h, RefusesAmbiguity e.before e.seen e.after := by
  intro hall
  obtain ⟨h, hrun⟩ := Sample.reachable ((Sample.approved "i" 0).take 2 ++ (Sample.approved "j" 0).take 2)
  have hcall : Calls Sample.config Sample.twoQuoted Sample.prepareEvent.seen Sample.prepareEvent.after := rfl
  have hrule := hall _ _ _ (hrun.snoc hcall) Sample.prepareEvent (List.mem_append_right _ List.mem_cons_self)
  have htwo : 2 ≤ (Sample.prepareEvent.before.inState QUOTED).length := by decide
  obtain ⟨m, hresult⟩ := (hrule.several QUOTED rfl htwo).1
  cases hresult

namespace Sample

/-- Two intents are quoted, and `prepare` is called when the first quote has expired. -/
def lateOps : List (Op × Env) := (approved "i" 0).take 2 ++ (approved "j" 0).take 2 ++ [(.prepare, env 101 paid)]

def latePrepare : History := playHistory config (.init .empty 0) lateOps

theorem latePrepare_run : Run FreshEmpty (Calls config) latePrepare (play config (.init .empty 0) lateOps) :=
  run_play_init fresh _

end Sample

/-- Of two quoted intents, none is prepared. -/
theorem refuses_ambiguity_late : (∃ e ∈ Sample.latePrepare, e.seen.op = .prepare ∧ (e.before.inState QUOTED).length = 2) ∧
    ∀ e ∈ Sample.latePrepare, RefusesAmbiguity e.before e.seen e.after := by
  refine ⟨⟨_, List.mem_of_getElem? (i := 4) rfl, rfl, rfl⟩, (refuses_ambiguity_iff Sample.latePrepare_run).mpr ?_⟩
  have hlate : ∀ e ∈ Sample.latePrepare, e.seen.op.looksFor = none ∨ e.seen.op.looksFor = some QUOTED ∧
      ∀ entry ∈ e.before.intents.entries, entry.2.quoteExpiresAt ≠ 0 ∧ e.seen.env.now > entry.2.quoteExpiresAt := by
    decide
  intro e he s hselects
  rcases hlate e he with hnone | ⟨hquoted, hexpired⟩
  · cases hnone.symm.trans hselects.looksFor
  · generalize e.seen.op = op at hquoted hselects
    cases hselects with
    | prepare hfirst hunexpired _ _ =>
        exact absurd (hexpired _ (List.mem_of_find?_eq_some hfirst)) hunexpired
    | execute _ _ => cases hquoted

end HermesPayments
