import HermesPayments.Policy.Runs

/-!
# `HermesPayments.Policy.Correctness.Expiry` — dispatch and the void times

An intent and a quote are void after their `expires_at`. `submit`, `receiveQuote` and `prepare` compare them
with the clock; `execute` does not, so whatever time passes after `prepare` is not seen again.
`dispatch_in_time_iff` says which runs keep the rule: those whose `execute` calls come while the intent that
is next in line, and the quote it was prepared from, still stand. It is stated for every clock, which covers
the non-decreasing ones.
-/

namespace HermesPayments

open Lib PaymentState

/-! ## The rule and the condition -/

/-- Is the effect a preparation for `id` that the adapter answered? -/
def Effect.preparesFor (id : String) : Effect → Bool
  | .prepareCall intentId _ _ _ (.ok _) => intentId = id
  | _ => false

/-- The quote `id` was prepared from, when this call prepared it. -/
def preparedFrom (id : String) (e : Event PaymentOrchestrator Call) : Option PaymentQuote :=
  if e.seen.effects.any (Effect.preparesFor id) && e.seen.result.isOk then
    (e.before.record? id).bind IntentRecord.quote
  else none

/-- At this clock reading neither the intent nor a quote it was prepared from is void, and there is such a
    quote. -/
def InTime (h : History) (o : PaymentOrchestrator) (now : Int) (id : String) : Prop :=
  (∃ r ∈ o.record? id, now ≤ r.intent.expiresAt) ∧ (∃ e ∈ h, (preparedFrom id e).isSome = true) ∧
    ∀ e ∈ h, ∀ q ∈ preparedFrom id e, now ≤ q.expiresAt

instance (h : History) (o : PaymentOrchestrator) (now : Int) (id : String) : Decidable (InTime h o now id) := by
  unfold InTime
  infer_instance

def Op.isExecute : Op → Bool
  | .execute => true
  | _ => false

theorem op_eq_execute {op : Op} (h : op.isExecute = true) : op = .execute := by
  cases op <;> first | rfl | cases h

/-- A call of `execute` that finds an approved intent finds it, and the quote it was prepared from, before
    their void times. -/
def ExecutesInTime (h : History) (e : Event PaymentOrchestrator Call) : Prop :=
  e.seen.op.isExecute = true → ∀ f ∈ e.before.firstIn APPROVED, e.seen.env.now ≤ f.2.expiresAt ∧
    ∀ e' ∈ h, ∀ q ∈ preparedFrom f.1 e', e.seen.env.now ≤ q.expiresAt

instance (h : History) (e : Event PaymentOrchestrator Call) : Decidable (ExecutesInTime h e) := by
  unfold ExecutesInTime
  infer_instance

/-! ## What was prepared was prepared from a quote -/

variable {cfg : Config} {o o' : PaymentOrchestrator} {c : Call} {h : History} {id : String}

theorem preparedFrom_of_step {r : IntentRecord} {q : PaymentQuote} {prep : PrepareResult}
    {instruction : RailReceiveInstruction} {amount maxFee : Int} (hr : o.record? id = some r)
    (hquote : r.quote = some q) (hres : c.result = .ok (.prepared prep))
    (hmem : .prepareCall id instruction amount maxFee (.ok prep) ∈ c.effects) :
    preparedFrom id ⟨o, c, o'⟩ = some q := by
  have hany : c.effects.any (Effect.preparesFor id) = true :=
    List.any_eq_true.mpr ⟨_, hmem, by simp [Effect.preparesFor]⟩
  simp [preparedFrom, hany, hres, hr, hquote, Except.isOk, Except.toBool]

/-- A record with a prepared payload was prepared from a quote. -/
theorem PolicyRun.preparedFrom (hrun : PolicyRun cfg h o) {r : IntentRecord} (hr : o.record? id = some r)
    (hs : r.state.hasPrepared = true) : ∃ e ∈ h, (HermesPayments.preparedFrom id e).isSome = true := by
  refine Run.record_history (Q := fun h r => r.state.hasPrepared = true →
    ∃ e ∈ h, (HermesPayments.preparedFrom id e).isSome = true) (fun _ _ _ hcall => hcall) ?_ ?_ hrun hr hs
  · intro h i
    exact nofun
  · intro h o c o' r r' _ _ hro _ hback hrec hs'
    have hgrow : (∃ e ∈ h, (HermesPayments.preparedFrom id e).isSome = true) →
        ∃ e ∈ h ++ [⟨o, c, o'⟩], (HermesPayments.preparedFrom id e).isSome = true := by
      rintro ⟨e, he, hsome⟩
      exact ⟨e, List.mem_append_left _ he, hsome⟩
    generalize hopc : c.op = op at hrec
    generalize hresc : c.result = res at hrec
    cases hrec with
    | kept | quoteOverwritten _ _ _ | reconciled _ => exact hgrow (hback hs')
    | prepared _ hquote _ _ _ hmem =>
        refine ⟨⟨o, c, o'⟩, by simp, ?_⟩
        rw [preparedFrom_of_step hro hquote hresc hmem]
        rfl
    | approved hstate _ _ _ _ | dispatchOpen hstate _ _ _ | swept hstate =>
        exact hgrow (hback (by rw [hstate]; rfl))
    | quoted _ _ _ | dispatchSettled _ _ _ | receiptSettled _ _ _ _ _ _ | confirmed _ | cancelled _
    | rejected _ => cases hs'

/-! ## The theorem -/

/-- **No payment is dispatched after its void times, exactly when every `execute` comes in time.** -/
theorem dispatch_in_time_iff (hrun : PolicyRun cfg h o) :
    (∀ e ∈ h, ∀ d ∈ dispatches e.seen.effects, InTime h e.before e.seen.env.now d.1) ↔
      ∀ e ∈ h, ExecutesInTime h e := by
  constructor
  · rintro hall e he hop ⟨id, r⟩ hfirst
    obtain ⟨g, hpast, hcall⟩ := hrun.of_mem he
    have hcons := PolicyRun.consistent hpast
    have hr := (PaymentOrchestrator.record?_of_firstIn hfirst).1
    obtain ⟨prep, _, hd⟩ := hcall.execute_dispatches hcons (op_eq_execute hop) hfirst
    obtain ⟨⟨r', hr', hintent⟩, _, hquote⟩ := hall e he _ hd
    obtain rfl : r = r' := Option.some.inj (hr.symm.trans hr')
    refine ⟨?_, hquote⟩
    rw [(hcons.records id r hr).expiresAt]
    exact hintent
  · rintro hall e he ⟨id, payload, hash⟩ hd
    obtain ⟨j, hj⟩ := List.getElem?_of_mem he
    obtain ⟨hpast, hcall⟩ := hrun.at_position hj
    obtain ⟨hop, r, prep, hfirst, _⟩ := hcall.step.of_dispatch hd
    obtain ⟨hr, hstate⟩ := PaymentOrchestrator.record?_of_firstIn hfirst
    obtain ⟨hintent, hquote⟩ := hall e he (by rw [hop]; rfl) (id, r) hfirst
    rw [((PolicyRun.consistent hpast).records id r hr).expiresAt] at hintent
    obtain ⟨e', he', hsome⟩ := PolicyRun.preparedFrom hpast hr (by rw [hstate]; rfl)
    exact ⟨⟨r, hr, hintent⟩, ⟨e', List.mem_of_mem_take he', hsome⟩, hquote⟩

/-- An approved intent, executed a hundred ticks after everything is void. -/
def Sample.executedLate : List (Op × Env) := approved "i" 0 ++ [(.execute, env 200 paid)]

/-- The rule itself fails, under a clock that never goes back. -/
theorem dispatch_not_in_time :
    ¬ ∀ (cfg : Config) (h : History) (o : PaymentOrchestrator), PolicyRun cfg h o →
      (h.map (·.seen.env.now)).Pairwise (· ≤ ·) →
      ∀ e ∈ h, ∀ d ∈ dispatches e.seen.effects, InTime h e.before e.seen.env.now d.1 := by
  intro hall
  have hrule := hall Sample.config _ _ (run_play_init Sample.fresh.fresh Sample.executedLate) (by decide)
  exact absurd hrule (by decide)

/-- A run the rule covers: approved and executed at the same reading. -/
theorem dispatch_in_time_payment : ∃ e ∈ Sample.payment, ("i", [1, 2, 3], "hash") ∈ dispatches e.seen.effects ∧
    InTime Sample.payment e.before e.seen.env.now "i" := by
  have hrun := Sample.payment_run.mono (fun _ h0 => h0.fresh) (fun _ _ _ hs => hs)
  have hmem : Sample.payment[4] ∈ Sample.payment := List.getElem_mem _
  have hd : ("i", [1, 2, 3], "hash") ∈ dispatches Sample.payment[4].seen.effects := by decide
  exact ⟨_, hmem, hd, (dispatch_in_time_iff hrun).mpr (by decide) _ hmem _ hd⟩

end HermesPayments
