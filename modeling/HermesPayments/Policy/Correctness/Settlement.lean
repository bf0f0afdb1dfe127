import HermesPayments.Policy.Runs

/-!
# `HermesPayments.Policy.Correctness.Settlement` — which payments settle which intents

The store binds an intent to the reference it was settled with; the replay check asks whether *the intent* has a
binding, not whether the reference was used before. So an intent is settled once, but nothing in the policy
engine keeps one reference from settling two intents: that rests on the adapter, which has to report the
reference anew for each (`shared_reference_reported_twice`).
-/

namespace HermesPayments

open Lib PaymentState

/-! ## Settling, and what the adapter reported -/

namespace Call

/-- The call settles this intent with this reference: an `execute` or a `receiveReceipt` that returned. -/
def SettlesWith (c : Call) (id ref : String) : Prop :=
  ∃ rc, c.result = .ok (.receipt rc) ∧ rc.intentId = id ∧ rc.settlementRef = ref

/-- In this call the adapter reported the reference for this intent: `adapter.execute` returned it for the
    payload dispatched, or `adapter.verify_sender_settlement` verified it. -/
def Reports (c : Call) (id ref : String) : Prop :=
  (∃ payload hash res, (id, payload, hash) ∈ dispatches c.effects ∧
    c.env.adapter.execute payload hash = .ok res ∧ res.settlementRef = ref) ∨
  ∃ amount v, .verifyCall id ref amount (.ok v) ∈ c.effects ∧ v.verified = true

end Call

/-- `id` is `SETTLED` with a reference that `execute` or `receiveReceipt` recorded in the store. -/
structure SettledWith (h : History) (o : PaymentOrchestrator) (id ref : String) : Prop where
  settled  : ∃ r, o.record? id = some r ∧ r.state = SETTLED
  binding  : o.store.getReceipt id = some ref
  recorded : ∃ i, Happens h i (·.SettlesWith id ref)

variable {cfg : Config} {o o' : PaymentOrchestrator} {c : Call} {h : History} {id ref : String}

/-- A settling call finds the intent open, leaves it settled, and has the adapter's word for the
    reference. -/
theorem Calls.settles (hcall : Calls cfg o c o') (ho : o.Consistent) (hs : c.SettlesWith id ref) :
    (∃ r, o.record? id = some r ∧ r.state ≠ SETTLED) ∧ (∃ r, o'.record? id = some r ∧ r.state = SETTLED) ∧
      c.Reports id ref := by
  obtain ⟨rc, hres, rfl, rfl⟩ := hs
  have hstep := hcall.step
  unfold Call.Reports
  rw [hres] at hstep
  generalize hopc : c.op = op at hstep
  generalize c.effects = es at hstep
  generalize hrc : Except.ok (Answer.receipt rc) = res at hstep
  cases hstep with
  | @dispatchSettled id r prep res hfirst hprep hanswer hfee _ =>
      obtain ⟨hr, hstate⟩ := PaymentOrchestrator.record?_of_firstIn hfirst
      injection hrc with hrc
      injection hrc with hrc
      subst hrc
      have hid : (builtReceipt cfg c.env r res hfee).intentId = id := (ho.records id r hr).intent_id
      rw [hid]
      let r' := { r with receipt := some (builtReceipt cfg c.env r res hfee), state := SETTLED }
      refine ⟨⟨r, hr, by rw [hstate]; decide⟩, ⟨r', ?_, rfl⟩,
        .inl ⟨prep.preparedPayload, prep.preparedHash, res, dispatches_mem (by simp), hanswer, rfl⟩⟩
      simp [r', PaymentOrchestrator.record?_update, hr]
  | @receiptSettled rc' r q v hr hstate _ _ _ _ _ hverified _ =>
      injection hrc with hrc
      injection hrc with hrc
      subst hrc
      refine ⟨⟨r, hr, ?_⟩, ⟨{ r with receipt := some rc, state := SETTLED }, ?_, rfl⟩,
        .inr ⟨rc.amountSat, v, List.mem_cons_self, hverified⟩⟩
      · rcases hstate with hstate | hstate <;> rw [hstate] <;> decide
      · simp [PaymentOrchestrator.record?_update, hr]
  | _ => cases hrc

/-- Nothing leads out of `SETTLED`. -/
theorem RecordStep.settled {env : Env} {es : List Effect} {op : Op} {res : Except Exc Answer}
    {r r' : IntentRecord} (hrec : RecordStep env es op res id r r') (hs : r.state = SETTLED) :
    r'.state = SETTLED := by
  cases hrec with
  | kept | quoteOverwritten _ _ _ | reconciled _ => exact hs
  | quoted _ _ hstate | prepared hstate _ _ _ _ _ | approved hstate _ _ _ _ | dispatchOpen hstate _ _ _
  | swept hstate => rw [hstate] at hs; cases hs
  | dispatchSettled _ _ _ | receiptSettled _ _ _ _ _ _ | confirmed _ => rfl
  | cancelled hstate | rejected hstate => rw [hs] at hstate; cases hstate

/-- A settled intent is not settled again. -/
theorem PolicyRun.not_settled_later (hrun : PolicyRun cfg h o) {i j : Nat} {ref' : String}
    (hi : Happens h i (·.SettlesWith id ref)) (hj : Happens h j (·.SettlesWith id ref')) : ¬ i < j := by
  intro hij
  obtain ⟨e, he, hs⟩ := hi
  obtain ⟨e', he', hs'⟩ := hj
  obtain ⟨hpast, hcall⟩ := hrun.at_position he
  obtain ⟨hpast', hcall'⟩ := hrun.at_position he'
  have hafter := (hcall.settles (PolicyRun.consistent hpast) hs).2.1
  obtain ⟨r, hr, hset⟩ := Run.record_stays (fun _ hf => hf)
    (fun _ _ _ _ _ _ hrec hs => RecordStep.settled hrec hs) hrun he he' hij hafter
  obtain ⟨r', hr', hopen⟩ := (hcall'.settles (PolicyRun.consistent hpast') hs').1
  obtain rfl : r = r' := Option.some.inj (hr.symm.trans hr')
  exact hopen hset

/-- A call settles one intent. -/
theorem settlesWith_inj {i : Nat} {id' ref' : String} (hi : Happens h i (·.SettlesWith id ref))
    (hi' : Happens h i (·.SettlesWith id' ref')) : id = id' := by
  obtain ⟨e, he, rc, hres, hid, _⟩ := hi
  obtain ⟨e', he', rc', hres', hid', _⟩ := hi'
  obtain rfl : e = e' := Option.some.inj (he.symm.trans he')
  have hsame := hres.symm.trans hres'
  injection hsame with hsame
  injection hsame with hsame
  rw [← hid, ← hid', hsame]

/-! ## The theorem -/

/-- **Each intent is settled once, and a reference two intents share was reported for each of them**, in two
    calls of the run. -/
theorem shared_reference_reported_twice (hrun : PolicyRun cfg h o) :
    (∀ i j id ref ref', Happens h i (·.SettlesWith id ref) → Happens h j (·.SettlesWith id ref') → i = j) ∧
    ∀ id id' ref, id ≠ id' → SettledWith h o id ref → SettledWith h o id' ref →
      ∃ i j, i ≠ j ∧ Happens h i (fun c => c.SettlesWith id ref ∧ c.Reports id ref) ∧
        Happens h j (fun c => c.SettlesWith id' ref ∧ c.Reports id' ref) := by
  have hreports : ∀ {i id ref}, Happens h i (·.SettlesWith id ref) →
      Happens h i (fun c => c.SettlesWith id ref ∧ c.Reports id ref) := by
    rintro i id ref ⟨e, he, hs⟩
    obtain ⟨hpast, hcall⟩ := hrun.at_position he
    exact ⟨e, he, hs, (hcall.settles (PolicyRun.consistent hpast) hs).2.2⟩
  constructor
  · intro i j id ref ref' hi hj
    have hle := PolicyRun.not_settled_later hrun hi hj
    have hge := PolicyRun.not_settled_later hrun hj hi
    omega
  · intro id id' ref hne hset hset'
    obtain ⟨i, hi⟩ := hset.recorded
    obtain ⟨j, hj⟩ := hset'.recorded
    refine ⟨i, j, ?_, hreports hi, hreports hj⟩
    rintro rfl
    exact hne (settlesWith_inj hi hj)

/-- Two payments of one orchestrator, one after the other, with an adapter that answers both with the same
    reference. -/
def Sample.twoPayments : List (Op × Env) :=
  approved "i" 0 ++ [(.execute, env 0 paid)] ++ (approved "j" 0 ++ [(.execute, env 0 paid)])

theorem Sample.twoPayments_settled :
    SettledWith (playHistory config (.init .empty 0) twoPayments) (play config (.init .empty 0) twoPayments)
      "i" "ref" ∧
    SettledWith (playHistory config (.init .empty 0) twoPayments) (play config (.init .empty 0) twoPayments)
      "j" "ref" :=
  ⟨⟨⟨_, rfl, rfl⟩, rfl, 4, ⟨_, rfl, _, rfl, rfl, rfl⟩⟩, ⟨⟨_, rfl, rfl⟩, rfl, 9, ⟨_, rfl, _, rfl, rfl, rfl⟩⟩⟩

/-- References are not unique among intents: nothing but the adapter tells the two payments apart. -/
theorem reference_not_unique :
    ¬ ∀ (cfg : Config) (h : History) (o : PaymentOrchestrator) (id id' ref : String), PolicyRun cfg h o →
      id ≠ id' → SettledWith h o id ref → ¬ SettledWith h o id' ref := by
  intro hall
  exact hall Sample.config _ _ "i" "j" "ref" (run_play_init Sample.fresh.fresh Sample.twoPayments)
    (by decide) Sample.twoPayments_settled.1 Sample.twoPayments_settled.2

/-- The two payments, and the two reports behind them. -/
theorem shared_reference_two_payments : ∃ i j, i ≠ j ∧
    Happens (playHistory Sample.config (.init .empty 0) Sample.twoPayments) i
      (fun c => c.SettlesWith "i" "ref" ∧ c.Reports "i" "ref") ∧
    Happens (playHistory Sample.config (.init .empty 0) Sample.twoPayments) j
      (fun c => c.SettlesWith "j" "ref" ∧ c.Reports "j" "ref") :=
  (shared_reference_reported_twice (run_play_init Sample.fresh.fresh Sample.twoPayments)).2 "i" "j" "ref"
    (by decide) Sample.twoPayments_settled.1 Sample.twoPayments_settled.2

end HermesPayments
