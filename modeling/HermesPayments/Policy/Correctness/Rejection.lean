import HermesPayments.Policy.Runs

/-!
# `HermesPayments.Policy.Correctness.Rejection` — what a rejected operation leaves behind

An operation that raises a `PolicyError` should leave every record, the set of tracked intents and the store
as they were. Eight of the nine operations concerned do; `receiveQuote` assigns the record before it checks
the transition, so a quote that arrives late replaces the held one and is rejected afterwards.
`rejected_untouched_iff` says that this is the only way an operation breaks the rule.
-/

namespace HermesPayments

open Lib PaymentState

/-- The operations that are all or nothing: all but `execute` and the sweep, whose errors report a
    transition they made. -/
def Op.allOrNothing : Op → Bool
  | .execute | .checkExpired _ => false
  | _ => true

/-- Every record, the set of tracked intents and the store stand. -/
def Untouched (o o' : PaymentOrchestrator) : Prop := o'.intents = o.intents ∧ o'.store = o.store

instance (o o' : PaymentOrchestrator) : Decidable (Untouched o o') :=
  inferInstanceAs (Decidable (_ ∧ _))

/-- The quote passes the checks made before the assignment, on an intent that takes no quote any more. -/
def LateQuote (now : Int) (q : PaymentQuote) (r : IntentRecord) : Prop :=
  q.feeSat ≤ r.intent.maxFeeSat ∧ now ≤ q.expiresAt ∧ r.state ≠ SUBMITTED

instance (now : Int) (q : PaymentQuote) (r : IntentRecord) : Decidable (LateQuote now q r) :=
  inferInstanceAs (Decidable (_ ∧ _))

/-- The call is a late `receiveQuote` with a quote other than the held one. -/
def ReplacesQuote (o : PaymentOrchestrator) (now : Int) (op : Op) : Prop :=
  ∃ q ∈ op.quote?, ∃ r ∈ o.record? q.intentId, LateQuote now q r ∧ r.quote ≠ some q

variable {cfg : Config} {o o' : PaymentOrchestrator} {c : Call} {e : Exc}

theorem quote?_eq_some_iff {op : Op} {q : PaymentQuote} : op.quote? = some q ↔ op = .receiveQuote q := by
  constructor
  · intro h
    cases op with
    | receiveQuote q' => rw [Option.some.inj h]
    | _ => cases h
  · rintro rfl
    rfl

/-- A late quote is assigned. -/
theorem lateQuote_assigned {q : PaymentQuote} {r : IntentRecord} (hcall : Calls cfg o c o')
    (hop : c.op.quote? = some q) (hr : o.record? q.intentId = some r) (hlate : LateQuote c.env.now q r) :
    o'.record? q.intentId = some { r with quote := some q, quoteExpiresAt := q.expiresAt } := by
  obtain ⟨hfee, hexp, hstate⟩ := hlate
  obtain ⟨m, hrun⟩ := run_receiveQuote_late cfg hr hfee hexp hstate
  unfold Calls at hcall
  rw [quote?_eq_some_iff.mp hop, hrun] at hcall
  have ho' : o' = o.update q.intentId (fun r => { r with quote := some q, quoteExpiresAt := q.expiresAt }) :=
    (congrArg Outcome.state hcall).symm
  rw [ho', PaymentOrchestrator.record?_update, if_pos rfl, hr]
  rfl

/-- Assigning the quote a consistent record already holds changes nothing. -/
theorem update_held_quote {q : PaymentQuote} {r : IntentRecord} (hr : o.record? q.intentId = some r)
    (hcons : r.Consistent q.intentId) (hheld : r.quote = some q) :
    o.update q.intentId (fun r => { r with quote := some q, quoteExpiresAt := q.expiresAt }) = o := by
  have hself : ∀ v, o.intents.get? q.intentId = some v →
      { v with quote := some q, quoteExpiresAt := q.expiresAt } = v := by
    intro v hv
    have : v = r := Option.some.inj (hv.symm.trans hr)
    subst this
    rw [← hheld, ← (hcons.quote q hheld).2]
  unfold PaymentOrchestrator.update
  rw [Dict.modify_eq_self hself]

/-- **A rejected operation changes nothing, exactly when it is not a late quote that replaces the held
    one.** -/
theorem rejected_untouched_iff (hreach : Reachable cfg o) (hop : c.op.allOrNothing = true)
    (hcall : Calls cfg o c o') (he : c.result = .error e) (hpolicy : e.isPolicyError = true) :
    Untouched o o' ↔ ¬ ReplacesQuote o c.env.now c.op := by
  constructor
  · rintro ⟨hintents, _⟩ ⟨q, hq, r, hr, hlate, hne⟩
    have hafter := lateQuote_assigned hcall hq hr hlate
    have hbefore : o'.record? q.intentId = some r := (congrArg (·.get? q.intentId) hintents).trans hr
    have hsame : r = { r with quote := some q, quoteExpiresAt := q.expiresAt } :=
      Option.some.inj (hbefore.symm.trans hafter)
    exact hne (congrArg IntentRecord.quote hsame)
  · intro hnot
    have hstep := hcall.step
    rw [he] at hstep
    generalize hopc : c.op = op at hstep hnot hop
    generalize c.effects = es at hstep
    cases hstep with
    | refused hstore hintents _ _ => exact ⟨hintents, hstore⟩
    | @quoteOverwritten q r m hr hfee hexp hstate =>
        -- the late quote must be the held one, and then the assignment is void
        have hheld : r.quote = some q := by
          by_contra hne
          exact hnot ⟨q, rfl, r, hr, ⟨hfee, hexp, hstate⟩, hne⟩
        rw [update_held_quote hr (hreach.consistent.records _ r hr) hheld]
        exact ⟨rfl, rfl⟩
    -- a failed write of the store is no policy error
    | submittedUnsaved _ _ _ _ => cases hpolicy
    | approvedUnsaved _ _ _ => cases hpolicy
    | receiptUnsaved _ _ _ _ => cases hpolicy
    | confirmedUnsaved _ _ _ => cases hpolicy
    -- `execute` and the sweep are not in question
    | dispatchAmbiguous _ _ _ _ _ _ _ _ => cases hop
    | dispatchStranded _ _ _ => cases hop
    | swept _ _ _ => cases hop

namespace Sample

/-- A payment prepared for one invoice, and the late quote for another. -/
def beforeLateQuote : PaymentOrchestrator := play config (.init .empty 0) ((approved "i" 0).take 3)

def lateQuote : PaymentQuote := quote "i" "invoice B" 100

end Sample

/-- The rule itself fails: the rejected quote has replaced the one the payment was prepared from. -/
theorem rejected_not_untouched :
    ¬ ∀ (cfg : Config) (o o' : PaymentOrchestrator) (c : Call) (e : Exc), Reachable cfg o →
      c.op.allOrNothing = true → Calls cfg o c o' → c.result = .error e → e.isPolicyError = true →
      Untouched o o' := by
  intro h
  have hcall := Calls.of_call Sample.config (Sample.env 0 Sample.paid) Sample.beforeLateQuote
    (.receiveQuote Sample.lateQuote)
  have hun := h _ _ _ _ _ (Sample.reachable _) rfl hcall rfl rfl
  exact absurd hun (by decide)

/-- Two rejections that the rule covers, of a prepared payment: an approval under another hash, and the held quote once
    more. -/
theorem rejected_untouched_prepared :
    let o := Sample.beforeLateQuote
    let after := fun op => ((call Sample.config (Sample.env 0 Sample.paid) op).run o).state
    (∃ r, o.record? "i" = some r ∧ r.state = PREPARED ∧ r.quote = some (Sample.quote "i" "invoice A" 100)) ∧
      o.store.hasIntent "i" = true ∧
      Untouched o (after (.approve { Sample.approval "i" with preparedHash := "other" })) ∧
      Untouched o (after (.receiveQuote (Sample.quote "i" "invoice A" 100))) := by
  intro o after
  have hcalls (op : Op) := Calls.of_call Sample.config (Sample.env 0 Sample.paid) o op
  refine ⟨⟨_, rfl, rfl, rfl⟩, by decide, ?_, ?_⟩
  · refine (rejected_untouched_iff (Sample.reachable _) rfl (hcalls _) rfl rfl).mpr ?_
    rintro ⟨q, ⟨⟩, _⟩
  · refine (rejected_untouched_iff (Sample.reachable _) rfl (hcalls _) rfl rfl).mpr ?_
    rintro ⟨q, ⟨⟩, r, hr, _, hother⟩
    -- the record holds this very quote
    cases hr
    exact hother rfl

end HermesPayments
