import HermesPayments.Policy.Correctness.FlowSelection

/-!
# `HermesPayments.Policy.Correctness.QuotedFee` — the fee constraint of the quote

A quote says that its fee is fixed, or that it is the most there will be. `receiveQuote` compares the quoted fee with the
intent's limit, and `prepare` the previewed fee with the same limit; neither compares the two fees. So the constraint is
honoured along a run exactly when no preview that passes the limit breaks it (`fee_honoured_iff`).
-/

namespace HermesPayments

open Lib PaymentState

/-! ## The rule -/

/-- The fee is the quoted one, or at most the quoted one, as the quote says. -/
def PaymentQuote.Keeps (q : PaymentQuote) (feeSat : Int) : Prop :=
  match q.feeConstraint with
  | .exact => feeSat = q.feeSat
  | .max   => feeSat ≤ q.feeSat

instance (q : PaymentQuote) (feeSat : Int) : Decidable (q.Keeps feeSat) := by
  unfold PaymentQuote.Keeps
  split <;> infer_instance

/-- A call moved the intent from `QUOTED`, under this quote, to `PREPARED`, with this preview. -/
def PreparedUnder (h : History) (id : String) (q : PaymentQuote) (prep : PrepareResult) : Prop :=
  ∃ e ∈ h, ∃ r r', e.before.record? id = some r ∧ r.state = QUOTED ∧ r.quote = some q ∧
    e.after.record? id = some r' ∧ r'.state = PREPARED ∧ r'.prepared = some prep

/-- The call is a `prepare` of this quoted intent, for which the adapter has this preview. -/
structure Previews (o : PaymentOrchestrator) (c : Call) (id : String) (r : IntentRecord) (q : PaymentQuote)
    (prep : PrepareResult) : Prop where
  op     : c.op = .prepare
  first  : o.firstIn QUOTED = some (id, r)
  quote  : r.quote = some q
  answer : c.env.adapter.prepare q.receiveInstruction r.intent.amountSat r.intent.maxFeeSat = .ok prep

/-- Every preview that an intent was prepared with keeps to the quote it was prepared from and to the limit of the intent,
    and a preview that does not keep to the quote is refused. -/
structure FeeHonoured (h : History) (o : PaymentOrchestrator) : Prop where
  held    : ∀ id r prep, o.record? id = some r → r.prepared = some prep →
    (∃ q, PreparedUnder h id q prep) ∧ (∀ q, PreparedUnder h id q prep → q.Keeps prep.feeSat) ∧
      prep.feeSat ≤ r.intent.maxFeeSat
  refused : ∀ e ∈ h, ∀ id r q prep, Previews e.before e.seen id r q prep → ¬ q.Keeps prep.feeSat →
    (∃ x, e.seen.result = .error x) ∧ ∃ r', e.after.record? id = some r' ∧ r'.state = QUOTED

/-- A preview that breaks the constraint passes every check there is. -/
def Overlooks (cfg : Config) (o : PaymentOrchestrator) (c : Call) : Prop :=
  ∃ id r q prep, Previews o c id r q prep ∧ ¬ (r.quoteExpiresAt ≠ 0 ∧ c.env.now > r.quoteExpiresAt) ∧
    allowed cfg.railAllowlist c.env.adapter.rail = true ∧ prep.feeSat ≤ r.intent.maxFeeSat ∧ ¬ q.Keeps prep.feeSat

section

variable {cfg : Config} {o o' : PaymentOrchestrator} {c : Call} {h : History} {id : String} {r r' : IntentRecord}
  {q : PaymentQuote} {prep : PrepareResult}

/-! ## One call -/

/-- `prepare` returns a preview that passes its checks. -/
theorem prepare_returns {env : Env} (hfirst : o.firstIn QUOTED = some (id, r))
    (hunexpired : ¬ (r.quoteExpiresAt ≠ 0 ∧ env.now > r.quoteExpiresAt))
    (hrail : allowed cfg.railAllowlist env.adapter.rail = true) (hquote : r.quote = some q)
    (hanswer : env.adapter.prepare q.receiveInstruction r.intent.amountSat r.intent.maxFeeSat = .ok prep)
    (hfee : prep.feeSat ≤ r.intent.maxFeeSat) :
    ((call cfg env .prepare).run o).result = .ok (.prepared prep) := by
  have hstate : r.state = QUOTED := (PaymentOrchestrator.record?_of_firstIn hfirst).2
  have hcap : ¬ prep.feeSat > r.intent.maxFeeSat := by omega
  simp only [call, prepare, Proc.run_bind, run_findByState_some hfirst, checkQuoteExpired, hunexpired, validateRail, hrail,
    hstate, hquote, hanswer, hcap, if_false, if_true, Proc.run_pure, Proc.after_nil, transition_prepared_ok,
    decide_true, Bool.not_true, Bool.false_eq_true, Proc.run_emit]
  rfl

/-- What a call does to the record of an intent that it moves from `QUOTED` to `PREPARED`. -/
theorem RecordStep.moved_to_prepared {env : Env} {es : List Effect} {op : Op} {res : Except Exc Answer}
    (h : RecordStep env es op res id r r') (hstate : r.state = QUOTED) (hstate' : r'.state = PREPARED) :
    ∃ prep, op = .prepare ∧ res = .ok (.prepared prep) ∧ r'.prepared = some prep := by
  cases h with
  | @prepared _ _ prep _ _ _ _ _ _ _ => exact ⟨prep, rfl, rfl, rfl⟩
  | kept | quoteOverwritten _ _ _ | reconciled _ => cases hstate.symm.trans hstate'
  | dispatchOpen happroved _ _ _ => cases hstate.symm.trans happroved
  | quoted _ _ _ | approved _ _ _ _ _ | dispatchSettled _ _ _ | receiptSettled _ _ _ _ _ _ | confirmed _ | cancelled _
  | rejected _ | swept _ => cases hstate'

/-- … and what the intent and the adapter's answer were. -/
theorem Calls.moved_to_prepared (hcall : Calls cfg o c o') (ho : o.Consistent) (hr : o.record? id = some r)
    (hstate : r.state = QUOTED) (hr' : o'.record? id = some r') (hstate' : r'.state = PREPARED)
    (hquote : r.quote = some q) (hprep : r'.prepared = some prep) :
    Previews o c id r q prep ∧ ¬ (r.quoteExpiresAt ≠ 0 ∧ c.env.now > r.quoteExpiresAt) ∧
      allowed cfg.railAllowlist c.env.adapter.rail = true ∧ prep.feeSat ≤ r.intent.maxFeeSat := by
  obtain ⟨r₁, hr₁, hrec⟩ := hcall.record_step ho hr
  obtain rfl := Option.some.inj (hr'.symm.trans hr₁)
  obtain ⟨prep₁, hop, hres, hprep₁⟩ := hrec.moved_to_prepared hstate hstate'
  obtain rfl := Option.some.inj (hprep.symm.trans hprep₁)
  have hstep := hcall.step
  generalize c.effects = es at hstep
  rw [hop, hres] at hstep
  cases hstep with
  | @prepared id₀ r₀ q₀ _ hfirst hquote₀ hexp hrail hanswer hfee _ =>
      -- the intent that was moved is the one that was found
      obtain rfl : id = id₀ := by
        by_contra hne
        rw [PaymentOrchestrator.record?_logged, PaymentOrchestrator.record?_update, if_neg hne, hr] at hr'
        obtain rfl := Option.some.inj hr'
        cases hstate.symm.trans hstate'
      obtain rfl := Option.some.inj (hr.symm.trans (PaymentOrchestrator.record?_of_firstIn hfirst).1)
      obtain rfl := Option.some.inj (hquote.symm.trans hquote₀)
      exact ⟨⟨hop, hfirst, hquote, hanswer⟩, hexp, hrail, hfee⟩

/-- A call that does not overlook a preview prepares nothing under a quote whose constraint is broken. -/
theorem Calls.keeps (hcall : Calls cfg o c o') (ho : o.Consistent) (hnot : ¬ Overlooks cfg o c)
    (hr : o.record? id = some r) (hstate : r.state = QUOTED) (hquote : r.quote = some q)
    (hr' : o'.record? id = some r') (hstate' : r'.state = PREPARED) (hprep : r'.prepared = some prep) :
    q.Keeps prep.feeSat := by
  obtain ⟨hpreviews, hexp, hrail, hfee⟩ := hcall.moved_to_prepared ho hr hstate hr' hstate' hquote hprep
  by_contra hbroken
  exact hnot ⟨id, r, q, prep, hpreviews, hexp, hrail, hfee, hbroken⟩

/-- A call that does not overlook a preview refuses those that break the constraint. -/
theorem Calls.refuses (hcall : Calls cfg o c o') (hnot : ¬ Overlooks cfg o c) (hpreviews : Previews o c id r q prep)
    (hbroken : ¬ q.Keeps prep.feeSat) :
    (∃ x, c.result = .error x) ∧ ∃ r', o'.record? id = some r' ∧ r'.state = QUOTED := by
  obtain ⟨hop, hfirst, hquote, hanswer⟩ := hpreviews
  have hstep := hcall.step
  generalize c.result = res at hstep ⊢
  generalize c.effects = es at hstep
  rw [hop] at hstep
  cases hstep with
  | refused _ hintents _ _ =>
      obtain ⟨hr, hstate⟩ := PaymentOrchestrator.record?_of_firstIn hfirst
      have hsame : o'.record? id = o.record? id := congrArg (·.get? id) hintents
      exact ⟨⟨_, rfl⟩, r, hsame.trans hr, hstate⟩
  | @prepared id₀ r₀ q₀ prep₀ hfirst₀ hquote₀ hexp hrail hanswer₀ hfee _ =>
      obtain ⟨rfl, rfl⟩ := Prod.mk.inj (Option.some.inj (hfirst.symm.trans hfirst₀))
      obtain rfl := Option.some.inj (hquote.symm.trans hquote₀)
      obtain rfl := Except.ok.inj (hanswer.symm.trans hanswer₀)
      exact absurd ⟨id, r, q, prep, ⟨hop, hfirst, hquote, hanswer⟩, hexp, hrail, hfee, hbroken⟩ hnot

/-- A call that overlooks a preview takes it. -/
theorem Overlooks.taken (h : Overlooks cfg o c) (hcall : Calls cfg o c o') : ∃ id r q prep, Previews o c id r q prep ∧
    ¬ q.Keeps prep.feeSat ∧ c.result = .ok (.prepared prep) := by
  obtain ⟨id, r, q, prep, hpreviews, hexp, hrail, hfee, hbroken⟩ := h
  refine ⟨id, r, q, prep, hpreviews, hbroken, ?_⟩
  have hreturns := prepare_returns hpreviews.first hexp hrail hpreviews.quote hpreviews.answer hfee
  unfold Calls at hcall
  rw [hpreviews.op] at hcall
  rw [hcall] at hreturns
  exact hreturns

/-! ## Runs -/

theorem PreparedUnder.append (h' : History) (hp : PreparedUnder h id q prep) : PreparedUnder (h ++ h') id q prep := by
  obtain ⟨e, he, hmoved⟩ := hp
  exact ⟨e, List.mem_append_left _ he, hmoved⟩

/-- What one step keeps: a held preview was taken under some quote, within the limit of the intent. -/
theorem RecordStep.preparedUnder (hr : o.record? id = some r) (hr' : o'.record? id = some r')
    (hrec : RecordStep c.env c.effects c.op c.result id r r')
    (ih : ∀ prep, r.prepared = some prep → (∃ q, PreparedUnder h id q prep) ∧ prep.feeSat ≤ r.intent.maxFeeSat)
    (hprep : r'.prepared = some prep) :
    (∃ q, PreparedUnder (h ++ [⟨o, c, o'⟩]) id q prep) ∧ prep.feeSat ≤ r'.intent.maxFeeSat := by
  have hgrow : r.prepared = some prep → r'.intent = r.intent →
      (∃ q, PreparedUnder (h ++ [⟨o, c, o'⟩]) id q prep) ∧ prep.feeSat ≤ r'.intent.maxFeeSat := by
    intro hheld hintent
    obtain ⟨⟨q, hunder⟩, hfee⟩ := ih prep hheld
    exact ⟨⟨q, hunder.append _⟩, by rw [hintent]; exact hfee⟩
  have hintent := hrec.intent_eq
  generalize c.op = op at hrec
  generalize c.result = res at hrec
  cases hrec with
  | @prepared _ q prep₀ _ hstate hquote _ _ hfee _ =>
      obtain rfl := Option.some.inj hprep
      exact ⟨⟨q, ⟨o, c, o'⟩, by simp, r, _, hr, hstate, hquote, hr', rfl, rfl⟩, hfee⟩
  | kept | quoteOverwritten _ _ _ | quoted _ _ _ | approved _ _ _ _ _ | dispatchSettled _ _ _ | dispatchOpen _ _ _ _
  | receiptSettled _ _ _ _ _ _ | confirmed _ | reconciled _ | cancelled _ | rejected _ | swept _ => exact hgrow hprep hintent

theorem PolicyRun.preparedUnder (hrun : PolicyRun cfg h o) : ∀ id r prep, o.record? id = some r → r.prepared = some prep →
    (∃ q, PreparedUnder h id q prep) ∧ prep.feeSat ≤ r.intent.maxFeeSat := by
  intro id r prep hr hprep
  refine Run.record_history (Q := fun h r => ∀ prep, r.prepared = some prep →
    (∃ q, PreparedUnder h id q prep) ∧ prep.feeSat ≤ r.intent.maxFeeSat) (fun _ _ _ hcall => hcall) ?_ ?_ hrun hr prep hprep
  · intro h i
    exact nofun
  · intro h o c o' r r' _ _ hro hr' hunder hrec prep hprep
    exact hrec.preparedUnder hro hr' hunder hprep

end

/-- **The fee constraint is honoured** along a run exactly when no preview that breaks it passes the other checks. -/
theorem fee_honoured_iff {cfg : Config} {h : History} {o : PaymentOrchestrator} (hrun : PolicyRun cfg h o) :
    FeeHonoured h o ↔ ∀ e ∈ h, ¬ Overlooks cfg e.before e.seen := by
  constructor
  · intro hhonoured e he hoverlooks
    obtain ⟨_, _, hcall⟩ := hrun.of_mem he
    obtain ⟨id, r, q, prep, hpreviews, hbroken, hreturns⟩ := hoverlooks.taken hcall
    obtain ⟨⟨x, herror⟩, _⟩ := hhonoured.refused e he id r q prep hpreviews hbroken
    cases hreturns.symm.trans herror
  · intro hnot
    constructor
    · intro id r prep hr hprep
      obtain ⟨hunder, hfee⟩ := PolicyRun.preparedUnder hrun id r prep hr hprep
      refine ⟨hunder, ?_, hfee⟩
      rintro q ⟨e, he, r₀, r₁, hr₀, hstate, hquote, hr₁, hstate', hprep'⟩
      obtain ⟨g, hbefore, hcall⟩ := hrun.of_mem he
      exact hcall.keeps (PolicyRun.consistent hbefore) (hnot e he) hr₀ hstate hquote hr₁ hstate' hprep'
    · intro e he id r q prep hpreviews hbroken
      obtain ⟨_, _, hcall⟩ := hrun.of_mem he
      exact hcall.refuses (hnot e he) hpreviews hbroken

namespace Sample

/-- A quote that fixes a fee of 1, where the adapter previews 2. -/
def fixedQuote : PaymentQuote :=
  { quote "i" "invoice A" 100 with feeSat := 1, feeConstraint := .exact, feeSat_nonneg := by decide }

/-- An intent prepared under the fixed fee. -/
def overpriced : List (Op × Env) :=
  [(.submit (intent "i" 100), env 0 paid), (.receiveQuote fixedQuote, env 0 paid), (.prepare, env 0 paid)]

end Sample

/-- A payment whose preview keeps to the quoted maximum. -/
theorem fee_honoured_payment : FeeHonoured (playHistory Sample.config (.init .empty 0) (Sample.approved "i" 0))
    (play Sample.config (.init .empty 0) (Sample.approved "i" 0)) := by
  refine (fee_honoured_iff (run_play_init Sample.fresh.fresh _)).mpr ?_
  rintro e he ⟨id, r, q, prep, ⟨hop, hfirst, hquote, hanswer⟩, _, _, _, hbroken⟩
  rcases List.mem_cons.mp he with rfl | he
  · cases hop
  rcases List.mem_cons.mp he with rfl | he
  · cases hop
  rcases List.mem_cons.mp he with rfl | he
  · -- the quoted maximum is 5, the preview 2
    obtain ⟨-, rfl⟩ := Prod.mk.inj (Option.some.inj hfirst)
    obtain rfl := Option.some.inj hquote
    obtain rfl := Except.ok.inj hanswer
    exact hbroken (by decide)
  rcases List.mem_cons.mp he with rfl | he
  · cases hop
  · cases he

/-- The preview is taken though it costs more than the fixed fee. -/
theorem fixed_fee_exceeded :
    ¬ ∀ (cfg : Config) (h : History) (o : PaymentOrchestrator), PolicyRun cfg h o → FeeHonoured h o := by
  intro hall
  have hhonoured := hall Sample.config _ _ (run_play_init Sample.fresh.fresh Sample.overpriced)
  obtain ⟨-, hkeeps, -⟩ := hhonoured.held "i" _ ⟨2, "hash", .LIGHTNING, [1, 2, 3]⟩ rfl rfl
  have hfee : Sample.fixedQuote.Keeps 2 :=
    hkeeps Sample.fixedQuote ⟨_, List.mem_of_getElem? (i := 2) rfl, _, _, rfl, rfl, rfl, rfl, rfl, rfl⟩
  exact absurd hfee (by decide)

end HermesPayments
