import HermesPayments.Policy.Correctness.Rejection

/-!
# `HermesPayments.Policy.Correctness.QuoteBinding` — the approved quote is the prepared quote

The chain from the approval to the invoice that is paid: the approval names the held quote, and the prepared
payload was prepared for the held quote's instruction. `receiveQuote`, `prepare` and `approve` each check a
part of it. The early assignment in `receiveQuote` breaks it: a late quote replaces the held one under a
payload that was prepared, or approved, for the old.

`quote_bound` is the chain for every run without such a call.
-/

namespace HermesPayments

open Lib PaymentState

/-- The adapter was asked to prepare this instruction for this intent, and answered `prep`. -/
def PreparedFor (h : History) (id : String) (instruction : RailReceiveInstruction) (prep : PrepareResult) :
    Prop :=
  ∃ e ∈ h, ∃ amount maxFee, .prepareCall id instruction amount maxFee (.ok prep) ∈ e.seen.effects

/-- The held quote is the one the payload was prepared for, and the one the approval names. -/
structure QuoteBound (h : History) (id : String) (r : IntentRecord) : Prop where
  prepared : ∃ q prep, r.quote = some q ∧ r.prepared = some prep ∧ PreparedFor h id q.receiveInstruction prep
  approved : ∀ a, r.approval = some a → ∃ q, r.quote = some q ∧ a.quoteId = q.quoteId

/-- The call is a late quote that breaks the chain: it reaches an intent with a prepared payload and brings
    another instruction or, when there is an approval, another quote id. -/
def Rebinds (o : PaymentOrchestrator) (c : Call) : Prop :=
  ∃ q ∈ c.op.quote?, ∃ r ∈ o.record? q.intentId, LateQuote c.env.now q r ∧ r.state.hasPrepared = true ∧
    ∃ q₀ ∈ r.quote,
      q.receiveInstruction ≠ q₀.receiveInstruction ∨ r.approval.isSome = true ∧ q.quoteId ≠ q₀.quoteId

instance (o : PaymentOrchestrator) (c : Call) : Decidable (Rebinds o c) := by
  unfold Rebinds
  infer_instance

variable {cfg : Config} {o o' : PaymentOrchestrator} {c : Call} {h : History} {id : String}

theorem PreparedFor.append {instruction : RailReceiveInstruction} {prep : PrepareResult} (h' : History)
    (hp : PreparedFor h id instruction prep) : PreparedFor (h ++ h') id instruction prep := by
  obtain ⟨e, he, hmem⟩ := hp
  exact ⟨e, List.mem_append_left _ he, hmem⟩

/-- The chain only depends on the quote, the payload and the approval. -/
theorem QuoteBound.grow {r r' : IntentRecord} (h' : History) (hb : QuoteBound h id r)
    (hquote : r'.quote = r.quote) (hprep : r'.prepared = r.prepared) (happ : r'.approval = r.approval) :
    QuoteBound (h ++ h') id r' := by
  constructor
  · obtain ⟨q, prep, hq, hp, hfor⟩ := hb.prepared
    exact ⟨q, prep, hquote.trans hq, hprep.trans hp, hfor.append h'⟩
  · intro a ha
    obtain ⟨q, hq, hid⟩ := hb.approved a (happ ▸ ha)
    exact ⟨q, hquote.trans hq, hid⟩

/-- A late quote that does not rebind keeps the chain. -/
theorem QuoteBound.late {r : IntentRecord} {q : PaymentQuote} (h' : History) (hb : QuoteBound h id r)
    (hinstr : ∀ q₀, r.quote = some q₀ → q.receiveInstruction = q₀.receiveInstruction)
    (hqid : ∀ q₀, r.quote = some q₀ → r.approval.isSome = true → q.quoteId = q₀.quoteId) :
    QuoteBound (h ++ h') id { r with quote := some q, quoteExpiresAt := q.expiresAt } := by
  constructor
  · obtain ⟨q₀, prep, hq, hp, hfor⟩ := hb.prepared
    refine ⟨q, prep, rfl, hp, ?_⟩
    rw [hinstr q₀ hq]
    exact hfor.append h'
  · intro a ha
    obtain ⟨q₀, hq, hid⟩ := hb.approved a ha
    have ha' : r.approval = some a := ha
    exact ⟨q, rfl, by rw [hid, hqid q₀ hq (by rw [ha']; rfl)]⟩

/-- What one step keeps: the chain of the record it changes. -/
theorem RecordStep.quoteBound {r r' : IntentRecord} (hcons : r.Consistent id)
    (hr : o.record? id = some r) (hnot : ¬ Rebinds o c)
    (hrec : RecordStep c.env c.effects c.op c.result id r r')
    (hb : r.state.hasPrepared = true → QuoteBound h id r) :
    r'.state.hasPrepared = true → QuoteBound (h ++ [⟨o, c, o'⟩]) id r' := by
  generalize hopc : c.op = op at hrec
  generalize c.result = res at hrec
  intro hs
  cases hrec with
  | kept | reconciled _ => exact (hb hs).grow _ rfl rfl rfl
  | @quoteOverwritten q _ _ hfee hexp hstate =>
      have hlate : LateQuote c.env.now q r := ⟨hfee, hexp, hstate⟩
      have hop : c.op.quote? = some q := quote?_eq_some_iff.mpr hopc
      refine (hb hs).late _ (fun q₀ hq => ?_) (fun q₀ hq ha => ?_)
      · by_contra hne
        exact hnot ⟨q, hop, r, hr, hlate, hs, q₀, hq, .inl hne⟩
      · by_contra hne
        exact hnot ⟨q, hop, r, hr, hlate, hs, q₀, hq, .inr ⟨ha, hne⟩⟩
  | @prepared _ q prep _ hstate hquote _ _ _ hmem =>
      have hnone : r.approval = none := hcons.approval_none (by rw [hstate]; rfl)
      refine ⟨⟨q, prep, hquote, rfl, ⟨o, c, o'⟩, by simp, _, _, hmem⟩, fun a ha => ?_⟩
      rw [show r.approval = some a from ha] at hnone
      cases hnone
  | @approved a q prep _ hstate hquote hqid hprep _ =>
      obtain ⟨q₀, prep₀, hq₀, hp₀, hfor⟩ := (hb (by rw [hstate]; rfl)).prepared
      refine ⟨⟨q₀, prep₀, hq₀, hp₀, hfor.append _⟩, ?_⟩
      rintro a' ⟨⟩
      exact ⟨q, hquote, hqid.symm⟩
  | dispatchOpen hstate _ _ _ => exact (hb (by rw [hstate]; rfl)).grow _ rfl rfl rfl
  | swept hstate => exact (hb (by rw [hstate]; rfl)).grow _ rfl rfl rfl
  | quoted _ _ _ | dispatchSettled _ _ _ | receiptSettled _ _ _ _ _ _ | confirmed _ | cancelled _
  | rejected _ => cases hs

/-- **The approved quote is the prepared quote**, in every state of every run in which no late quote breaks
    the chain. -/
theorem quote_bound (hrun : PolicyRun cfg h o) (hnot : ∀ e ∈ h, ¬ Rebinds e.before e.seen) {r : IntentRecord}
    (hr : o.record? id = some r) (hs : r.state.hasPrepared = true) : QuoteBound h id r := by
  have hguarded : Run Fresh (fun o c o' => Calls cfg o c o' ∧ ¬ Rebinds o c) h o :=
    hrun.guarded (fun e he => hnot e he)
  refine Run.record_history (Q := fun h r => r.state.hasPrepared = true → QuoteBound h id r)
    (fun _ _ _ hstep => hstep.1) ?_ ?_ hguarded hr hs
  · intro h i
    exact nofun
  · rintro h o c o' r r' hprev ⟨_, hnot⟩ hro _ hbound hrec
    have hcons : o.Consistent :=
      PolicyRun.consistent (hprev.mono (fun _ h0 => h0) (fun _ _ _ hs => hs.1))
    exact hrec.quoteBound (hcons.records id r hro) hro hnot hbound

/-- A payment prepared for one invoice, then the late quote for another. -/
def Sample.requoted : List (Op × Env) :=
  (approved "i" 0).take 3 ++ [(.receiveQuote lateQuote, env 0 paid)]

/-- The rule itself fails: the payload prepared for one invoice is held under the quote for another. -/
theorem quote_not_bound :
    ¬ ∀ (cfg : Config) (h : History) (o : PaymentOrchestrator) (id : String) (r : IntentRecord),
      PolicyRun cfg h o → o.record? id = some r → r.state.hasPrepared = true → QuoteBound h id r := by
  intro hall
  obtain ⟨q, prep, hq, _, e, he, amount, maxFee, hmem⟩ := (hall Sample.config _ _ "i" _
    (run_play_init Sample.fresh.fresh Sample.requoted) rfl rfl).prepared
  obtain rfl : Sample.lateQuote = q := Option.some.inj hq
  -- the one preparation of the run was for the first invoice
  have heffects : (playHistory Sample.config (.init .empty 0) Sample.requoted).flatMap (·.seen.effects)
      = [.prepareCall "i" ⟨.LIGHTNING, some "invoice A"⟩ 1000 10 (.ok ⟨2, "hash", .LIGHTNING, [1, 2, 3]⟩)] :=
    rfl
  have hone : _ ∈ (playHistory Sample.config (.init .empty 0) Sample.requoted).flatMap (·.seen.effects) :=
    List.mem_flatMap.mpr ⟨e, he, hmem⟩
  rw [heffects, List.mem_singleton] at hone
  injection hone with _ hinstr
  exact absurd hinstr (by decide)

/-- A run the rule covers: a payment up to its approval. -/
theorem quote_bound_payment : ∃ r, (play Sample.config (.init .empty 0)
    (Sample.approved "i" 0)).record? "i" = some r ∧
    QuoteBound (playHistory Sample.config (.init .empty 0) (Sample.approved "i" 0)) "i" r :=
  ⟨_, rfl, quote_bound (run_play_init Sample.fresh.fresh _) (by decide) rfl rfl⟩

end HermesPayments
