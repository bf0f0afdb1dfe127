import HermesPayments.Exchange

/-!
# `HermesPayments.Exchange.Provenance` — where what a process holds comes from

Every part of a record has a source: the intent was submitted here or is on the board, the quote was injected by the
operator or came from the recipient, the wallet prepared the payload for what a quote asked, the approver was told to
approve it, and the payload of a record that is past approval has been dispatched. `Sourced` says so of one record, and
`ExchangeRun.sourced` that it holds of every record of every party, in memory and in the snapshot file, whatever the
parties were told, whenever they were killed, and whatever their transports did.
-/

namespace HermesPayments

open Lib PaymentState

section

variable {ι : Type} (config : ι → ProcessConfig) (h : ExchangeHistory ι) (p : ι)

/-! ## Sources -/

/-- The party was told to submit the intent, or has received it as its recipient. -/
inductive IntentSource (i : PaymentIntent) : Prop
  | submitted (htold : Told h p (.submitIntent i)) (hlocal : i.sender.pubkey = (config p).identity.pubkey)
  | received (horigin : Origin config h (.intent i)) (hlocal : i.recipient.pubkey = (config p).identity.pubkey)

/-- The party was told the quote, or has received it from the intent's recipient. -/
inductive QuoteSource (i : PaymentIntent) (q : PaymentQuote) : Prop
  | injected (htold : Told h p (.submitQuoteLocal q))
  | received (horigin : Origin config h (.quote q)) (hrecipient : q.recipient.pubkey = i.recipient.pubkey)

/-- The wallet has prepared the amounts of the intent for what a quote for it asked. -/
structure PreparedFrom (id : String) (i : PaymentIntent) (prep : PrepareResult) (q : PaymentQuote) : Prop where
  intentId : q.intentId = id
  source   : QuoteSource config h p i q
  prepared : PolicyPerformed config h p (.prepareCall id q.receiveInstruction i.amountSat i.maxFeeSat (.ok prep))
  fee      : prep.feeSat ≤ i.maxFeeSat

/-- The approver of the party was told to approve it, by the hash or by what is shown of it. -/
structure ApprovalSource (id : String) (a : PaymentApproval) : Prop where
  intentId : a.intentId = id
  approver : (config p).approver = some a.approver
  told     : ∃ shown, Told h p (.approve id a.quoteId shown) ∧
    (shown = a.preparedHash ∨ shown = redactedIdentifier a.preparedHash)

/-- The payload has been dispatched, once or more often. -/
abbrev Dispatched (id : String) (prep : PrepareResult) : Prop :=
  PolicyPerformed config h p (.executeCall id prep.preparedPayload prep.preparedHash)

/-- The receipt is for the intent: its amount, to its recipient. -/
structure PaymentReceipt.IsFor (rc : PaymentReceipt) (id : String) (i : PaymentIntent) : Prop where
  intentId  : rc.intentId = id
  amountSat : rc.amountSat = i.amountSat
  recipient : rc.recipient.pubkey = i.recipient.pubkey

/-- The wallet has answered a dispatch of the payload. -/
def WalletAnswered (prep : PrepareResult) (res : ExecuteResult) : Prop :=
  ∃ e ∈ h, ∃ s penv, Handling e p s penv .execute ∧
    penv.adapter.execute prep.preparedPayload prep.preparedHash = .ok res

/-- The party has built the receipt from the wallet's answer to the dispatch, or it has received the receipt and its own
    wallet has verified the amount of the intent under the receipt's reference. -/
inductive ReceiptSource (id : String) (i : PaymentIntent) (rc : PaymentReceipt) : Prop
  | built {prep : PrepareResult} {res : ExecuteResult} (hanswered : WalletAnswered h p prep res)
      (href : rc.settlementRef = res.settlementRef) (hfee : rc.feeSat = res.feeSat)
  | received {v : ReceiptVerifyResult} (horigin : Origin config h (.receipt rc)) (hverified : v.verified = true)
      (hcall : PolicyPerformed config h p (.verifyCall id rc.settlementRef i.amountSat (.ok v)))

/-- Every part of a record has a source. -/
structure Sourced (id : String) (d : SnapshotRecord) : Prop where
  intentId : d.intent.id = id
  intent   : IntentSource config h p d.intent
  quote    : ∀ q, d.quote = some q → q.intentId = id ∧ QuoteSource config h p d.intent q
  prepared : ∀ prep, d.prepared = some prep → ∃ q, PreparedFrom config h p id d.intent prep q
  approval : ∀ a, d.approval = some a → ApprovalSource config h p id a
  approved : d.state.hasApproval = true →
    ∃ a prep, d.approval = some a ∧ d.prepared = some prep ∧ prep.preparedHash = a.preparedHash
  receipt  : ∀ rc, d.receipt = some rc →
    d.state.spent = true ∧ rc.IsFor id d.intent ∧ ReceiptSource config h p id d.intent rc
  spent    : d.state.spent = true → ∃ prep, d.prepared = some prep ∧ Dispatched config h p id prep

/-- The records with their sources, and the messages with their origins. -/
def provenance : Contents := ⟨Sourced config h p, Origin config h⟩

end

section

variable {ι : Type} {config : ι → ProcessConfig} {h : ExchangeHistory ι} {p : ι} {e : Event (Exchange ι) (ExchangeEvent ι)}
  {id : String} {i : PaymentIntent}

/-! ## Sources stay -/

theorem IntentSource.snoc (hi : IntentSource config h p i) : IntentSource config (h ++ [e]) p i := by
  cases hi with
  | submitted htold hlocal => exact .submitted htold.snoc hlocal
  | received horigin hlocal => exact .received horigin.snoc hlocal

theorem QuoteSource.snoc {q : PaymentQuote} (hq : QuoteSource config h p i q) : QuoteSource config (h ++ [e]) p i q := by
  cases hq with
  | injected htold => exact .injected htold.snoc
  | received horigin hrecipient => exact .received horigin.snoc hrecipient

theorem PreparedFrom.snoc {prep : PrepareResult} {q : PaymentQuote} (hprep : PreparedFrom config h p id i prep q) :
    PreparedFrom config (h ++ [e]) p id i prep q :=
  ⟨hprep.intentId, hprep.source.snoc, hprep.prepared.snoc, hprep.fee⟩

theorem ApprovalSource.snoc {a : PaymentApproval} (ha : ApprovalSource config h p id a) :
    ApprovalSource config (h ++ [e]) p id a := by
  obtain ⟨shown, htold, hshown⟩ := ha.told
  exact ⟨ha.intentId, ha.approver, shown, htold.snoc, hshown⟩

theorem ReceiptSource.snoc {rc : PaymentReceipt} (hrc : ReceiptSource config h p id i rc) :
    ReceiptSource config (h ++ [e]) p id i rc := by
  cases hrc with
  | built hanswered href hfee =>
      obtain ⟨e', he', hanswered⟩ := hanswered
      exact .built ⟨e', List.mem_append_left _ he', hanswered⟩ href hfee
  | received horigin hverified hcall => exact .received horigin.snoc hverified hcall.snoc

theorem Sourced.snoc {d : SnapshotRecord} (hd : Sourced config h p id d) : Sourced config (h ++ [e]) p id d where
  intentId := hd.intentId
  intent   := hd.intent.snoc
  quote q hq := ⟨(hd.quote q hq).1, (hd.quote q hq).2.snoc⟩
  prepared prep hprep := by
    obtain ⟨q, hq⟩ := hd.prepared prep hprep
    exact ⟨q, hq.snoc⟩
  approval a ha := (hd.approval a ha).snoc
  approved := hd.approved
  receipt rc hrc := by
    obtain ⟨hspent, hfor, hsource⟩ := hd.receipt rc hrc
    exact ⟨hspent, hfor, hsource.snoc⟩
  spent hs := by
    obtain ⟨prep, hprep, hdispatched⟩ := hd.spent hs
    exact ⟨prep, hprep, hdispatched.snoc⟩

/-- Recovery moves a record from `EXECUTING` to `RECONCILIATION_REQUIRED`, and both are past the dispatch. -/
theorem survives_provenance : (provenance config h p).Survives := by
  rintro id d state result hd hstate
  have hboth {P : PaymentState → Prop} (hmoved : P RECONCILIATION_REQUIRED ↔ P EXECUTING) : P state ↔ P d.state := by
    rcases hstate with rfl | ⟨hexec, rfl⟩
    · exact Iff.rfl
    · rw [hexec]
      exact hmoved
  have happroved : state.hasApproval = true ↔ d.state.hasApproval = true := hboth (P := fun s => s.hasApproval = true) Iff.rfl
  have hspent : state.spent = true ↔ d.state.spent = true := hboth (P := fun s => s.spent = true) Iff.rfl
  refine ⟨hd.intentId, hd.intent, hd.quote, hd.prepared, hd.approval, fun hs => hd.approved (happroved.mp hs), ?_,
    fun hs => hd.spent (hspent.mp hs)⟩
  intro rc hrc
  obtain ⟨hs, hrest⟩ := hd.receipt rc hrc
  exact ⟨hspent.mpr hs, hrest⟩

/-! ## One call -/

/-- The receipt that `execute` returns is for the intent it has dispatched, as the wallet has answered. -/
theorem Step.receipt_built {cfg : Config} {env : Env} {o o' : PaymentOrchestrator} {res : Except Exc Answer}
    {es : List Effect} (hstep : Step cfg env o .execute res o' es) {rc : PaymentReceipt} (hres : res = .ok (.receipt rc))
    {r : IntentRecord} {hash : String} {payload : Bytes} (hr : o.record? id = some r)
    (hmem : .executeCall id payload hash ∈ es) : rc.IsFor r.intent.id r.intent ∧
      ∃ (prep : PrepareResult) (answer : ExecuteResult), env.adapter.execute prep.preparedPayload prep.preparedHash = .ok answer ∧
        rc.settlementRef = answer.settlementRef ∧ rc.feeSat = answer.feeSat := by
  obtain ⟨_, r', _, hfirst, _⟩ := hstep.of_dispatch (dispatches_mem hmem)
  obtain ⟨hr', _⟩ := PaymentOrchestrator.record?_of_firstIn hfirst
  obtain rfl : r' = r := Option.some.inj (hr'.symm.trans hr)
  cases hstep with
  | dispatchSettled hfirst' _ hanswer _ _ =>
      obtain ⟨-, rfl⟩ := Prod.mk.inj (Option.some.inj (hfirst.symm.trans hfirst'))
      cases hres
      exact ⟨⟨rfl, rfl, rfl⟩, _, _, hanswer, rfl, rfl⟩
  | refused _ _ _ _ | dispatchAmbiguous _ _ _ _ _ _ _ _ | dispatchStranded _ _ _ => cases hres

section Call

variable {penv : ProcessEnv} {s : ProcessState} {c : Command} {call : Call} {o' : PaymentOrchestrator}

theorem origin_of_holds {m : PaymentMessage} (hs : (provenance config h p).OfState s) (hinbox : s.inbox.Holds m) :
    Origin config h m := by
  obtain ⟨msg, hmsg, rfl⟩ := hinbox
  exact hs.inbox msg hmsg

/-- A submission: the record is new. -/
theorem sourced_submitted (hasks : c.Asks (config p) penv s (.submit i)) (htold : Told h p c)
    (hs : (provenance config h p).OfState s) :
    Sourced config h p i.id (PaymentOrchestrator.submittedRecord i).snapshot where
  intentId := rfl
  intent := by
    cases hasks with
    | submitIntent hlocal => exact .submitted htold hlocal
    | acceptIntent hinbox hlocal => exact .received (origin_of_holds hs hinbox) hlocal
  quote _ hq := by cases hq
  prepared _ hprep := by cases hprep
  approval _ ha := by cases ha
  approved hs := by cases hs
  receipt _ hrc := by cases hrc
  spent hs := by cases hs

/-- A quote that a command hands to the policy engine. -/
theorem quoteSource_of_asks {q : PaymentQuote} {r : IntentRecord} (hasks : c.Asks (config p) penv s (.receiveQuote q))
    (htold : Told h p c) (hs : (provenance config h p).OfState s) (hr : s.orchestrator.record? q.intentId = some r) :
    QuoteSource config h p r.intent q := by
  cases hasks with
  | acceptQuote hinbox hrecipient => exact .received (origin_of_holds hs hinbox) (hrecipient r hr)
  | submitQuoteLocal => exact .injected htold

/-- An approval that a command hands to it. -/
theorem approvalSource_of_asks {a : PaymentApproval} (hasks : c.Asks (config p) penv s (.approve a)) (htold : Told h p c) :
    ApprovalSource config h p a.intentId a := by
  cases hasks with
  | @approve approver intentId quoteId preparedHash happrover =>
      refine ⟨rfl, happrover, preparedHash, htold, ?_⟩
      show preparedHash = resolveHash _ preparedHash ∨ preparedHash = redactedIdentifier (resolveHash _ preparedHash)
      unfold resolveHash
      split
      · split
        · exact .inr ‹_›
        · exact .inl rfl
      · exact .inl rfl

/-- **A call** that a command makes leaves every record with its sources: what it adds it was told, or found in the inbox,
    or has just performed. -/
theorem sourced_call (he : e ∈ h) (hhandling : Handling e p s penv c) (hasks : c.Asks (config p) penv s call.op)
    (henv : call.env = penv.env) (hcall : Calls (config p).policy s.orchestrator call o')
    (hperformed : ∀ w ∈ call.effects, PolicyPerformed config h p w)
    (hs : (provenance config h p).OfState s) : (provenance config h p).OfOrchestrator o' := by
  have htold : Told h p c := ⟨e, he, s, penv, hhandling⟩
  intro id r' hr'
  show Sourced config h p id r'.snapshot
  rcases hcall.record_source hr' with ⟨i, hop, rfl, rfl⟩ | ⟨r, hr, hrec⟩
  · rw [hop] at hasks
    exact sourced_submitted hasks htold hs
  have hd : Sourced config h p id r.snapshot := hs.records id r hr
  obtain ⟨op, env, res, es⟩ := call
  -- before the dispatch there is no receipt
  have hunpaid {P : PaymentReceipt → Prop} (hstate : r.state.spent = false) : ∀ rc, r.receipt = some rc → P rc := by
    intro rc hrc
    have hs : r.state.spent = true := (hd.receipt rc hrc).1
    rw [hstate] at hs
    cases hs
  cases hrec with
  | kept => exact hd
  | quoteOverwritten _ _ _ =>
      exact { hd with
        quote := by
          rintro q' ⟨⟩
          exact ⟨rfl, quoteSource_of_asks hasks htold hs hr⟩ }
  | quoted _ _ hstate =>
      exact { hd with
        quote := by
          rintro q' ⟨⟩
          exact ⟨rfl, quoteSource_of_asks hasks htold hs hr⟩
        approved := by
          intro hs
          cases hs
        receipt := hunpaid (by rw [hstate]; rfl)
        spent := by
          intro hs
          cases hs }
  | prepared hstate hquote _ _ hfee hmem =>
      exact { hd with
        prepared := by
          rintro prep' ⟨⟩
          obtain ⟨hid, hsource⟩ := hd.quote _ hquote
          exact ⟨_, hid, hsource, hperformed _ hmem, hfee⟩
        approved := by
          intro hs
          cases hs
        receipt := hunpaid (by rw [hstate]; rfl)
        spent := by
          intro hs
          cases hs }
  | approved hstate _ _ hprep hhash =>
      exact { hd with
        approval := by
          rintro a' ⟨⟩
          exact approvalSource_of_asks hasks htold
        approved := fun _ => ⟨_, _, rfl, hprep, hhash⟩
        receipt := hunpaid (by rw [hstate]; rfl)
        spent := by
          intro hs
          cases hs }
  | dispatchSettled _ hprep hmem =>
      exact { hd with
        approved := by
          intro hs
          cases hs
        receipt := by
          rintro rc' ⟨⟩
          obtain ⟨hfor, prep, answer, hanswer, href, hfee⟩ := hcall.step.receipt_built rfl hr hmem
          rw [henv] at hanswer
          cases hasks with
          | execute => exact ⟨rfl, hd.intentId ▸ hfor, .built ⟨e, he, s, penv, hhandling, hanswer⟩ href hfee⟩
        spent := fun _ => ⟨_, hprep, hperformed _ hmem⟩ }
  | dispatchOpen hstate hprep _ hmem =>
      exact { hd with
        approved := fun _ => hd.approved (by rw [show r.snapshot.state = APPROVED from hstate]; rfl)
        receipt := hunpaid (by rw [hstate]; rfl)
        spent := fun _ => ⟨_, hprep, hperformed _ hmem⟩ }
  | receiptSettled hstate hamount _ _ hverified hmem =>
      have hspent : r.snapshot.state.spent = true := by
        show r.state.spent = true
        rcases hstate with hstate | hstate
        · rw [hstate]
          rfl
        · rw [hstate]
          rfl
      exact { hd with
        approved := by
          intro hs
          cases hs
        receipt := by
          rintro rc' ⟨⟩
          cases hasks with
          | acceptReceipt hinbox hrecipient =>
              rw [hamount] at hmem
              exact ⟨rfl, ⟨rfl, hamount, hrecipient r hr⟩, .received (origin_of_holds hs hinbox) hverified (hperformed _ hmem)⟩
        spent := fun _ => hd.spent hspent }
  | swept hstate | confirmed hstate | reconciled hstate | cancelled hstate | rejected hstate => cases hasks

end Call

/-! ## Runs -/

/-- What a step of a party may bring in has its sources in the history with the step. -/
theorem admits_provenance {x x' : Exchange ι} {event : NodeEvent} (hreads : event.ReadsFrom x.board)
    (horigin : ∀ m ∈ x.board, Origin config h m) (hn : (provenance config h p).OfNode (x.nodes p)) :
    event.Admits (provenance config (h ++ [⟨x, .party p event, x'⟩]) p) (config p) (x.nodes p) := by
  have hn' : (provenance config (h ++ [⟨x, .party p event, x'⟩]) p).OfNode (x.nodes p) :=
    hn.mono (fun _ _ hd => Sourced.snoc hd) fun _ hm => Origin.snoc hm
  -- the effects of the handler are among those the step has performed
  have hcommand {s : ProcessState} {penv : ProcessEnv} {c : Command} (hproc : (x.nodes p).proc = some s)
      (hline : event.line? = some (penv, .ok c))
      (hdone : ∀ w ∈ ((handler (config p) penv c).run s).effects, w ∈ event.performed (config p) (x.nodes p)) :
      (provenance config (h ++ [⟨x, .party p event, x'⟩]) p).Admits (config p) penv s c := by
    have hlast : (⟨x, .party p event, x'⟩ : Event (Exchange ι) (ExchangeEvent ι)) ∈ h ++ [⟨x, .party p event, x'⟩] :=
      List.mem_append_right _ (List.mem_singleton_self _)
    refine ⟨fun call o' hasks henv hcall heffects => ?_, fun limit ms _ hms m hm => ?_⟩
    · refine sourced_call hlast ⟨hproc, event, rfl, hline⟩ hasks henv hcall ?_ (hn'.2 s hproc).2
      intro w hw
      exact ⟨_, hlast, event, rfl, hdone _ (heffects _ (List.mem_map_of_mem hw))⟩
    · exact (horigin _ (hreads penv (.ok c) hline limit ms hms m hm)).snoc
  have hall {s : ProcessState} {penv : ProcessEnv} {c : Command} :
      ∀ w ∈ ((handler (config p) penv c).run s).effects, w ∈ (s.handle (config p) penv (.ok c)).effects := by
    intro w hw
    rw [(handle_eq (config p) penv s c).2]
    exact List.mem_append_left _ hw
  cases event with
  | handled penv parsed result =>
      intro s hproc c hparsed
      subst hparsed
      refine hcommand hproc rfl fun w hw => ?_
      show w ∈ (x.nodes p).proc.elim [] _
      rw [hproc]
      exact hall w hw
  | killed penv parsed performed =>
      intro s hproc hperformed c hparsed
      subst hparsed
      refine hcommand hproc rfl fun w hw => ?_
      show w ∈ performed
      rw [hperformed]
      exact hall w hw
  | started _ | startCut _ _ => trivial

/-- **What the parties hold** has its sources, whatever happened. -/
theorem ExchangeRun.sourced [DecidableEq ι] {x : Exchange ι} (hrun : ExchangeRun config h x) (p : ι) : (provenance config h p).OfNode (x.nodes p) := by
  refine hrun.history (P := fun h x => ∀ p, (provenance config h p).OfNode (x.nodes p)) ?_ ?_ p
  · rintro x ⟨_, hfresh⟩ p
    rw [hfresh p]
    have hnone : (provenance config [] p).OfSnapshot World.empty.snapshot := by
      rintro snap hsnap
      cases hsnap
    exact ⟨hnone, fun s hs => by cases hs⟩
  · intro h x i x' hprev ih hstep p
    have horigin := ExchangeRun.board_origin hprev
    have hgrow {x' : Exchange ι} {i : ExchangeEvent ι} :
        (provenance config (h ++ [⟨x, i, x'⟩]) p).OfNode (x.nodes p) :=
      (ih p).mono (fun _ _ hd => Sourced.snoc hd) fun _ hm => Origin.snoc hm
    cases hstep with
    | @party p' event n' hnode hreads =>
        show Contents.OfNode _ (Function.update x.nodes p' n' p)
        by_cases hp : p = p'
        · subst hp
          rw [Function.update_self]
          exact hnode.contents survives_provenance (admits_provenance hreads horigin (ih p)) hgrow
        · rw [Function.update_of_ne hp]
          exact hgrow
    | others _ => exact hgrow

/-- **What a step dispatches** has its sources in what happened before. -/
theorem ExchangeRun.dispatch_sources [DecidableEq ι] {x : Exchange ι} (hrun : ExchangeRun config h x) {p : ι} {event : NodeEvent}
    {n' : Node} (hnode : NodeStep (config p) (x.nodes p) event n') {id hash : String} {payload : Bytes}
    (hw : .peer (.policy (.executeCall id payload hash)) ∈ event.performed (config p) (x.nodes p)) :
    ∃ i q prep a, i.id = id ∧ IntentSource config h p i ∧ PreparedFrom config h p id i prep q ∧
      prep.preparedPayload = payload ∧ prep.preparedHash = hash ∧
      ApprovalSource config h p id a ∧ a.preparedHash = hash := by
  obtain ⟨s, _, hproc, _, r, prep, hfirst, hprep, rfl, rfl⟩ := hnode.dispatches hw
  obtain ⟨hr, hstate⟩ := PaymentOrchestrator.record?_of_firstIn hfirst
  have hd : Sourced config h p id r.snapshot := ((hrun.sourced p).2 s hproc).2.records id r hr
  obtain ⟨q, hq⟩ := hd.prepared prep hprep
  obtain ⟨a, prep', ha, hprep', hhash⟩ := hd.approved (by rw [show r.snapshot.state = APPROVED from hstate]; rfl)
  obtain rfl : prep' = prep := Option.some.inj (hprep'.symm.trans hprep)
  exact ⟨r.intent, q, prep', a, hd.intentId, hd.intent, hq, rfl, rfl, hd.approval a ha, hhash.symm⟩

end

end HermesPayments
