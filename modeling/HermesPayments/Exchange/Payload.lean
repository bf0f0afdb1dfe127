import HermesPayments.Exchange
import HermesPayments.Process.Runs

/-!
# `HermesPayments.Exchange.Payload` — an intent keeps its payload

A kill may hide from the snapshot that a payment was dispatched, and then the payment is dispatched again. It is dispatched
with the same payload: from the line that prepares it on, the record of the intent keeps it, in memory and in the snapshot
file (`SnapshotRecord.Keeps`), recovery reads it back, and the intent cannot be submitted anew, since the store file never
forgets it.
-/

namespace HermesPayments

open Lib PaymentState

/-! ## One record -/

/-- The states in which no payload has been prepared. -/
def PaymentState.unprepared : PaymentState → Bool
  | DRAFT | SUBMITTED | QUOTED => true
  | PREPARED | APPROVED | EXECUTING | SETTLED | FAILED | REJECTED | EXPIRED | CANCELLED | RECONCILIATION_REQUIRED => false

/-- The record holds the payload, and is past the states in which one is prepared. -/
structure SnapshotRecord.Keeps (prep : PrepareResult) (d : SnapshotRecord) : Prop where
  prepared : d.prepared = some prep
  later    : d.state.unprepared = false

/-- No call takes the payload from a record that keeps it. -/
theorem RecordStep.keeps {env : Env} {es : List Effect} {op : Op} {res : Except Exc Answer} {id : String}
    {r r' : IntentRecord} (h : RecordStep env es op res id r r') {prep : PrepareResult} (hr : r.snapshot.Keeps prep) :
    r'.snapshot.Keeps prep := by
  obtain ⟨hprep, hlater⟩ := hr
  have hpast {s : PaymentState} (hs : s.unprepared = true) : r.state ≠ s := by
    rintro rfl
    exact Bool.false_ne_true (hlater.symm.trans hs)
  cases h with
  | kept | quoteOverwritten _ _ _ | reconciled _ => exact ⟨hprep, hlater⟩
  | quoted _ _ hstate => exact absurd hstate (hpast rfl)
  | prepared hstate _ _ _ _ _ => exact absurd hstate (hpast rfl)
  | dispatchOpen _ _ hs _ =>
      refine ⟨hprep, ?_⟩
      rcases hs with rfl | rfl
      · rfl
      · rfl
  | approved _ _ _ _ _ | dispatchSettled _ _ _ | receiptSettled _ _ _ _ _ _ | confirmed _ | cancelled _ | rejected _
  | swept _ => exact ⟨hprep, rfl⟩

/-- Whatever holds a record under the id keeps the payload. -/
def keeping (id : String) (prep : PrepareResult) : Contents := ⟨fun j d => j = id → d.Keeps prep, fun _ => True⟩

section

variable {id : String} {prep : PrepareResult}

theorem survives_keeping : (keeping id prep).Survives := by
  rintro j d state result hd hstate hj
  obtain ⟨hprep, hlater⟩ := hd hj
  rcases hstate with rfl | ⟨_, rfl⟩
  · exact ⟨hprep, hlater⟩
  · exact ⟨hprep, rfl⟩

/-- **A call keeps the payload** of an intent that the store knows: it cannot be submitted anew. -/
theorem Calls.keeping {cfg : Config} {o o' : PaymentOrchestrator} {c : Call} (h : Calls cfg o c o')
    (hknown : o.store.hasIntent id = true) (ho : (keeping id prep).OfOrchestrator o) :
    (HermesPayments.keeping id prep).OfOrchestrator o' := by
  rintro j r' hr' rfl
  have hchange := h.step.change j
  rw [hr'] at hchange
  generalize hro : o.record? j = ro at hchange
  cases hchange with
  | created _ hid hnew _ _ _ =>
      rw [hid, hknown] at hnew
      cases hnew
  | changed hrec => exact hrec.keeps (ho j _ hro rfl)

/-! ## One node -/

/-- What a line may bring in does not touch the payload. -/
theorem admits_keeping {config : ProcessConfig} {penv : ProcessEnv} {s : ProcessState} {c : Command}
    (hknown : s.orchestrator.store.hasIntent id = true) (hs : (keeping id prep).OfState s) :
    (keeping id prep).Admits config penv s c :=
  ⟨fun _ _ _ _ hcall _ => hcall.keeping hknown hs.records, fun _ _ _ _ _ _ => trivial⟩

/-- What the effects leave in the store file was saved by one of them, or was there. -/
theorem World.store_after_or (w : World) (es : List ProcessEffect) :
    (w.after es).store = w.store ∨ .peer (.policy (.storeSave (w.after es).store)) ∈ es := by
  induction es generalizing w with
  | nil => exact .inl rfl
  | cons e es ih =>
      rw [World.after, applyAll_cons]
      rcases ih (w.apply e) with hsame | hsaved
      · have hfirst : (w.apply e).store = w.store ∨ e = .peer (.policy (.storeSave (w.apply e).store)) := by
          cases e with
          | snapshotSave _ | verifyReceiptCall _ _ | acceptCall _ => exact .inl rfl
          | peer effect =>
              cases effect with
              | send _ | receive _ => exact .inl rfl
              | policy effect =>
                  cases effect with
                  | storeSave _ => exact .inr rfl
                  | auditAppend _ | prepareCall _ _ _ _ _ | executeCall _ _ _ | verifyCall _ _ _ _
                  | reconcileCall _ _ _ _ => exact .inl rfl
        rw [World.after] at hsame
        rw [hsame]
        rcases hfirst with hsame' | heq
        · exact .inl hsame'
        · exact .inr (heq ▸ List.mem_cons_self)
      · exact .inr (List.mem_cons_of_mem _ hsaved)

section

variable {config : ProcessConfig} {n n' : Node} {e : NodeEvent}

/-- The files after a step: what its effects have left, and perhaps a remnant of an audit line. -/
theorem NodeStep.store_eq (hstep : NodeStep config n e n') :
    n'.world.store = (n.world.after (e.performed config n)).store := by
  cases hstep with
  | handled _ _ _ _ | started _ _ _ _ => rfl
  | killed w s penv parsed c =>
      obtain ⟨audit, hcut⟩ := c.world_eq w (s.handle config penv parsed).effects
      rw [hcut]
      rfl
  | startCut w pass c _ =>
      obtain ⟨audit, hcut⟩ := c.world_eq w (w.start config pass).effects
      rw [hcut]
      rfl

/-- What a handler saves is the store that a call of the policy engine leaves. -/
theorem HandlerStep.saves {penv : ProcessEnv} {s s' : ProcessState} {c : Command} {es : List ProcessEffect}
    (h : HandlerStep config penv s c s' es) {content : IdempotencyStore}
    (hw : .peer (.policy (.storeSave content)) ∈ es) :
    ∃ call o', Calls config.policy s.orchestrator call o' ∧ content = o'.store := by
  have hcalled {call : Call} {o' : PaymentOrchestrator} (hcall : Calls config.policy s.orchestrator call o')
      (hw : .peer (.policy (.storeSave content)) ∈ policyEffects call.effects) : content = o'.store := by
    obtain ⟨effect, hmem, heffect⟩ := List.mem_map.mp hw
    obtain rfl : effect = .storeSave content := by
      cases heffect
      rfl
    have hsaved : content ∈ HermesPayments.saves call.effects := List.mem_filterMap.mpr ⟨_, hmem, rfl⟩
    rcases hcall.step.saves_or config.policy_storePath with ⟨hnone, _⟩ | hone
    · rw [hnone] at hsaved
      cases hsaved
    · rw [hone] at hsaved
      exact List.mem_singleton.mp hsaved
  cases h with
  | idle hhanded => exact absurd (hhanded _ hw) not_hands_peer
  | received | unverified => cases List.mem_singleton.mp hw
  | called hhanded _ _ hcall => exact ⟨_, _, hcall, hcalled hcall ((mem_handed_append hhanded).mp hw)⟩
  | submitted _ _ _ _ hcall =>
      rcases List.mem_append.mp hw with hw | hw
      · exact ⟨_, _, hcall, hcalled hcall hw⟩
      · cases List.mem_singleton.mp hw
  | published _ hchecks =>
      rcases List.mem_append.mp hw with hw | hw
      · obtain ⟨_, _, hcheck⟩ := hchecks _ hw
        cases hcheck
      · cases List.mem_singleton.mp hw
  | recovered => cases readOnly_recover penv _ _ s _ hw

/-- **The store file never forgets an intent.** -/
theorem NodeStep.hasIntent {lost : String → Prop} (hstep : NodeStep config n e n') (hn : n.Sound lost)
    (hknown : n.world.store.hasIntent id = true) : n'.world.store.hasIntent id = true := by
  rw [hstep.store_eq]
  rcases n.world.store_after_or (e.performed config n) with hsame | hsaved
  · rw [hsame]
    exact hknown
  · obtain ⟨s, penv, c, hproc, _, hw⟩ := hstep.handles hsaved rfl
    obtain ⟨call, o', hcall, heq⟩ := (handler_step config penv s c).saves hw
    rw [heq]
    refine hcall.step.store_change.hasIntent ?_
    -- the process knows what the file knows
    unfold Node.Sound at hn
    rw [hproc] at hn
    rw [hn.1.store]
    exact hknown

/-- The files and the process keep the payload of the intent, and the store file knows the intent. -/
structure Node.Keeps (id : String) (prep : PrepareResult) (n : Node) : Prop where
  known   : n.world.store.hasIntent id = true
  records : (keeping id prep).OfNode n

/-- **A step keeps the payload.** -/
theorem NodeStep.keeps {lost : String → Prop} (hstep : NodeStep config n e n') (hn : n.Sound lost)
    (hkeeps : n.Keeps id prep) : n'.Keeps id prep := by
  refine ⟨hstep.hasIntent hn hkeeps.known, hstep.contents survives_keeping ?_ hkeeps.records⟩
  have hadmits {s : ProcessState} (hproc : n.proc = some s) (penv : ProcessEnv) (c : Command) :
      (keeping id prep).Admits config penv s c := by
    refine admits_keeping ?_ (hkeeps.records.2 s hproc).2
    unfold Node.Sound at hn
    rw [hproc] at hn
    rw [hn.1.store]
    exact hkeeps.known
  cases e with
  | handled penv parsed result => exact fun s hproc c _ => hadmits hproc penv c
  | killed penv parsed performed => exact fun s hproc _ c _ => hadmits hproc penv c
  | started _ | startCut _ _ => trivial

/-- What is dispatched in a step is the payload that the files and the process keep from there on. -/
theorem NodeStep.dispatch_keeps {lost : String → Prop} (hstep : NodeStep config n e n') (hn : n.Sound lost)
    {hash : String} {payload : Bytes} (hw : .peer (.policy (.executeCall id payload hash)) ∈ e.performed config n) :
    ∃ prep, n.Keeps id prep ∧ payload = prep.preparedPayload ∧ hash = prep.preparedHash := by
  obtain ⟨s, penv, hproc, _, r, prep, hfirst, hprep, hpayload, hhash⟩ := hstep.dispatches hw
  obtain ⟨hr, hstate⟩ := PaymentOrchestrator.record?_of_firstIn hfirst
  unfold Node.Sound at hn
  rw [hproc] at hn
  obtain ⟨hready, hsynced⟩ := hn
  have hrecord : r.snapshot.Keeps prep := by
    refine ⟨hprep, ?_⟩
    show r.state.unprepared = false
    rw [hstate]
    rfl
  have hfile : (keeping id prep).OfSnapshot n.world.snapshot := by
    refine fun snap hsnap => ⟨fun j d hd hj => ?_, fun _ _ => trivial⟩
    subst hj
    have hboth := hsynced.records j
    rw [World.record?, hsnap, Option.bind_some, hd, hr] at hboth
    exact Option.some.inj hboth ▸ hrecord
  refine ⟨prep, ⟨?_, hfile, fun s' hs' => ⟨hfile, ?_, fun _ _ => trivial, ?_⟩⟩, hpayload, hhash⟩
  · rw [← hready.store]
    exact hready.consistent.known id r hr
  · obtain rfl : s = s' := Option.some.inj (hproc.symm.trans hs')
    rintro j r' hr' rfl
    obtain rfl : r = r' := Option.some.inj (hr.symm.trans hr')
    exact hrecord
  · obtain rfl : s = s' := Option.some.inj (hproc.symm.trans hs')
    rw [hready.file]
    exact hfile

/-- What is dispatched is the payload that is kept. -/
theorem NodeStep.dispatch_kept (hstep : NodeStep config n e n') (hkeeps : n.Keeps id prep) {hash : String} {payload : Bytes}
    (hw : .peer (.policy (.executeCall id payload hash)) ∈ e.performed config n) :
    payload = prep.preparedPayload ∧ hash = prep.preparedHash := by
  obtain ⟨s, penv, hproc, _, r, prep', hfirst, hprep', rfl, rfl⟩ := hstep.dispatches hw
  have hkept := (hkeeps.records.2 s hproc).2.records id r (PaymentOrchestrator.record?_of_firstIn hfirst).1 rfl
  obtain rfl := Option.some.inj (hprep'.symm.trans hkept.prepared)
  exact ⟨rfl, rfl⟩

end

end

/-! ## One party of an exchange -/

section

variable {ι : Type} [DecidableEq ι] {config : ι → ProcessConfig} {h : ExchangeHistory ι} {x : Exchange ι} {p : ι}

/-- The event of the party. -/
def ExchangeEvent.at? (p : ι) : ExchangeEvent ι → Option NodeEvent
  | .party p' event => if p' = p then some event else none
  | .others _       => none

/-- **A party runs as a node**, whatever the others do. -/
theorem ExchangeRun.node (hrun : ExchangeRun config h x) (p : ι) :
    NodeRun (config p) (project (fun x => x.nodes p) (ExchangeEvent.at? p) h) (x.nodes p) := by
  refine Run.project (fun x hx => hx.2 p) ?_ ?_ hrun
  · intro x i x' event hstep hat
    cases hstep with
    | others _ => cases hat
    | @party p' e n' hnode _ =>
        by_cases hp : p' = p
        · subst hp
          obtain rfl : e = event := by
            rw [ExchangeEvent.at?, if_pos rfl] at hat
            exact Option.some.inj hat
          show NodeStep _ _ _ (Function.update x.nodes p' n' p')
          rw [Function.update_self]
          exact hnode
        · rw [ExchangeEvent.at?, if_neg hp] at hat
          cases hat
  · intro x i x' hstep hat
    cases hstep with
    | others _ => rfl
    | @party p' e n' hnode _ =>
        have hp : p ≠ p' := by
          rintro rfl
          rw [ExchangeEvent.at?, if_pos rfl] at hat
          cases hat
        exact Function.update_of_ne hp _ _

/-- A step of an exchange keeps the payload of a party. -/
theorem ExchangeRun.keeps {i : ExchangeEvent ι} {x' : Exchange ι} {id : String} {prep : PrepareResult}
    (hrun : ExchangeRun config h x) (hkeeps : (x.nodes p).Keeps id prep) (hstep : ExchangeStep config x i x') :
    (x'.nodes p).Keeps id prep := by
  cases hstep with
  | others _ => exact hkeeps
  | @party p' e n' hnode _ =>
      show (Function.update x.nodes p' n' p).Keeps id prep
      by_cases hp : p = p'
      · subst hp
        rw [Function.update_self]
        exact hnode.keeps (hrun.node p).sound hkeeps
      · rw [Function.update_of_ne hp]
        exact hkeeps

/-- **One payload for an intent**: two dispatches of a party for it, the one not after the other, have the same. -/
theorem ExchangeRun.one_payload {j k : Nat} (hjk : j ≤ k) {e e' : Event (Exchange ι) (ExchangeEvent ι)}
    {event event' : NodeEvent} {id hash hash' : String} {payload payload' : Bytes} (hrun : ExchangeRun config h x)
    (he : h[j]? = some e) (he' : h[k]? = some e') (hseen : e.seen = .party p event) (hseen' : e'.seen = .party p event')
    (hw : .peer (.policy (.executeCall id payload hash)) ∈ event.performed (config p) (e.before.nodes p))
    (hw' : .peer (.policy (.executeCall id payload' hash')) ∈ event'.performed (config p) (e'.before.nodes p)) :
    payload = payload' ∧ hash = hash' := by
  have hnode {i : Nat} {e : Event (Exchange ι) (ExchangeEvent ι)} {event : NodeEvent} (he : h[i]? = some e)
      (hseen : e.seen = .party p event) : ∃ n', NodeStep (config p) (e.before.nodes p) event n' := by
    obtain ⟨_, hstep⟩ := hrun.at_position he
    rw [hseen] at hstep
    generalize e.after = x' at hstep
    cases hstep with
    | party hnode _ => exact ⟨_, hnode⟩
  obtain ⟨hpast, hstep⟩ : ExchangeRun config (h.take j) e.before ∧ _ := hrun.at_position he
  obtain ⟨_, hnode₁⟩ := hnode he hseen
  obtain ⟨prep, hkeeps, rfl, rfl⟩ := hnode₁.dispatch_keeps (hpast.node p).sound hw
  have hkept : (e'.before.nodes p).Keeps id prep := by
    rcases Nat.eq_or_lt_of_le hjk with rfl | hlt
    · obtain rfl := Option.some.inj (he.symm.trans he')
      exact hkeeps
    · refine hrun.stays (Q := fun y => (y.nodes p).Keeps id prep) ?_ he he' hlt (hpast.keeps hkeeps hstep)
      intro g y i y' hg hy hstep
      exact ExchangeRun.keeps hg hy hstep
  obtain ⟨_, hnode₂⟩ := hnode he' hseen'
  obtain ⟨rfl, rfl⟩ := hnode₂.dispatch_kept hkept hw'
  exact ⟨rfl, rfl⟩

end

end HermesPayments
