import HermesPayments.Policy.Correctness.Consistency

/-!
# `HermesPayments.Policy.Correctness.AuditTrail` — the audit log as a run of the automaton

The lines about one intent show a path through the transition table that starts at `DRAFT` and ends in the
state the intent is in (`audit_log_faithful`). The step lemma is `Step.audits`: the lines of one call lead from
the state before the call to the state after it.
-/

namespace HermesPayments

open Lib PaymentState

/-! ## The lines about one intent -/

/-- The state an audit line shows for the intent, when it is about that intent. -/
def Effect.shownState? (id : String) : Effect → Option (Option AuditValue)
  | .auditAppend entry =>
      if entry.field? "intent_id" = some (.str id) then some (entry.field? "state") else none
  | _ => none

/-- The state values of the lines about an intent, in the order written. -/
def auditStates (id : String) (es : List Effect) : List (Option AuditValue) := es.filterMap (Effect.shownState? id)

/-- … over a whole run. -/
def auditTrail (id : String) (h : History) : List (Option AuditValue) := h.flatMap (fun e => auditStates id e.seen.effects)

/-- What the log shows for a state. -/
def PaymentState.shown (s : PaymentState) : Option AuditValue := some (.str s.value)

section

variable {cfg : Config} {env : Env} {o o' : PaymentOrchestrator} {op : Op} {res : Except Exc Answer}
  {es : List Effect} {c : Call} {id k : String}

theorem auditStates_append (es fs : List Effect) : auditStates id (es ++ fs) = auditStates id es ++ auditStates id fs :=
  List.filterMap_append

theorem auditStates_saved (s : IdempotencyStore) : auditStates id (cfg.saved s) = [] := by
  unfold Config.saved
  split <;> rfl

theorem auditStates_saved_append (s : IdempotencyStore) (es : List Effect) :
    auditStates id (cfg.saved s ++ es) = auditStates id es := by
  rw [auditStates_append, auditStates_saved, List.nil_append]

theorem auditStates_append_dispatch (es : List Effect) (i : String) (p : Bytes) (x : String) :
    auditStates id (es ++ [.executeCall i p x]) = auditStates id es := by
  rw [auditStates_append]
  exact List.append_nil _

/-- A line about `k` is one about `id` only if they are the same. -/
theorem auditStates_audited (hpath : cfg.auditPath.isSome = true) {entry : AuditEntry} {s : PaymentState}
    (hid : entry.field? "intent_id" = some (.str k)) (hst : entry.field? "state" = some (.str s.value)) :
    auditStates id (cfg.audited entry) = if id = k then [s.shown] else [] := by
  rw [Config.audited, if_pos hpath]
  unfold auditStates
  by_cases hk : id = k
  · subst hk
    rw [if_pos rfl, List.filterMap_cons, List.filterMap_nil]
    simp [Effect.shownState?, hid, hst, PaymentState.shown]
  · rw [if_neg hk, List.filterMap_cons, List.filterMap_nil]
    have hne : ¬ k = id := fun h => hk h.symm
    simp [Effect.shownState?, hid, hne]

/-! ## What one call logs -/

/-- The lines among the effects lead from the state before to the state after. -/
def Audits (id : String) (o : PaymentOrchestrator) (es : List Effect) (o' : PaymentOrchestrator) : Prop :=
  ∃ path : List PaymentState, auditStates id es = path.map shown ∧ (o.stateOf id).Leads path (o'.stateOf id)

/-- Nothing is logged and the intent stays where it is. -/
theorem Audits.silent (hes : auditStates id es = []) (hstate : o'.stateOf id = o.stateOf id) : Audits id o es o' :=
  ⟨[], hes, hstate.symm⟩

/-- One record changes, and the lines logged are about that record. -/
theorem Audits.of_update (path : List PaymentState) {s : PaymentState}
    (hes : auditStates id es = if id = k then path.map shown else [])
    (hother : id ≠ k → o'.stateOf id = o.stateOf id) (hstate : o'.stateOf k = s)
    (hlead : (o.stateOf k).Leads path s) : Audits id o es o' := by
  by_cases hk : id = k
  · subst hk
    rw [if_pos rfl] at hes
    exact ⟨path, hes, hstate ▸ hlead⟩
  · rw [if_neg hk] at hes
    exact .silent hes (hother hk)

theorem PaymentOrchestrator.stateOf_update {r : IntentRecord} {f : IntentRecord → IntentRecord}
    (hr : o.record? k = some r) : (o.update k f).stateOf k = (f r).state := by
  unfold PaymentOrchestrator.stateOf
  rw [PaymentOrchestrator.record?_update, if_pos rfl, hr]
  rfl

theorem PaymentOrchestrator.stateOf_update_ne {f : IntentRecord → IntentRecord} (hk : id ≠ k) :
    (o.update k f).stateOf id = o.stateOf id := by
  unfold PaymentOrchestrator.stateOf
  rw [PaymentOrchestrator.record?_update, if_neg hk]

/-- A record that keeps its state, with nothing logged. -/
theorem Audits.kept {r : IntentRecord} {f : IntentRecord → IntentRecord} (hr : o.record? k = some r)
    (hf : (f r).state = r.state) : Audits id o [] (o.update k f) := by
  refine .of_update [] (by simp [auditStates]) PaymentOrchestrator.stateOf_update_ne
    (PaymentOrchestrator.stateOf_update hr) ?_
  rw [PaymentOrchestrator.stateOf_of_record? hr, hf]
  rfl

/-- A record that is logged once, in the state it moves to. -/
theorem Audits.moved (hpath : cfg.auditPath.isSome = true) {r : IntentRecord} {f : IntentRecord → IntentRecord}
    {entry : AuditEntry} {s : PaymentState} (hr : o.record? k = some r)
    (hes : auditStates id es = auditStates id (cfg.audited entry))
    (hid : entry.field? "intent_id" = some (.str k)) (hst : entry.field? "state" = some (.str s.value))
    (hf : (f r).state = s) (hmove : r.state.Moves s) : Audits id o es (o.update k f) := by
  refine .of_update [s] (hes.trans (auditStates_audited hpath hid hst))
    PaymentOrchestrator.stateOf_update_ne (PaymentOrchestrator.stateOf_update hr) ?_
  rw [PaymentOrchestrator.stateOf_of_record? hr, hf]
  exact ⟨hmove, rfl⟩

/-- A record that is logged as executing, and then once more in the state it ends in. -/
theorem Audits.executed (hpath : cfg.auditPath.isSome = true) {r : IntentRecord} {f : IntentRecord → IntentRecord}
    {entry : AuditEntry} {s : PaymentState} {seq : Nat} (hr : o.record? k = some r) (hstate : r.state = APPROVED)
    (hes : auditStates id es = auditStates id (cfg.audited entry))
    (hid : entry.field? "intent_id" = some (.str k)) (hst : entry.field? "state" = some (.str s.value))
    (hf : (f r).state = s) (hmove : EXECUTING.Moves s) :
    Audits id o (cfg.audited ⟨seq, "executing", [("intent_id", .str k), ("state", .str EXECUTING.value)]⟩ ++ es)
      (o.update k f) := by
  refine .of_update [EXECUTING, s] ?_ PaymentOrchestrator.stateOf_update_ne
    (PaymentOrchestrator.stateOf_update hr) ?_
  · rw [auditStates_append, hes, auditStates_audited (k := k) (s := EXECUTING) hpath rfl rfl,
      auditStates_audited hpath hid hst]
    by_cases hk : id = k
    · simp [hk]
    · simp [hk]
  · rw [PaymentOrchestrator.stateOf_of_record? hr, hstate, hf]
    exact ⟨by decide, hmove, rfl⟩

/-- Lines that show tracked intents in the state they are in. -/
theorem Audits.of_shows (id : String) (ho : o.Consistent) (hlog : ∀ entry, .auditAppend entry ∈ es → o.Shows entry) :
    Audits id o es o := by
  suffices h : ∃ path : List PaymentState, auditStates id es = path.map shown ∧ ∀ t ∈ path, t = o.stateOf id by
    obtain ⟨path, hes, hstay⟩ := h
    exact ⟨path, hes, .stay hstay⟩
  induction es with
  | nil => exact ⟨[], rfl, nofun⟩
  | cons w es ih =>
      obtain ⟨path, hes, hstay⟩ := ih fun entry hw => hlog entry (List.mem_cons_of_mem _ hw)
      cases hw : w.shownState? id with
      | none => exact ⟨path, by rw [auditStates, List.filterMap_cons_none hw]; exact hes, hstay⟩
      | some v =>
          -- the line is about this intent, so it shows its state
          cases w with
          | auditAppend entry =>
              obtain ⟨j, r, hr, hid, hst⟩ := hlog entry List.mem_cons_self
              rw [(ho.records j r hr).intent_id] at hid
              have hv := hw
              simp only [Effect.shownState?, hid] at hv
              split at hv
              · rename_i hj
                obtain rfl : j = id := by simpa using hj
                refine ⟨r.state :: path, ?_, ?_⟩
                · rw [auditStates, List.filterMap_cons_some hw]
                  rw [hst] at hv
                  rw [← Option.some.inj hv]
                  exact congrArg (_ :: ·) hes
                · intro t ht
                  rcases List.mem_cons.mp ht with rfl | ht
                  · exact (PaymentOrchestrator.stateOf_of_record? hr).symm
                  · exact hstay t ht
              · cases hv
          | _ => cases hw

/-- A sweep logs each expired intent once. -/
theorem Audits.expire (hpath : cfg.auditPath.isSome = true) {ids : List String} (seq : Nat) (hnd : ids.Nodup)
    (hids : ∀ id ∈ ids, ∃ r, o.record? id = some r ∧ r.state = EXECUTING) :
    Audits id o (PaymentOrchestrator.expireEffects cfg seq ids) (o.expire ids) := by
  have hes (ids : List String) (hnd : ids.Nodup) (seq : Nat) :
      auditStates id (PaymentOrchestrator.expireEffects cfg seq ids) =
        if id ∈ ids then [RECONCILIATION_REQUIRED.shown] else [] := by
    induction ids generalizing seq with
    | nil => rfl
    | cons k ids ih =>
        obtain ⟨hk, hnd⟩ := List.nodup_cons.mp hnd
        rw [PaymentOrchestrator.expireEffects, auditStates_append, ih hnd,
          auditStates_audited (k := k) (s := RECONCILIATION_REQUIRED) hpath rfl rfl]
        by_cases hid : id = k
        · subst hid
          simp [hk]
        · simp [hid]
  have hstate := PaymentOrchestrator.stateOf_expire hids id
  by_cases hmem : id ∈ ids
  · obtain ⟨r, hr, hexec⟩ := hids id hmem
    refine ⟨[RECONCILIATION_REQUIRED], ?_, ?_⟩
    · rw [hes ids hnd, if_pos hmem]
      rfl
    · rw [hstate, if_pos hmem, PaymentOrchestrator.stateOf_of_record? hr, hexec]
      exact ⟨by decide, rfl⟩
  · exact .silent (by rw [hes ids hnd, if_neg hmem]) (by rw [hstate, if_neg hmem])

/-- **What one call logs about an intent** leads from its state before the call to its state after it. -/
theorem Step.audits (hstep : Step cfg env o op res o' es) (hpath : cfg.auditPath.isSome = true)
    (hsave : env.saves cfg) (ho : o.Consistent) (id : String) : Audits id o es o' := by
  have hid {k : String} {r : IntentRecord} (hr : o.record? k = some r) : r.intent.id = k :=
    (ho.records k r hr).intent_id
  cases hstep with
  | refused hstore hintents _ hlog =>
      obtain ⟨path, hes, hlead⟩ := Audits.of_shows id ho hlog
      refine ⟨path, hes, ?_⟩
      have hstate : o'.stateOf id = o.stateOf id := by
        unfold PaymentOrchestrator.stateOf PaymentOrchestrator.record?
        rw [hintents]
      rw [hstate]
      exact hlead
  | seen _ | approvedUnsaved _ _ _ | noneExpired => exact .silent rfl rfl
  | submittedUnsaved _ _ _ hsave' | confirmedUnsaved _ _ hsave' | receiptUnsaved _ _ _ hsave' =>
      exact absurd hsave hsave'
  | quoteOverwritten hr _ _ _ => exact .kept hr rfl
  | @quoted _ r hr _ _ hstate =>
      exact .moved hpath hr rfl (by rw [← hid hr]; rfl) rfl rfl (by rw [hstate]; decide)
  | prepared hfirst _ _ _ _ _ _ =>
      obtain ⟨hr, hstate⟩ := PaymentOrchestrator.record?_of_firstIn hfirst
      exact .moved hpath hr rfl (by rw [← hid hr]; rfl) rfl rfl (by rw [hstate]; decide)
  | approved hr _ _ _ _ _ hstate _ =>
      exact .moved hpath hr (auditStates_saved_append _ _) (by rw [← hid hr]; rfl) rfl rfl (by rw [hstate]; decide)
  | dispatchAmbiguous hfirst _ _ _ _ _ hshown hst =>
      obtain ⟨hr, hstate⟩ := PaymentOrchestrator.record?_of_firstIn hfirst
      rw [hid hr] at hshown ⊢
      exact .executed hpath hr hstate rfl hshown hst rfl (by decide)
  | dispatchStranded hfirst _ _ =>
      obtain ⟨hr, hstate⟩ := PaymentOrchestrator.record?_of_firstIn hfirst
      rw [hid hr]
      exact .moved (o := o) (s := EXECUTING) hpath hr (auditStates_append_dispatch _ _ _ _) rfl rfl rfl
        (by rw [hstate]; decide)
  | dispatchSettled hfirst _ _ _ _ =>
      obtain ⟨hr, hstate⟩ := PaymentOrchestrator.record?_of_firstIn hfirst
      rw [hid hr]
      exact .executed (o := o) hpath hr hstate (auditStates_saved_append _ _) rfl rfl rfl (by decide)
  | receiptSettled hr hstate _ _ _ _ _ _ _ =>
      refine .moved hpath hr (auditStates_saved_append _ _) (by rw [← hid hr]; rfl) rfl rfl ?_
      rcases hstate with hstate | hstate <;> rw [hstate] <;> decide
  | confirmed hr hstate _ =>
      exact .moved hpath hr (auditStates_saved_append _ _) (by rw [← hid hr]; rfl) rfl rfl (by rw [hstate]; decide)
  | reconciled hr hstate _ =>
      exact .moved hpath hr rfl (by rw [← hid hr]; rfl) rfl hstate (by rw [hstate]; decide)
  | cancelled hr hstate =>
      refine .moved hpath hr rfl (by rw [← hid hr]; rfl) rfl rfl ?_
      revert hstate
      generalize IntentRecord.state _ = s
      cases s <;> decide
  | rejected hr hstate =>
      refine .moved hpath hr rfl (by rw [← hid hr]; rfl) rfl rfl ?_
      revert hstate
      generalize IntentRecord.state _ = s
      cases s <;> decide
  | @submitted i hnew _ _ _ =>
      have htrack (j : String) : ((o.track i).logged).stateOf j = if j = i.id then SUBMITTED else o.stateOf j := by
        unfold PaymentOrchestrator.stateOf
        rw [PaymentOrchestrator.record?_logged, PaymentOrchestrator.record?_track]
        split <;> rfl
      refine .of_update [SUBMITTED] ((auditStates_saved_append _ _).trans (auditStates_audited hpath rfl rfl))
        (fun hk => by rw [htrack, if_neg hk]) (by rw [htrack, if_pos rfl]) ?_
      -- the id was not tracked before
      have hnone : o.record? i.id = none := by
        cases hr : o.record? i.id with
        | none => rfl
        | some r => rw [ho.known _ r hr] at hnew; cases hnew
      rw [PaymentOrchestrator.stateOf, hnone]
      exact ⟨by decide, rfl⟩
  | swept _ hnd hexp =>
      refine .expire hpath _ hnd fun id hid => ?_
      obtain ⟨r, hr, he⟩ := hexp id hid
      exact ⟨r, hr, (of_decide_eq_true he).1⟩

/-! ## The theorem -/

theorem PaymentState.Moves.spent {s s' : PaymentState} (hs : s.spent = true) (h : s.Moves s') : s'.spent = true := by
  revert h
  revert hs
  cases s <;> cases s' <;> decide

/-- **The audit log is a run of the automaton**: its lines about an intent lead from `DRAFT` to the state the
    intent is in. So an intent once logged as executing stays past its dispatch, and one logged in a terminal
    state stays there. -/
theorem audit_log_faithful {h : History} (hpath : cfg.auditPath.isSome = true) (hrun : SavedRun cfg h o) :
    ∀ id r, o.record? id = some r → ∃ path : List PaymentState,
      auditTrail id h = path.map shown ∧ DRAFT.Leads path r.state ∧
      (EXECUTING ∈ path → r.state.spent = true) ∧
      ∀ s ∈ path, s ∈ TERMINAL_STATES → r.state = s := by
  intro id r hr
  have htrail : ∃ path : List PaymentState, auditTrail id h = path.map shown ∧ DRAFT.Leads path (o.stateOf id) := by
    have hboth := hrun.history (P := fun h o => o.Consistent ∧ ∃ path : List PaymentState,
      auditTrail id h = path.map shown ∧ DRAFT.Leads path (o.stateOf id)) ?_ ?_
    · exact hboth.2
    · rintro o ⟨seq, rfl⟩
      exact ⟨FreshEmpty.fresh ⟨seq, rfl⟩ |>.consistent, [], rfl, rfl⟩
    · rintro h o c o' - ⟨hcons, path, htrail, hlead⟩ ⟨hcall, hsave⟩
      obtain ⟨path', hes, hlead'⟩ := hcall.step.audits hpath hsave hcons id
      refine ⟨hcall.consistent hcons, path ++ path', ?_, hlead.append hlead'⟩
      unfold auditTrail at htrail ⊢
      rw [List.flatMap_append, htrail, List.map_append, ← hes]
      simp
  obtain ⟨path, htrail, hlead⟩ := htrail
  rw [PaymentOrchestrator.stateOf_of_record? hr] at hlead
  refine ⟨path, htrail, hlead, fun hexec => ?_, fun s hs hterm => ?_⟩
  · refine hlead.trapped (P := fun s => s.spent = true) ?_ (List.mem_cons_of_mem _ hexec) rfl
    intro s s' hs hmove
    exact PaymentState.Moves.spent hs hmove
  · exact hlead.trapped (P := (· = s)) (fun _ _ hu hmove => (PaymentState.Moves.terminal (hu ▸ hterm) hmove).trans hu)
      (List.mem_cons_of_mem _ hs) rfl

end

/-- The sample configuration with an audit log, and the calls of the sample payment. -/
def Sample.logged : Config := { Sample.config with auditPath := some Sample.auditPath }

def Sample.paymentCalls : List (Op × Env) := Sample.approved "i" 0 ++ [(.execute, Sample.env 0 Sample.paid)]

/-- The payment of the sample is logged from submission to settlement. -/
theorem audit_log_of_payment : ∃ path : List PaymentState,
    auditTrail "i" (playHistory Sample.logged (.init .empty 0) Sample.paymentCalls) = path.map shown ∧
      DRAFT.Leads path SETTLED := by
  have hrun : Run FreshEmpty (Calls Sample.logged) _ _ := run_play_init Sample.fresh Sample.paymentCalls
  have hsaves : ∀ e ∈ playHistory Sample.logged (.init .empty 0) Sample.paymentCalls,
      e.seen.env.saves Sample.logged := by decide
  obtain ⟨r, hr, hstate⟩ : ∃ r, (play Sample.logged (.init .empty 0) Sample.paymentCalls).record? "i" = some r ∧
      r.state = SETTLED := ⟨_, rfl, rfl⟩
  obtain ⟨path, htrail, hlead, _⟩ := audit_log_faithful rfl (hrun.guarded hsaves) "i" r hr
  exact ⟨path, htrail, hstate ▸ hlead⟩

end HermesPayments
