import HermesPayments.Policy.Dispatch

/-!
# `HermesPayments.Policy.Correctness.Authorisation` — every dispatch is authorised by its own approval

`dispatch_authorised`: in every run over an empty store, a call of `adapter.execute` for an intent comes after
an approval of exactly the hash it carries, which comes after the preparation of exactly the payload it
carries; the intent was never withdrawn; and an approval authorises one dispatch only.

The invariant is `Trail`: a record's prepared payload and its approval are in the history, in that order.
What a dispatch or a withdrawal leaves behind is never undone, which gives the rest.
-/

namespace HermesPayments

open Lib PaymentState

/-! ## What a call may be -/

namespace Call

/-- An approval of this intent and hash that succeeded. -/
def Approves (c : Call) (id hash : String) : Prop :=
  c.result = .ok .unit ∧ ∃ a : PaymentApproval, c.op = .approve a ∧ a.intentId = id ∧ a.preparedHash = hash

/-- A preparation made for this intent that the adapter answered with `prep`. -/
def Prepares (c : Call) (id : String) (prep : PrepareResult) : Prop :=
  ∃ instruction amount maxFee, .prepareCall id instruction amount maxFee (.ok prep) ∈ c.effects

/-- A cancellation or rejection of this intent that succeeded. -/
def Withdraws (c : Call) (id : String) : Prop :=
  c.result = .ok .unit ∧ (c.op = .cancel id ∨ c.op = .reject id)

end Call

/-- The approval at position `i` authorises the dispatch at position `j`. -/
structure Authorises (h : History) (i j : Nat) (id : String) (payload : Bytes) (hash : String) : Prop where
  order    : i < j
  approved : Happens h i (·.Approves id hash)
  prepared : ∃ k prep, k < i ∧ Happens h k (·.Prepares id prep) ∧ prep.preparedPayload = payload ∧
    prep.preparedHash = hash
  standing : ∀ k, k < j → ¬ Happens h k (·.Withdraws id)
  dispatch : Happens h j (·.Dispatches id payload hash)

/-! ## The invariant -/

/-- The past of a record: its payload was prepared for it and, once approved, its hash was approved after
    that. -/
structure Trail (h : History) (id : String) (r : IntentRecord) : Prop where
  prepared : r.state = PREPARED → ∃ prep k, r.prepared = some prep ∧ Happens h k (·.Prepares id prep)
  approved : r.state = APPROVED → ∃ prep k i, r.prepared = some prep ∧ Happens h k (·.Prepares id prep) ∧
    k < i ∧ Happens h i (·.Approves id prep.preparedHash)

variable {cfg : Config} {o o' : PaymentOrchestrator} {c : Call} {h : History} {id : String}

/-- A trail only depends on the state and payload of the record, and stays when the history grows. -/
theorem Trail.grow {r r' : IntentRecord} (h' : History) (ht : Trail h id r) (hstate : r'.state = r.state)
    (hprep : r'.prepared = r.prepared) : Trail (h ++ h') id r' := by
  refine ⟨fun hs => ?_, fun hs => ?_⟩
  · obtain ⟨prep, k, hp, hprepares⟩ := ht.prepared (hstate ▸ hs)
    exact ⟨prep, k, hprep.trans hp, hprepares.append h'⟩
  · obtain ⟨prep, k, i, hp, hprepares, hki, happroves⟩ := ht.approved (hstate ▸ hs)
    exact ⟨prep, k, i, hprep.trans hp, hprepares.append h', hki, happroves.append h'⟩

/-- A record neither prepared nor approved has nothing to account for. -/
theorem Trail.of_state {r : IntentRecord} (hp : r.state ≠ PREPARED) (ha : r.state ≠ APPROVED) :
    Trail h id r :=
  ⟨fun hs => absurd hs hp, fun hs => absurd hs ha⟩

/-- A call extends the trail of the record it changes. -/
theorem RecordStep.trail {r r' : IntentRecord}
    (hrec : RecordStep c.env c.effects c.op c.result id r r') (ht : Trail h id r) :
    Trail (h ++ [⟨o, c, o'⟩]) id r' := by
  generalize hopc : c.op = op at hrec
  generalize hresc : c.result = res at hrec
  cases hrec with
  | kept | quoteOverwritten _ _ _ | reconciled _ => exact ht.grow _ rfl rfl
  | prepared _ _ _ _ _ hmem => exact ⟨fun _ => ⟨_, _, rfl, .last ⟨_, _, _, hmem⟩⟩, nofun⟩
  | @approved a q prep _ hstate _ _ hprep hhash =>
      obtain ⟨prep', k, hp, hprepares⟩ := ht.prepared hstate
      obtain rfl : prep' = prep := Option.some.inj (hp.symm.trans hprep)
      have happroves : c.Approves a.intentId prep'.preparedHash := ⟨hresc, a, hopc, rfl, hhash.symm⟩
      exact ⟨nofun, fun _ => ⟨prep', k, _, hprep, hprepares.append _, hprepares.lt, .last happroves⟩⟩
  | quoted _ _ _ | dispatchSettled _ _ _ | receiptSettled _ _ _ _ _ _ | confirmed _ | cancelled _
  | rejected _ | swept _ => exact .of_state nofun nofun
  | dispatchOpen _ _ hs _ => rcases hs with rfl | rfl <;> exact .of_state nofun nofun

/-- **Every record of a run has its trail in the history.** -/
theorem PolicyRun.trail (hrun : PolicyRun cfg h o) {r : IntentRecord} (hr : o.record? id = some r) :
    Trail h id r := by
  refine Run.record_history (Q := fun h r => Trail h id r) (fun _ _ _ hcall => hcall) ?_ ?_ hrun hr
  · intro h i
    exact .of_state nofun nofun
  · intro h o c o' r r' _ _ _ _ htrail hrec
    exact hrec.trail htrail

/-! ## What is never undone -/

/-- A successful withdrawal leaves the record withdrawn. -/
theorem Calls.withdraws (hcall : Calls cfg o c o') (hw : c.Withdraws id) :
    ∃ r, o'.record? id = some r ∧ r.state.withdrawn = true := by
  obtain ⟨hok, hop⟩ := hw
  have hstep := hcall.step
  rw [hok] at hstep
  rcases hop with hop | hop
  · rw [hop] at hstep
    generalize c.effects = es at hstep
    cases hstep with
    | @cancelled _ r hr _ =>
        refine ⟨{ r with state := CANCELLED }, ?_, rfl⟩
        rw [PaymentOrchestrator.record?_logged, PaymentOrchestrator.record?_update, if_pos rfl, hr]
        rfl
  · rw [hop] at hstep
    generalize c.effects = es at hstep
    cases hstep with
    | @rejected _ r hr _ =>
        refine ⟨{ r with state := REJECTED }, ?_, rfl⟩
        rw [PaymentOrchestrator.record?_logged, PaymentOrchestrator.record?_update, if_pos rfl, hr]
        rfl

/-- The intent of a dispatch was never withdrawn before. -/
theorem PolicyRun.not_withdrawn_before (hrun : PolicyRun cfg h o) {j k : Nat} {p : Bytes} {x : String}
    (hd : Happens h j (·.Dispatches id p x)) (hkj : k < j) : ¬ Happens h k (·.Withdraws id) := by
  rintro ⟨e', he', hw⟩
  obtain ⟨e, he, hd⟩ := hd
  have hgone := (hrun.at_position he').2.withdraws hw
  obtain ⟨r, hr, hw'⟩ := Run.record_stays (fun _ hf => hf)
    (fun _ _ _ _ _ _ hrec hw => RecordStep.withdrawn hrec hw) hrun he' he hkj hgone
  obtain ⟨r', _, hr', happroved, _⟩ := (hrun.at_position he).2.dispatches_approved hd
  obtain rfl : r = r' := Option.some.inj (hr.symm.trans hr')
  rw [happroved] at hw'
  cases hw'

/-- An approval is of one intent. -/
theorem approves_inj {i : Nat} {id' hash hash' : String} (ha : Happens h i (·.Approves id hash))
    (ha' : Happens h i (·.Approves id' hash')) : id = id' := by
  obtain ⟨e, he, _, a, hop, hid, _⟩ := ha
  obtain ⟨e', he', _, a', hop', hid', _⟩ := ha'
  obtain rfl : e = e' := Option.some.inj (he.symm.trans he')
  have hops : Op.approve a = Op.approve a' := hop.symm.trans hop'
  injection hops with haa
  rw [← hid, ← hid', haa]

/-! ## The theorem -/

/-- **Every dispatch is authorised by its own approval.** -/
theorem dispatch_authorised (hempty : Run FreshEmpty (Calls cfg) h o) :
    (∀ j id payload hash, Happens h j (·.Dispatches id payload hash) →
      ∃ i, Authorises h i j id payload hash) ∧
    (∀ e ∈ h, (dispatches e.seen.effects).length ≤ 1) ∧
    (∀ i j j' id id' payload payload' hash hash', Authorises h i j id payload hash →
      Authorises h i j' id' payload' hash' → j = j') := by
  have hrun : PolicyRun cfg h o := hempty.mono (fun _ h0 => h0.fresh) (fun _ _ _ hs => hs)
  refine ⟨fun j id payload hash hd => ?_, fun e he => ?_, ?_⟩
  · obtain ⟨e, he, hde⟩ := hd
    obtain ⟨hpast, hcall⟩ := hrun.at_position he
    obtain ⟨r, prep, hr, hstate, hprep, rfl, rfl⟩ := hcall.dispatches_approved hde
    obtain ⟨prep', k, i, hp, hprepares, hki, happroves⟩ := (PolicyRun.trail hpast hr).approved hstate
    obtain rfl : prep' = prep := Option.some.inj (hp.symm.trans hprep)
    exact ⟨i, happroves.of_take.1, happroves.of_take.2, ⟨k, prep', hki, hprepares.of_take.2, rfl, rfl⟩,
      fun m hmj => hrun.not_withdrawn_before ⟨e, he, hde⟩ hmj, ⟨e, he, hde⟩⟩
  · obtain ⟨_, _, hcall⟩ := hrun.of_mem he
    rcases hcall.step.dispatches with hnone | ⟨_, _, _, _, _, _, hone⟩
    · rw [hnone]; exact Nat.zero_le _
    · rw [hone]; exact Nat.le_refl _
  · intro i j j' id id' payload payload' hash hash' ha ha'
    obtain rfl : id = id' := approves_inj ha.approved ha'.approved
    exact hrun.dispatched_once ha.dispatch ha'.dispatch

/-- A run that dispatches: approved at the fourth call, executed at the fifth. -/
theorem dispatch_authorised_payment :
    ∃ i, Authorises Sample.payment i 4 "i" [1, 2, 3] "hash" :=
  (dispatch_authorised Sample.payment_run).1 4 "i" [1, 2, 3] "hash"
    ⟨_, rfl, by unfold Call.Dispatches; decide⟩

end HermesPayments
