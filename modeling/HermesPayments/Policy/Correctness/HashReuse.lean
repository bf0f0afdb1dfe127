import HermesPayments.Policy.Dispatch

/-!
# `HermesPayments.Policy.Correctness.HashReuse` — one dispatch for each prepared hash

An approval is refused as a replay when its whole triple was used before, and the triple holds the intent id. So
two intents whose preparations came to the same hash are both approved and both dispatched: what keeps a hash from
being dispatched twice is only that no second intent holding it is executed (`dispatched_once_per_hash_iff`).
-/

namespace HermesPayments

open Lib PaymentState

/-! ## The rule and the condition -/

/-- No prepared hash is dispatched twice. -/
def OncePerHash (h : History) : Prop :=
  ∀ i j id id' p p' x, Happens h i (·.Dispatches id p x) → Happens h j (·.Dispatches id' p' x) → i = j

/-- A call of `execute` that finds an approved intent finds one whose prepared hash no other intent, past its own
    dispatch, holds. -/
def ExecutesFreshHash (e : Event PaymentOrchestrator Call) : Prop :=
  e.seen.op = .execute → ∀ id r prep, e.before.firstIn APPROVED = some (id, r) → r.prepared = some prep →
    ∀ id' r' prep', id' ≠ id → e.before.record? id' = some r' → r'.state.spent = true →
      r'.prepared = some prep' → prep'.preparedHash ≠ prep.preparedHash

/-! ## What a dispatch leaves in the record -/

variable {cfg : Config} {o o' : PaymentOrchestrator} {c : Call} {h : History} {id : String}

/-- A record past its dispatch still holds the payload that was dispatched. -/
def DispatchedAs (h : History) (id : String) (r : IntentRecord) : Prop :=
  r.state.spent = true → ∃ prep k, r.prepared = some prep ∧
    Happens h k (·.Dispatches id prep.preparedPayload prep.preparedHash)

theorem RecordStep.dispatchedAs {r r' : IntentRecord}
    (hrec : RecordStep c.env c.effects c.op c.result id r r') (ih : DispatchedAs h id r) :
    DispatchedAs (h ++ [⟨o, c, o'⟩]) id r' := by
  have hgrow (hs : r.state.spent = true) (hprep : r'.prepared = r.prepared) : ∃ prep k, r'.prepared = some prep ∧
      Happens (h ++ [⟨o, c, o'⟩]) k (·.Dispatches id prep.preparedPayload prep.preparedHash) := by
    obtain ⟨prep, k, hp, hd⟩ := ih hs
    exact ⟨prep, k, hprep.trans hp, hd.append _⟩
  intro hs
  generalize c.op = op at hrec
  generalize c.result = res at hrec
  cases hrec with
  | kept | quoteOverwritten _ _ _ | reconciled _ => exact hgrow hs rfl
  | quoted _ _ _ | prepared _ _ _ _ _ _ | approved _ _ _ _ _ | cancelled _ | rejected _ => cases hs
  | dispatchSettled _ hprep hmem | dispatchOpen _ hprep _ hmem =>
      exact ⟨_, _, hprep, .last (dispatches_mem hmem)⟩
  | receiptSettled hstate _ _ _ _ _ =>
      refine hgrow ?_ rfl
      rcases hstate with hstate | hstate <;> rw [hstate] <;> rfl
  | confirmed hstate | swept hstate => exact hgrow (by rw [hstate]; rfl) rfl

theorem PolicyRun.dispatchedAs (hrun : PolicyRun cfg h o) {r : IntentRecord} (hr : o.record? id = some r) :
    DispatchedAs h id r := by
  refine Run.record_history (Q := fun h r => DispatchedAs h id r) (fun _ _ _ hcall => hcall) ?_ ?_ hrun hr
  · intro h i
    exact nofun
  · intro h o c o' r r' _ _ _ _ hback hrec
    exact hrec.dispatchedAs hback

/-- The payload of a dispatched record is never replaced. -/
theorem RecordStep.spent_prepared {env : Env} {es : List Effect} {op : Op} {res : Except Exc Answer}
    {r r' : IntentRecord} {prep : PrepareResult} (hrec : RecordStep env es op res id r r')
    (hr : r.state.spent = true ∧ r.prepared = some prep) : r'.state.spent = true ∧ r'.prepared = some prep := by
  refine ⟨hrec.spent hr.1, ?_⟩
  cases hrec with
  | prepared hstate _ _ _ _ _ =>
      rw [hstate] at hr
      cases hr.1
  | _ => exact hr.2

/-- A dispatch leaves the record with the payload dispatched. -/
theorem Calls.dispatch_leaves {p : Bytes} {x : String} (hcall : Calls cfg o c o') (ho : o.Consistent)
    (hd : c.Dispatches id p x) :
    ∃ r, o'.record? id = some r ∧ r.state.spent = true ∧ ∃ prep, r.prepared = some prep ∧ prep.preparedHash = x := by
  obtain ⟨r, prep, hr, hstate, hprep, _, rfl⟩ := hcall.dispatches_approved hd
  obtain ⟨r', hr', hs⟩ := hcall.step.dispatch_spent hd
  obtain ⟨r'', hr'', hrec⟩ := hcall.record_step ho hr
  obtain rfl : r' = r'' := Option.some.inj (hr'.symm.trans hr'')
  refine ⟨r', hr', hs, prep, ?_, rfl⟩
  generalize c.op = op at hrec
  generalize c.result = res at hrec
  cases hrec with
  | prepared hstate' _ _ _ _ _ =>
      rw [hstate] at hstate'
      cases hstate'
  | _ => exact hprep

/-! ## The theorem -/

/-- **No hash is dispatched twice, exactly when no `execute` finds a hash some dispatched intent holds.** -/
theorem dispatched_once_per_hash_iff (hrun : PolicyRun cfg h o) :
    OncePerHash h ↔ ∀ e ∈ h, ExecutesFreshHash e := by
  constructor
  · intro honce e he hop id r prep hfirst hprep id' r' prep' hne hr' hs hprep' hhash
    obtain ⟨j, hj⟩ := List.getElem?_of_mem he
    obtain ⟨hpast, hcall⟩ := hrun.at_position hj
    -- the other intent was dispatched with this hash before, and this call dispatches it again
    obtain ⟨prep'', k, hp, hd⟩ := PolicyRun.dispatchedAs hpast hr' hs
    obtain rfl : prep'' = prep' := Option.some.inj (hp.symm.trans hprep')
    obtain ⟨prep₀, hp₀, hd₀⟩ := hcall.execute_dispatches (PolicyRun.consistent hpast) hop hfirst
    obtain rfl : prep₀ = prep := Option.some.inj (hp₀.symm.trans hprep)
    rw [hhash] at hd
    have heq := honce k j _ _ _ _ _ hd.of_take.2 ⟨e, hj, hd₀⟩
    exact absurd hd.of_take.1 (by omega)
  · intro hfresh
    have hlater {i j : Nat} {id id' : String} {p p' : Bytes} {x : String} (hd : Happens h i (·.Dispatches id p x))
        (hd' : Happens h j (·.Dispatches id' p' x)) : ¬ i < j := by
      intro hij
      by_cases hid : id = id'
      · subst hid
        exact hrun.not_dispatched_later hd hd' hij
      · obtain ⟨e, he, hde⟩ := hd
        obtain ⟨e', he', hde'⟩ := hd'
        obtain ⟨hpast, hcall⟩ := hrun.at_position he
        obtain ⟨_, hcall'⟩ := hrun.at_position he'
        obtain ⟨r, hr, hs, prep, hprep, hx⟩ := hcall.dispatch_leaves (PolicyRun.consistent hpast) hde
        obtain ⟨r₁, hr₁, hs₁, hp₁⟩ := Run.record_stays (fun _ hf => hf)
          (fun _ _ _ _ _ _ hrec hs => RecordStep.spent_prepared hrec hs) hrun he he' hij ⟨r, hr, hs, hprep⟩
        obtain ⟨hop, r', prep', hfirst, hprep', _, hx'⟩ := hcall'.step.of_dispatch hde'
        exact hfresh e' (List.mem_of_getElem? he') hop id' r' prep' hfirst hprep' id r₁ prep hid hr₁ hs₁ hp₁
          (hx.trans hx')
    intro i j id id' p p' x hd hd'
    have hle := hlater hd hd'
    have hge := hlater hd' hd
    omega

/-- The sample adapter prepares both payments alike. -/
theorem hash_dispatched_twice :
    ¬ ∀ (cfg : Config) (h : History) (o : PaymentOrchestrator), PolicyRun cfg h o → OncePerHash h := by
  intro hall
  let payments := Sample.approved "i" 0 ++ [(.execute, Sample.env 0 Sample.paid)] ++
    (Sample.approved "j" 0 ++ [(.execute, Sample.env 0 Sample.paid)])
  have honce := hall Sample.config _ _ (run_play_init Sample.fresh.fresh payments)
  have heq : 4 = 9 := honce 4 9 "i" "j" [1, 2, 3] [1, 2, 3] "hash"
    ⟨_, rfl, by unfold Call.Dispatches; decide⟩ ⟨_, rfl, by unfold Call.Dispatches; decide⟩
  exact absurd heq (by decide)

namespace Sample

/-- An adapter that prepares each payment under a hash of its own. -/
def hashEnv (hash : String) : Env :=
  ⟨0, { adapter paid with prepare := fun _ _ _ => .ok ⟨2, hash, .LIGHTNING, [1, 2, 3]⟩ }, false⟩

/-- Everything up to the payment of intent `id`, under the hash `id`. -/
def paidUnder (id : String) : List (Op × Env) :=
  [(.submit (intent id 100), hashEnv id), (.receiveQuote (quote id "invoice A" 100), hashEnv id), (.prepare, hashEnv id),
    (.approve { approval id with preparedHash := id }, hashEnv id), (.execute, hashEnv id)]

def twoHashes : History := playHistory config (.init .empty 0) (paidUnder "i" ++ paidUnder "j")

theorem twoHashes_run : Run FreshEmpty (Calls config) twoHashes
    (play config (.init .empty 0) (paidUnder "i" ++ paidUnder "j")) := run_play_init fresh _

end Sample

/-- Two payments, under two hashes. -/
theorem dispatched_once_per_hash_payment : (Sample.twoHashes.flatMap fun e => dispatches e.seen.effects).length = 2 ∧
    OncePerHash Sample.twoHashes := by
  refine ⟨by decide, ?_⟩
  have hrun := Sample.twoHashes_run.mono (fun _ h0 => h0.fresh) (fun _ _ _ hs => hs)
  refine (dispatched_once_per_hash_iff hrun).mpr ?_
  intro e he _ id r prep hfirst hprep id' r' prep' hne hr' _ hprep' heq
  -- the hash of every prepared intent is its id
  have hown : ∀ e ∈ Sample.twoHashes, ∀ entry ∈ e.before.intents.entries, ∀ p ∈ entry.2.prepared,
      p.preparedHash = entry.1 := by decide
  have hid := hown e he _ (List.mem_of_find?_eq_some hfirst) prep hprep
  have hid' := hown e he _ ((Dict.get?_eq_some_iff _).mp hr') prep' hprep'
  exact hne (hid'.symm.trans (heq.trans hid))

end HermesPayments
