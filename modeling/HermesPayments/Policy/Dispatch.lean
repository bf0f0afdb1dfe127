import HermesPayments.Policy.Runs

/-!
# `HermesPayments.Policy.Dispatch` — the dispatches of a run

A dispatch is a call of `adapter.execute`. It is made for an intent that is `APPROVED` when the call starts, with
the payload and hash its record holds, and what it leaves behind is never undone: an intent is dispatched once.
-/

namespace HermesPayments

open Lib PaymentState

/-- A call of `adapter.execute` for this intent with this payload and hash. -/
def Call.Dispatches (c : Call) (id : String) (payload : Bytes) (hash : String) : Prop :=
  (id, payload, hash) ∈ dispatches c.effects

variable {cfg : Config} {o o' : PaymentOrchestrator} {c : Call} {h : History} {id : String}

/-- The intent a dispatch is made for is `APPROVED` when the call starts. -/
theorem Calls.dispatches_approved {payload : Bytes} {hash : String} (hcall : Calls cfg o c o')
    (hd : c.Dispatches id payload hash) :
    ∃ r prep, o.record? id = some r ∧ r.state = APPROVED ∧ r.prepared = some prep ∧
      payload = prep.preparedPayload ∧ hash = prep.preparedHash := by
  obtain ⟨_, r, prep, hfirst, hprep, hp, hx⟩ := hcall.step.of_dispatch hd
  obtain ⟨hr, hstate⟩ := PaymentOrchestrator.record?_of_firstIn hfirst
  exact ⟨r, prep, hr, hstate, hprep, hp, hx⟩

/-- A dispatched intent is not dispatched later. -/
theorem PolicyRun.not_dispatched_later (hrun : PolicyRun cfg h o) {j k : Nat} {p p' : Bytes}
    {x x' : String} (hd : Happens h j (·.Dispatches id p x)) (hd' : Happens h k (·.Dispatches id p' x')) :
    ¬ j < k := by
  intro hjk
  obtain ⟨e, he, hd⟩ := hd
  obtain ⟨e', he', hd'⟩ := hd'
  have hspent := (hrun.at_position he).2.step.dispatch_spent hd
  obtain ⟨r, hr, hs⟩ := Run.record_stays (fun _ hf => hf)
    (fun _ _ _ _ _ _ hrec hs => RecordStep.spent hrec hs) hrun he he' hjk hspent
  obtain ⟨r', _, hr', happroved, _⟩ := (hrun.at_position he').2.dispatches_approved hd'
  obtain rfl : r = r' := Option.some.inj (hr.symm.trans hr')
  rw [happroved] at hs
  cases hs

/-- An intent is dispatched in one call at most. -/
theorem PolicyRun.dispatched_once (hrun : PolicyRun cfg h o) {j k : Nat} {p p' : Bytes} {x x' : String}
    (hd : Happens h j (·.Dispatches id p x)) (hd' : Happens h k (·.Dispatches id p' x')) : j = k := by
  have hle := hrun.not_dispatched_later hd hd'
  have hge := hrun.not_dispatched_later hd' hd
  omega

end HermesPayments
