import HermesPayments.Peer
import HermesPayments.Policy.Runs

/-!
# `HermesPayments.Policy.Correctness.Submission` — what a submission that returns has done

`submit` is idempotent on the id: an id the store has seen is a silent no-op, so that a duplicate, also one
that arrives after a restart, never starts a second payment. A submission that returns was therefore either
such a duplicate, and changed nothing, or it took the intent (`submit_returns`).
-/

namespace HermesPayments

open Lib PaymentState

/-- The submission was a duplicate: the store knew the id, and nothing changed. -/
structure Duplicate (o o' : PaymentOrchestrator) (i : PaymentIntent) : Prop where
  known     : o.store.hasIntent i.id = true
  unchanged : o' = o
  same_id   : ∀ j, o.getIntent i.id = some j → j.id = i.id

/-- The submission took the intent: the id was new, the intent passed validation, and it is now tracked under
    its id, in every field, with the id in the store. -/
structure Taken (cfg : Config) (env : Env) (o o' : PaymentOrchestrator) (i : PaymentIntent) : Prop where
  new       : o.store.hasIntent i.id = false
  unexpired : ¬ (i.expiresAt ≠ 0 ∧ env.now > i.expiresAt)
  recipient : allowed cfg.recipientAllowlist i.recipient.pubkey = true
  held      : o'.getIntent i.id = some i
  recorded  : o'.store.hasIntent i.id = true

variable {cfg : Config} {o o' : PaymentOrchestrator} {i : PaymentIntent}

theorem getIntent_eq_some {id : String} {j : PaymentIntent} :
    o.getIntent id = some j ↔ ∃ r, o.record? id = some r ∧ r.intent = j := by
  unfold PaymentOrchestrator.getIntent
  exact Option.map_eq_some_iff

theorem Duplicate.of_known (ho : o.Consistent) (hknown : o.store.hasIntent i.id = true) :
    Duplicate o o i := by
  refine ⟨hknown, rfl, fun j hj => ?_⟩
  obtain ⟨r, hr, rfl⟩ := getIntent_eq_some.mp hj
  exact (ho.records _ r hr).intent_id

theorem Taken.of_track {env : Env} (hnew : o.store.hasIntent i.id = false)
    (hexp : ¬ (i.expiresAt ≠ 0 ∧ env.now > i.expiresAt))
    (hrec : allowed cfg.recipientAllowlist i.recipient.pubkey = true) :
    Taken cfg env o (o.track i).logged i := by
  refine ⟨hnew, hexp, hrec, ?_, ?_⟩
  · refine getIntent_eq_some.mpr ⟨PaymentOrchestrator.submittedRecord i, ?_, rfl⟩
    rw [PaymentOrchestrator.record?_logged, PaymentOrchestrator.record?_track, if_pos rfl]
  · exact IdempotencyStore.hasIntent_addIntent _ _

/-- One submission that returns. -/
theorem Step.submit_taken {env : Env} {a : Answer} {es : List Effect} (ho : o.Consistent)
    (h : Step cfg env o (.submit i) (.ok a) o' es) : Duplicate o o' i ∨ Taken cfg env o o' i := by
  cases h with
  | seen hknown => exact .inl (.of_known ho hknown)
  | submitted hnew hexp hrec _ => exact .inr (.of_track hnew hexp hrec)

/-- What a peer publishes after a submission is the submitted intent, and the submission returned. -/
theorem submitIntent_sends {identity : AgentIdentity} {penv : PeerEnv} {m : PaymentMessage}
    (hsend : .send m ∈ ((HermesPeer.submitIntent cfg identity penv i).run o).effects) :
    m = .intent i ∧ i.sender.pubkey = identity.pubkey ∧
      ∃ c, Calls cfg o c ((HermesPeer.submitIntent cfg identity penv i).run o).state ∧ c.env = penv.env ∧
        c.op = .submit i ∧ c.result = .ok .unit := by
  revert hsend
  rw [HermesPeer.submitIntent, HermesPeer.requireLocalAuthor]
  by_cases hauthor : (messageAuthor (.intent i)).pubkey ≠ identity.pubkey
  · -- refused before anything is done
    simp [hauthor, Proc.run_bind]
  simp only [hauthor, if_false, Proc.run_bind, Proc.run_pure, Proc.after_nil, Peer.policy, Proc.run_zoom, id]
  rcases hrun : (submit cfg penv.env i).run o with ⟨_ | ⟨⟩, o', es⟩
  · -- `submit` raised: only effects of the policy engine
    simp
  · have hcall : (call cfg penv.env (.submit i)).run o = ⟨.ok .unit, o', es⟩ := by
      simp [call, Proc.run_bind, hrun]
    intro hsend
    refine ⟨?_, not_not.mp hauthor, ⟨.submit i, penv.env, .ok .unit, es⟩, ?_, rfl, rfl, rfl⟩
    · simpa [HermesPeer.transportSend, Proc.run_bind] using hsend
    · simpa [Calls, HermesPeer.transportSend, Proc.run_bind] using hcall

/-- **A submission that returns was a duplicate or took the intent**; and a peer publishes an intent only
    after such a submission, and only one it authored. -/
theorem submit_returns (hreach : Reachable cfg o) :
    (∀ c o' a, Calls cfg o c o' → c.op = .submit i → c.result = .ok a →
      Duplicate o o' i ∨ Taken cfg c.env o o' i) ∧
    ∀ identity penv m, .send m ∈ ((HermesPeer.submitIntent cfg identity penv i).run o).effects →
      m = .intent i ∧ i.sender.pubkey = identity.pubkey ∧
      (Duplicate o ((HermesPeer.submitIntent cfg identity penv i).run o).state i ∨
        Taken cfg penv.env o ((HermesPeer.submitIntent cfg identity penv i).run o).state i) := by
  constructor
  · intro c o' a hcall hop hok
    have hstep := hcall.step
    rw [hop, hok] at hstep
    exact hstep.submit_taken hreach.consistent
  · intro identity penv m hsend
    obtain ⟨hm, hauthor, c, hcall, henv, hop, hok⟩ := submitIntent_sends hsend
    have hstep := hcall.step
    rw [hop, hok, henv] at hstep
    exact ⟨hm, hauthor, hstep.submit_taken hreach.consistent⟩

/-- A restart on a store file that knows the id. -/
def Sample.seen : PaymentOrchestrator := .init (IdempotencyStore.empty.addIntent "i") 0

theorem Sample.seen_reachable : Reachable config seen := ⟨[], .nil ⟨_, _, rfl⟩⟩

/-- A submission that returns need not have taken the intent: a fresh orchestrator over a store file that knows
    the id ignores it. -/
theorem submit_not_taken :
    ¬ ∀ (cfg : Config) (o o' : PaymentOrchestrator) (c : Call) (a : Answer) (i : PaymentIntent),
      Reachable cfg o → Calls cfg o c o' → c.op = .submit i → c.result = .ok a →
      o'.getIntent i.id = some i := by
  intro hall
  have hcall := Calls.of_call Sample.config (Sample.env 0 Sample.paid) Sample.seen
    (.submit (Sample.intent "i" 100))
  have hheld := hall _ _ _ _ .unit _ Sample.seen_reachable hcall rfl rfl
  exact absurd hheld (by decide)

/-- A submission on an empty store takes the intent. -/
theorem submit_returns_new : Taken Sample.config (Sample.env 0 Sample.paid) (.init .empty 0)
    ((call Sample.config (Sample.env 0 Sample.paid) (.submit (Sample.intent "i" 100))).run (.init .empty 0)).state
    (Sample.intent "i" 100) :=
  ((submit_returns (Sample.reachable [])).1 _ _ _ (Calls.of_call Sample.config (Sample.env 0 Sample.paid) _
    (.submit (Sample.intent "i" 100))) rfl rfl).resolve_left (fun h => absurd h.known (by decide))

end HermesPayments
