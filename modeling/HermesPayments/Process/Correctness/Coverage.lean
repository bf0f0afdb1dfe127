import HermesPayments.Process.Contents
import HermesPayments.StateMachine.Reachable
import Mathlib

/-!
# `HermesPayments.Process.Correctness.Coverage` — which states payments get to

The automaton is larger than its use. `reachable_states` lists what its triggers lead to from `DRAFT`; of these, records
are found in all but three (`states_covered`). `DRAFT` is left when a record is made, and no operation fires the triggers
that lead to `FAILED` and `EXPIRED`: what times out or fails before its dispatch stays where it is.
-/

namespace HermesPayments

open Lib PaymentState

/-- The states no record is ever in. -/
def PaymentState.unused (s : PaymentState) : Bool := s ∈ [DRAFT, FAILED, EXPIRED]

/-- A record of the intent is in this state, in the memory of the process or in the snapshot file. -/
def Node.HoldsIn (n : Node) (id : String) (s : PaymentState) : Prop :=
  (∃ p r, n.proc = some p ∧ p.orchestrator.record? id = some r ∧ r.state = s) ∨
    ∃ d, n.world.record? id = some d ∧ d.state = s

/-- Records in states that are used. -/
def used : Contents := ⟨fun _ d => d.state.unused = false, fun _ => True⟩

section

variable {config : ProcessConfig} {α : Type}

/-- Recovery moves a record to a state that is used. -/
theorem used_survives : used.Survives := by
  rintro id d state result hd (rfl | ⟨_, rfl⟩)
  · exact hd
  · rfl

/-- **What a call does to a record** leaves it in a state that is used. -/
theorem RecordStep.used {env : Env} {es : List Effect} {op : Op} {res : Except Exc Answer} {id : String}
    {r r' : IntentRecord} (h : RecordStep env es op res id r r') (hr : r.state.unused = false) :
    r'.state.unused = false := by
  cases h with
  | kept | quoteOverwritten _ _ _ | reconciled _ => exact hr
  | dispatchOpen _ _ hs _ => rcases hs with rfl | rfl <;> rfl
  | quoted _ _ _ | prepared _ _ _ _ _ _ | approved _ _ _ _ _ | dispatchSettled _ _ _ | receiptSettled _ _ _ _ _ _
  | confirmed _ | cancelled _ | rejected _ | swept _ => rfl

theorem used_call (env : Env) (op : Op) : used.frame.Keeps (Process.policy (call config.policy env op)) := by
  refine contents_policy fun o ho => ?_
  have hcall := Calls.of_call config.policy env o op
  intro id r' hr'
  refine hcall.record_of (P := fun r => r.state.unused = false) hr' (fun _ _ => rfl) ?_
  intro r hr hrec
  exact hrec.used (ho id r hr)

variable (config) in
theorem used_admits (penv : ProcessEnv) : used.frame.Admits config penv where
  call op _ := used_call penv.env op
  verify _ _ := Crash.emit fun _ _ h => ⟨h.1, h.1, h⟩
  recover _ := used_survives.maybeRecover _ true

theorem used_ignoresInbox : used.frame.IgnoresInbox := fun _ _ _ h => ⟨h.1, h.2.records, fun _ _ => trivial, h.2.file⟩

/-- **Every activity** finds and leaves records in states that are used. -/
theorem used_run (a : Activity) (written : Bool) : used.frame.Keeps (a.run config written) := by
  have hbody : used.frame.Keeps (a.body config) := by
    cases a with
    | call env op => exact .respond (used_call env op) fun _ => Proc.Still.pure _
    | line penv parsed =>
        cases parsed with
        | error e => exact .still (Proc.Still.raise e)
        | ok command =>
            refine .respond ?_ fun _ => Proc.Still.pure _
            exact (used_admits config penv).handler_all used_ignoresInbox (used_call penv.env .execute) command
  exact Activity.crash hbody contents_snapshotState written

theorem FaultStep.used {n n' : Node} {i : FaultEvent} (hstep : FaultStep config n i n') (hn : used.OfNode n) :
    HermesPayments.used.OfNode n' := by
  refine hstep.covers ?_ ?_ ?_
  · exact fun _ _ _ hw => hw
  · rintro w s a written rfl _
    exact used_run a written s w (hn.2 s rfl)
  · rintro w pass rfl _
    exact used_survives.start pass hn.1

/-- No record is in a state that is not used, in any run. -/
theorem FaultRun.not_unused {h : List (Event Node FaultEvent)} {n : Node} (hrun : FaultRun config h n) {id : String}
    {s : PaymentState} (hs : n.HoldsIn id s) : s.unused = false := by
  have hn : used.OfNode n := by
    refine hrun.invariant ?_ fun _ _ _ hn hstep => hstep.used hn
    rintro n rfl
    exact ⟨nofun, nofun⟩
  -- in memory, or in the file
  rcases hs with ⟨p, r, hp, hr, rfl⟩ | ⟨d, hd, rfl⟩
  · exact (hn.2 p hp).2.records id r hr
  · cases hsnap : n.world.snapshot with
    | none =>
        rw [World.record?, hsnap] at hd
        cases hd
    | some snapshot =>
        rw [World.record?, hsnap] at hd
        exact (hn.1 snapshot hsnap).1 id d hd

end

namespace Sample

/-- The calls that take an intent to a state. -/
def leading : PaymentState → List (Op × Env)
  | DRAFT | FAILED | EXPIRED => []
  | SUBMITTED => (approved "i" 0).take 1
  | QUOTED => (approved "i" 0).take 2
  | PREPARED => (approved "i" 0).take 3
  | APPROVED => approved "i" 0
  | EXECUTING => approved "i" 0 ++ [(.execute, env 0 (.error (.other "timed out")))]
  | RECONCILIATION_REQUIRED => approved "i" 0 ++ [(.execute, env 0 (.error (.ambiguousResult "timed out")))]
  | SETTLED => approved "i" 0 ++ [(.execute, env 0 paid)]
  | REJECTED => approved "i" 0 ++ [(.reject "i", env 0 paid)]
  | CANCELLED => (approved "i" 0).take 3 ++ [(.cancel "i", env 0 paid)]

variable (config : ProcessConfig)

/-- The process of any configuration that is started over an empty state root and told so. -/
def led (s : PaymentState) : World × ProcessState :=
  performs config (World.empty.after (World.empty.start config pass).effects, (World.empty.start config pass).state)
    (calls (leading s))

theorem led_run (s : PaymentState) : ∃ h, FaultRun config h ⟨(led config s).1, some (led config s).2⟩ := by
  have hempty : FaultRun config [] ⟨.empty, none⟩ := .nil rfl
  have hstarted := hempty.snoc (FaultStep.started World.empty pass rfl rfl)
  exact ⟨_, FaultRun.performs config hstarted (calls (leading s))⟩

/-- No branch on the way depends on the configuration, so the calls are run under an unknown one. -/
theorem led_stateOf {s : PaymentState} (hs : s.unused = false) : (led config s).2.orchestrator.stateOf "i" = s := by
  cases s with
  | DRAFT | FAILED | EXPIRED => cases hs
  | SUBMITTED | QUOTED | PREPARED | APPROVED | EXECUTING | RECONCILIATION_REQUIRED | SETTLED | REJECTED | CANCELLED => cbv

theorem led_holdsIn {s : PaymentState} (hs : s.unused = false) :
    Node.HoldsIn ⟨(led config s).1, some (led config s).2⟩ "i" s := by
  have hstate := led_stateOf config hs
  cases hr : (led config s).2.orchestrator.record? "i" with
  | none =>
      -- an intent without a record counts as a draft
      rw [PaymentOrchestrator.stateOf, hr] at hstate
      rw [← hstate] at hs
      cases hs
  | some r =>
      rw [PaymentOrchestrator.stateOf_of_record? hr] at hstate
      exact .inl ⟨_, r, rfl, hr, hstate⟩

end Sample

/-- **Which states payments get to.** `reachable_states` returns the states that triggers lead to from `DRAFT`, in whatever
    order its frontier hands them out. In the runs of a process, with any failing writes, kills and restarts, records are
    found in each of them but `DRAFT`, `FAILED` and `EXPIRED`, and in no other state. -/
theorem states_covered (config : ProcessConfig) {pop : Nat → Finset PaymentState → PaymentState}
    (hpop : ∀ k f, f.Nonempty → pop k f ∈ f) {fuel : Nat} (hfuel : 158 ≤ fuel) :
    ∃ found, reachableStates pop fuel = some found ∧
      (∀ s, s ∈ found ↔ Relation.ReflTransGen PaymentState.StepsTo DRAFT s) ∧
      ∀ s, (∃ h n id, FaultRun config h n ∧ n.HoldsIn id s) ↔ s ∈ found ∧ s.unused = false := by
  obtain ⟨found, hfound, hreached⟩ := reachableStates_spec hpop hfuel
  refine ⟨found, hfound, hreached, fun s => ⟨?_, ?_⟩⟩
  · rintro ⟨h, n, id, hrun, hs⟩
    exact ⟨(hreached s).mpr s.reachable, hrun.not_unused hs⟩
  · rintro ⟨_, hused⟩
    obtain ⟨h, hrun⟩ := Sample.led_run config s
    exact ⟨h, _, "i", hrun, Sample.led_holdsIn config hused⟩

/-- A frontier that hands out its states in the order of their definition. -/
def Sample.popFirst (_ : Nat) (f : Finset PaymentState) : PaymentState :=
  ([DRAFT, SUBMITTED, QUOTED, PREPARED, APPROVED, EXECUTING, SETTLED, FAILED, REJECTED, EXPIRED, CANCELLED,
    RECONCILIATION_REQUIRED].find? (· ∈ f)).getD DRAFT

theorem Sample.popFirst_mem (k : Nat) (f : Finset PaymentState) (hf : f.Nonempty) : popFirst k f ∈ f := by
  obtain ⟨s, hs⟩ := hf
  unfold popFirst
  generalize hstates : [DRAFT, SUBMITTED, QUOTED, PREPARED, APPROVED, EXECUTING, SETTLED, FAILED, REJECTED, EXPIRED,
    CANCELLED, RECONCILIATION_REQUIRED] = states
  have hmem : s ∈ states := by
    rw [← hstates]
    cases s <;> decide
  cases hfind : states.find? (· ∈ f) with
  | none =>
      rw [List.find?_eq_none] at hfind
      exact absurd (decide_eq_true hs) (hfind s hmem)
  | some t =>
      have ht := List.find?_some hfind
      exact of_decide_eq_true ht

/-- The search finds `EXPIRED`, and no payment ever is. -/
theorem states_covered_expired : ∃ found, reachableStates Sample.popFirst 158 = some found ∧ EXPIRED ∈ found ∧
    ¬ ∃ h n id, FaultRun Sample.process h n ∧ n.HoldsIn id EXPIRED := by
  obtain ⟨found, hfound, hreached, hiff⟩ := states_covered Sample.process Sample.popFirst_mem (le_refl 158)
  refine ⟨found, hfound, (hreached EXPIRED).mpr (PaymentState.reachable EXPIRED), fun hrun => ?_⟩
  obtain ⟨_, hused⟩ := (hiff EXPIRED).mp hrun
  cases hused

end HermesPayments
