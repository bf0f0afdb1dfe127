import HermesPayments.Process.Runs

/-!
# `HermesPayments.Process.Correctness.Dispatch` — at most one dispatch, across crashes

The in-memory state that keeps an intent from being executed again reaches the disk only with the snapshot at
the end of the command. A kill between the adapter call and that snapshot leaves `APPROVED` on disk, and the
next `execute` after a restart dispatches the payment again (`dispatched_twice`). No other kill does
(`dispatched_at_most_once`).
-/

namespace HermesPayments

open Lib PaymentState

/-- **No intent is dispatched twice**, in any run with any kills and restarts, unless one of the kills came
    after `adapter.execute` was called for it and before the snapshot was replaced. -/
theorem dispatched_at_most_once {config : ProcessConfig} {h : List (Event Node NodeEvent)} {n : Node}
    (hrun : NodeRun config h n) {id : String} (hkill : ∀ e ∈ h, ¬ e.seen.loses id) :
    n.world.dispatched.count id ≤ 1 := by
  have hsound : n.Sound (Lost h) := hrun.sound
  refine hsound.durable.once id ?_
  rintro ⟨e, he, hloses⟩
  exact hkill e he hloses

namespace Sample

/-- A process that is killed in `execute` after `k` effects … -/
def killedInExecuteAt (n : World × ProcessState) (k : Nat) : World :=
  (Cut.mk k .nothing).world n.1 (n.2.handle process penv (.ok .execute)).effects

/-- … is started again, and told to execute. -/
def resumedExecute (w : World) : World × ProcessState :=
  commands process penv (w.after (w.start process pass).effects, (w.start process pass).state) [.execute]

/-- A payment that is killed before the adapter is called for it, and again after it has been dispatched. -/
def paidThroughKills : World × ProcessState :=
  resumedExecute (killedInExecuteAt (resumedExecute (killedInExecuteAt (commands process penv booted approving) 1)) 0)

theorem resumedExecute_run {h : List (Event Node NodeEvent)} {n : World × ProcessState}
    (hrun : NodeRun process h ⟨n.1, some n.2⟩) (hlost : ∀ id, ¬ Lost h id) (k : Nat)
    (hcut : openDispatch ((n.2.handle process penv (.ok .execute)).effects.take k) = none)
    (hopens : (killedInExecuteAt n k).audit.opens = true)
    (hok : ((killedInExecuteAt n k).start process pass).result = .ok ()) :
    ∃ g, NodeRun process g ⟨(resumedExecute (killedInExecuteAt n k)).1, some (resumedExecute (killedInExecuteAt n k)).2⟩ ∧
      ∀ id, ¬ Lost g id := by
  have hkilled := hrun.snoc (NodeStep.killed _ _ penv (.ok .execute) ⟨k, .nothing⟩)
  have hstarted := hkilled.snoc (NodeStep.started (killedInExecuteAt n k) pass hopens hok)
  refine NodeRun.commands hstarted (not_lost_snoc (not_lost_snoc hlost fun id hloses => ?_) fun _ hloses => hloses) penv
    [.execute]
  have hnone : openDispatch ((n.2.handle process penv (.ok .execute)).effects.take k) = some id := hloses
  rw [hcut] at hnone
  cases hnone

end Sample

/-- The payment is dispatched once. -/
theorem dispatched_at_most_once_payment : Sample.paidThroughKills.1.dispatched = ["i"] ∧
    Sample.paidThroughKills.1.dispatched.count "i" ≤ 1 := by
  obtain ⟨h, hrun, hlost⟩ := Sample.booted_run
  obtain ⟨_, happroved, hlost⟩ := hrun.commands hlost Sample.penv Sample.approving
  obtain ⟨_, hpaid, hlost⟩ := Sample.resumedExecute_run happroved hlost 1 (by decide) (by decide) (by decide)
  obtain ⟨_, hagain, hlost⟩ := Sample.resumedExecute_run hpaid hlost 0 (by decide) (by decide) (by decide)
  exact ⟨by decide, dispatched_at_most_once hagain fun e he hloses => hlost "i" ⟨e, he, hloses⟩⟩

namespace Sample

/-- The process is killed while `adapter.execute` runs, the second effect of the command. -/
def killedInExecute : World := killedInExecuteAt (commands process penv booted approving) 2

/-- … is started again, and told to execute again. -/
def executedAgain : World × ProcessState := resumedExecute killedInExecute

end Sample

/-- A payment is dispatched twice. -/
theorem dispatched_twice :
    ¬ ∀ (config : ProcessConfig) (h : List (Event Node NodeEvent)) (n : Node), NodeRun config h n →
      ∀ id, n.world.dispatched.count id ≤ 1 := by
  intro hall
  obtain ⟨h, hrun, hlost⟩ := Sample.booted_run
  obtain ⟨g, hrun', _⟩ := hrun.commands hlost Sample.penv Sample.approving
  have hkilled := hrun'.snoc (NodeStep.killed _ _ Sample.penv (.ok .execute) ⟨2, .nothing⟩)
  have hstarted := hkilled.snoc (NodeStep.started Sample.killedInExecute Sample.pass (by decide) (by decide))
  have hagain := hstarted.snoc (NodeStep.handled _ _ Sample.penv (.ok .execute))
  have htwo : Sample.executedAgain.1.dispatched.count "i" ≤ 1 := hall _ _ _ hagain "i"
  exact absurd htwo (by decide)

end HermesPayments
