import HermesPayments.Process.Correctness.Reproduction
import HermesPayments.Process.Trail

/-!
# `HermesPayments.Process.Correctness.AuditFile` — the audit file outlives every crash

`audit_log_faithful` is about one policy engine. The audit file is that of all the processes there have been over a state
root, and some of them were killed: what memory held is lost, and what was appended is not. Here the trail in the file is
followed through kills, starts, recoveries and snapshots that are not written (`audit_file_survives`). What is in the file
can also be read, each entry on a line of its own, unless a process was started over a line without its newline.
-/

namespace HermesPayments

open Lib PaymentState

/-! ## The frame -/

/-- The files are in order and the trail leads to what is in memory. No promise about a single dispatch is needed, so every
    intent counts as lost. -/
def trail (id : String) : Frame where
  crash w := Durable (fun _ => True) ⟨w, none⟩ ∧ ∃ s, w.Logged id s
  holds p w := Ready (fun _ => True) p ⟨w, none⟩ ∧ w.Logged id (p.orchestrator.stateOf id)
  sound h := ⟨h.1.toDurable, _, h.2⟩

section

variable {config : ProcessConfig} {id : String} {α : Type}

theorem Durable.unwatched {t : Watched} (h : Durable (fun _ => True) t) : Durable (fun _ => True) ⟨t.world, none⟩ :=
  ⟨h.records, h.inbox, h.once, h.known, fun _ hlost => absurd trivial hlost⟩

theorem Live.unwatched {file : Option ProcessSnapshot} {o : PaymentOrchestrator} {t : Watched}
    (h : Live (fun _ => True) (fun _ => False) file o t) : Idle (fun _ => True) (fun _ => False) file o ⟨t.world, none⟩ :=
  ⟨⟨h.toDurable.unwatched, h.store, h.consistent, h.file, fun _ hlost => absurd trivial hlost⟩, rfl⟩

/-- A computation that keeps the files in order and whose effects lead on. -/
theorem trail_keeps {m : Process α} (hfiles : HandlerCrash (fun _ => True) m) (hlogged : ∀ p w, (trail id).holds p w →
    (∀ k, ∃ u, (w.after ((m.run p).effects.take k)).Logged id u) ∧
      (w.after (m.run p).effects).Logged id ((m.run p).state.orchestrator.stateOf id)) : (trail id).Keeps m := by
  rintro p w h
  obtain ⟨hcut, hlive⟩ := hfiles p ⟨w, none⟩ h.1
  obtain ⟨hcut', hafter⟩ := hlogged p w h
  rw [Watched.applyAll_eq] at hlive
  refine ⟨fun k => ⟨?_, hcut' k⟩, hlive.unwatched, hafter⟩
  have hdurable := (hcut k).unwatched
  rwa [Watched.applyAll_eq] at hdurable

theorem trail_call {env : Env} (hsave : env.saves config.policy) (op : Op) :
    (trail id).Keeps (Process.policy (call config.policy env op)) := by
  refine trail_keeps ?_ ?_
  · refine crash_process_policy (P := fun file o t => Idle (fun _ => True) (fun _ => False) file o t)
      (Q := fun file o t => Live (fun _ => True) (fun _ => False) file o t) fun file => ?_
    exact (crash_call config.policy_storePath hsave op (.inl fun _ h => h)).post fun _ _ _ h => h.1
  · rintro p w ⟨hready, h⟩
    rw [run_process_policy]
    exact h.call (Calls.of_call config.policy env p.orchestrator op) hready.consistent hsave

theorem trail_snapshotState : (trail id).Keeps snapshotState := by
  refine trail_keeps ?_ ?_
  · exact crash_snapshotState.weaken (fun _ _ h => h.toLive) fun _ _ _ h => h.1.toLive
  · rintro p w ⟨_, h⟩
    rw [run_snapshotState]
    have hcut (k : Nat) : ∃ u, (w.after (([] : List ProcessEffect).take k)).Logged id u := by
      rw [List.take_nil]
      exact ⟨_, h⟩
    exact World.Logged.snapshot hcut h

/-- A pass of recovery. -/
theorem trail_maybeRecover (now : Int) (adapter : String → SettlementAdapter) :
    (trail id).Keeps (maybeRecover config (fun intentId => ⟨now, adapter intentId, false⟩) true) := by
  refine trail_keeps ?_ ?_
  · exact (crash_recoverPass config now adapter).post fun _ _ _ h => h.toLive
  · rintro p w ⟨hready, h⟩
    exact h.maybeRecover config _ hready.file fun j d hd => (hready.records j d hd).1

variable (config) in
theorem trail_admits (penv : ProcessEnv) : (trail id).Admits config penv where
  call op _ := trail_call (penv.saves _) op
  verify _ _ := Crash.emit fun _ _ h => ⟨(trail id).sound h, (trail id).sound h, h⟩
  recover pass := trail_maybeRecover penv.now pass.adapter

theorem trail_ignoresInbox : (trail id).IgnoresInbox := fun _ _ _ h => h

theorem trail_handler (penv : ProcessEnv) (command : Command) : (trail id).Keeps (handler config penv command) :=
  (trail_admits config penv).handler_all trail_ignoresInbox (trail_call (penv.saves _) .execute) command

end

/-! ## Runs -/

/-- No write of the store fails during the activity. -/
def Activity.Saves (config : ProcessConfig) : Activity → Prop
  | .line _ _   => True
  | .call env _ => env.saves config.policy

instance (config : ProcessConfig) (a : Activity) : Decidable (a.Saves config) :=
  match a with
  | .line _ _   => .isTrue trivial
  | .call env _ => inferInstanceAs (Decidable (env.saves config.policy))

def FaultEvent.Saves (config : ProcessConfig) (e : FaultEvent) : Prop := ∀ a ∈ e.activity?, a.Saves config

instance (config : ProcessConfig) (e : FaultEvent) : Decidable (e.Saves config) :=
  inferInstanceAs (Decidable (∀ a ∈ e.activity?, a.Saves config))

section

variable {config : ProcessConfig} {id : String} {n n' : Node} {i : FaultEvent} {h : List (Event Node FaultEvent)}

/-- **Every activity** keeps the trail, wherever it is cut short. -/
theorem trail_run {a : Activity} (hsave : a.Saves config) (written : Bool) :
    (trail id).Keeps (a.run config written) := by
  have hbody : (trail id).Keeps (a.body config) := by
    cases a with
    | call env op => exact .respond (trail_call hsave op) fun _ => Proc.Still.pure _
    | line penv parsed =>
        cases parsed with
        | error e => exact .still (Proc.Still.raise e)
        | ok command => exact .respond (trail_handler penv command) fun _ => Proc.Still.pure _
  exact Activity.crash hbody trail_snapshotState written

variable (config) in
/-- A start. -/
theorem trail_start {w : World} (hw : (trail id).crash w) (pass : StartPass) :
    (∀ k, (trail id).crash (w.after ((w.start config pass).effects.take k))) ∧
      (trail id).holds (w.start config pass).state (w.after (w.start config pass).effects) := by
  obtain ⟨hdurable, s, hlogged⟩ := hw
  obtain ⟨hcut, hready⟩ := crash_start config pass hdurable
  obtain ⟨hcut', hafter⟩ := World.Logged.maybeRecover config pass.env (p := w.boot) hlogged.fresh rfl
    fun j d hd => (hdurable.records j d hd).1
  refine ⟨fun k => ⟨?_, hcut' k⟩, (hready (start_resumes hdurable pass).1).1, hafter⟩
  have hcutk := (hcut k).unwatched
  rwa [Watched.applyAll_eq] at hcutk

theorem FaultStep.trail (hstep : FaultStep config n i n') (hsave : i.Saves config) (hn : (trail id).Covers n) :
    (HermesPayments.trail id).Covers n' := by
  refine hstep.covers ?_ ?_ ?_
  · rintro w audit hwritten ⟨h, s, hlogged⟩
    refine ⟨⟨h.records, h.inbox, h.once, h.known, h.spent⟩, s, ?_, ?_⟩
    · show ∃ path, audit.written.filterMap _ = _ ∧ _ ∧ _
      rw [hwritten]
      exact hlogged.trail
    · show _ ≤ audit.written.countP _
      rw [hwritten]
      exact hlogged.announced
  · rintro w s a written rfl ha
    exact trail_run (hsave a ha) written s w (hn.2 s rfl)
  · rintro w pass rfl _
    exact trail_start config hn.1 pass

/-- Only from `APPROVED` does an intent pass its dispatch. -/
theorem PaymentState.Moves.into_spent {s t : PaymentState} (h : s.Moves t) (ht : t.spent = true) :
    s.spent = true ∨ s = APPROVED := by
  revert h
  revert ht
  cases s <;> cases t <;> decide

/-- **The audit file outlives every crash**: in every run in which no write of the store fails, the entries in it about an
    intent are the log of the automaton, interrupted at most by resumptions in a state that it shows. The snapshot is in
    such a state, and a running process is in the state the automaton is in. So no entry shows an intent past its dispatch
    unless one shows it approved, and no dispatch of it is without an entry that announced it. As long as no process is
    started over a file whose last line has no newline, each of them has a line of its own. -/
theorem audit_file_survives (hrun : FaultRun config h n) (hsaves : ∀ e ∈ h, e.seen.Saves config) (id : String) :
    (∃ path s, n.world.shown id = List.map PaymentState.shown path ∧ Resumed PaymentState.Moves DRAFT path s ∧
      n.world.stateOf id ∈ DRAFT :: path ∧ (∀ p, n.proc = some p → p.orchestrator.stateOf id = s) ∧
      (∀ t ∈ path, t.spent = true → APPROVED ∈ path) ∧
      n.world.dispatched.count id ≤ n.world.audit.written.countP (AuditEntry.executes id)) ∧
    (StartsOnNewLine h → n.world.audit.read = n.world.audit.written) := by
  have hcovers : (trail id).Covers n := by
    have hguarded : Run NodeInit (fun n i n' => FaultStep config n i n' ∧ i.Saves config) h n := hrun.guarded hsaves
    refine hguarded.invariant ?_ ?_
    · rintro n rfl
      exact ⟨⟨Durable.empty, _, World.logged_empty⟩, nofun⟩
    · rintro n i n' hn ⟨hstep, hsave⟩
      exact hstep.trail hsave hn
  obtain ⟨s, hlogged, hproc⟩ : ∃ s, n.world.Logged id s ∧ ∀ p, n.proc = some p → p.orchestrator.stateOf id = s := by
    cases hp : n.proc with
    | none =>
        obtain ⟨_, s, hlogged⟩ := hcovers.1
        exact ⟨s, hlogged, nofun⟩
    | some p =>
        refine ⟨_, (hcovers.2 p hp).2, ?_⟩
        rintro p' ⟨rfl⟩
        rfl
  obtain ⟨⟨path, hshown, hresumed, hfile⟩, hannounced⟩ := hlogged
  refine ⟨⟨path, s, hshown, hresumed, hfile, hproc, fun t ht hspent => ?_, hannounced⟩, fun hstarts =>
    (hrun.audited hstarts).read⟩
  exact hresumed.passes (T := fun s => s.spent = true) (fun _ _ hmove => PaymentState.Moves.into_spent hmove) (by decide)
    (by decide) ht hspent

end

namespace Sample

/-- The line on which a process pays. -/
def paying : Activity := .line penv (.ok .execute)

/-- The process is killed when the adapter has been called. -/
def killedPaying : World := (Cut.mk 2 .nothing).world readyToPay.1 ((paying.run process true).run readyToPay.2).effects

/-- It is started again, and told to pay again. -/
def paidAgain : World × ProcessState :=
  performs process (killedPaying.after (killedPaying.start process pass).effects, (killedPaying.start process pass).state)
    [(paying, true)]

end Sample

/-- The payment that a kill has hidden from the snapshot is dispatched twice, and announced twice, on two lines. -/
theorem audit_file_survives_kill : Sample.paidAgain.1.dispatched.count "i" = 2 ∧
    ∃ path s, Sample.paidAgain.1.shown "i" = List.map PaymentState.shown path ∧
      Resumed PaymentState.Moves DRAFT path s ∧ Sample.paidAgain.2.orchestrator.stateOf "i" = s ∧ APPROVED ∈ path ∧
      2 ≤ Sample.paidAgain.1.audit.read.countP (AuditEntry.executes "i") := by
  have hready := Sample.booted_faultRun.performs Sample.process (Sample.calls (Sample.approved "i" 0))
  have hkilled := hready.snoc (FaultStep.killed _ _ Sample.paying true ⟨2, .nothing⟩)
  have hstarted := hkilled.snoc (FaultStep.started Sample.killedPaying Sample.pass (by decide) (by decide))
  have hpaid := hstarted.snoc (FaultStep.performed _ _ Sample.paying true)
  have htwice : Sample.paidAgain.1.dispatched.count "i" = 2 := by decide
  have hsettled : Sample.paidAgain.2.orchestrator.stateOf "i" = SETTLED := by decide
  obtain ⟨⟨path, s, hshown, hresumed, _, hproc, hspent, hannounced⟩, hread⟩ := audit_file_survives hpaid (by decide) "i"
  obtain rfl : SETTLED = s := hsettled.symm.trans (hproc _ rfl)
  have hmem : SETTLED ∈ path := (List.mem_cons.mp hresumed.mem).resolve_left (by decide)
  have hlines : Sample.paidAgain.1.audit.read = Sample.paidAgain.1.audit.written := by
    refine hread ((((Sample.booted_startsOnNewLine.performs Sample.process _ _).snoc ?_).snoc ?_).snoc ?_)
    · nofun
    · intro _
      show Sample.killedPaying.audit.last = .blank
      decide
    · nofun
  refine ⟨htwice, path, SETTLED, hshown, hresumed, hsettled, hspent _ hmem (by decide), ?_⟩
  rw [hlines]
  exact htwice ▸ hannounced

end HermesPayments
