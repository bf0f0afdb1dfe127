import HermesPayments.Process.Mail
import HermesPayments.Process.Runs

/-!
# `HermesPayments.Process.Faults` — a process whose writes may fail

Beside the commands of its lines, the policy engine of a process can be called by its operator, who alone has
`confirm_settled`; and a write of the store or of the snapshot may fail. A store write that fails is one of the call's
environment: a command whose store write fails is the call it makes, the exception passes through the handler. A
snapshot write that fails leaves the file as it was. Kills and starts are those of a `Node`. A step keeps a frame when
what it runs does (`FaultStep.covers`).
-/

namespace HermesPayments

open Lib PaymentState

/-- What a process is told to do: a line, or an operation of its policy engine. -/
inductive Activity where
  | line (penv : ProcessEnv) (parsed : Except Exc Command)
  | call (env : Env) (op : Op)

section

variable (config : ProcessConfig)

/-- What runs before the snapshot is written. -/
def Activity.body : Activity → Process Unit
  | .line _ (.error e) => Proc.raise e
  | .line penv (.ok command) => do let _ ← handler config penv command
  | .call env op => do let _ ← Process.policy (HermesPayments.call config.policy env op)

/-- The activity, after which the snapshot is `written` or not: its write fails, or it is not attempted. -/
def Activity.run (written : Bool) (a : Activity) : Process Unit :=
  Proc.tryFinally (a.body config) (if written then snapshotState else pure ())

/-- What is observed of a step. -/
inductive FaultEvent where
  | performed (activity : Activity) (written : Bool)
  /-- The process is killed after it has performed some effects of an activity. -/
  | killed (activity : Activity) (written : Bool) (performed : List ProcessEffect)
  | started (pass : StartPass)
  /-- A start is cut short, by a kill, a write that fails or another exception. -/
  | startCut (pass : StartPass) (performed : List ProcessEffect)

/-- What the process was told to do in a step. -/
def FaultEvent.activity? : FaultEvent → Option Activity
  | .performed activity _ | .killed activity _ _ => some activity
  | .started _ | .startCut _ _ => none

/-- The steps of a node whose writes may fail. -/
inductive FaultStep : Node → FaultEvent → Node → Prop
  | performed (w : World) (s : ProcessState) (a : Activity) (written : Bool) :
      FaultStep ⟨w, some s⟩ (.performed a written)
        ⟨w.after ((a.run config written).run s).effects, some ((a.run config written).run s).state⟩
  | killed (w : World) (s : ProcessState) (a : Activity) (written : Bool) (c : Cut) :
      FaultStep ⟨w, some s⟩ (.killed a written (((a.run config written).run s).effects.take c.performed))
        ⟨c.world w ((a.run config written).run s).effects, none⟩
  | started (w : World) (pass : StartPass) (hopens : w.audit.opens = true)
      (hok : (w.start config pass).result = .ok ()) :
      FaultStep ⟨w, none⟩ (.started pass)
        ⟨w.after (w.start config pass).effects, some (w.start config pass).state⟩
  | startCut (w : World) (pass : StartPass) (c : Cut) (hopens : w.audit.opens = true) :
      FaultStep ⟨w, none⟩ (.startCut pass ((w.start config pass).effects.take c.performed))
        ⟨c.world w (w.start config pass).effects, none⟩

/-- The runs of a node whose writes may fail. -/
abbrev FaultRun (h : List (Event Node FaultEvent)) (n : Node) : Prop := Run NodeInit (FaultStep config) h n

/-- Without a failing write a line is handled as `handle_line` does. -/
theorem run_line (penv : ProcessEnv) (command : Command) (s : ProcessState) :
    let out := ((Activity.line penv (.ok command)).run config true).run s
    out.state = (s.handle config penv (.ok command)).state ∧ out.effects = (s.handle config penv (.ok command)).effects := by
  intro out
  rcases hrun : (handler config penv command).run s with ⟨res, s', es⟩
  obtain ⟨heffects, hstate⟩ := Proc.run_map (handler config penv command) (fun _ => ()) s
  rw [hrun] at heffects hstate
  have hout : out = (Proc.tryFinally (handler config penv command >>= fun _ => pure ()) snapshotState).run s := rfl
  rw [hout, Proc.run_tryFinally (run_snapshotState _), run_handleLine hrun, heffects, hstate]
  exact ⟨rfl, rfl⟩

/-! ## Frames -/

variable {config} {F : Frame}

/-- What an activity does with a frame, from what its body does and the write of the snapshot. -/
theorem Activity.crash {P : ProcessState → World → Prop} {a : Activity}
    (hbody : Crash World.apply F.crash P (a.body config) (fun _ => F.holds)) (hsnapshot : F.Keeps snapshotState)
    (written : Bool) : Crash World.apply F.crash P (a.run config written) (fun _ => F.holds) := by
  refine Crash.tryFinally hbody ?_
  cases written with
  | false => exact Frame.Keeps.still (Proc.Still.pure _)
  | true => exact hsnapshot

/-- The frame holds of a node: of its files, and of its process if one runs. -/
def Frame.Covers (F : Frame) (n : Node) : Prop := F.crash n.world ∧ ∀ s, n.proc = some s → F.holds s n.world

/-- **A step keeps a frame** that the activity, or the start, of the step keeps. -/
theorem FaultStep.covers {n n' : Node} {i : FaultEvent} (hstep : FaultStep config n i n')
    (haudit : ∀ w audit, audit.written = w.audit.written → F.crash w → F.crash { w with audit := audit })
    (hactivity : ∀ w s a written, n = ⟨w, some s⟩ → i.activity? = some a →
      (∀ k, F.crash (w.after (((a.run config written).run s).effects.take k))) ∧
        F.holds ((a.run config written).run s).state (w.after ((a.run config written).run s).effects))
    (hstart : ∀ w pass, n = ⟨w, none⟩ → w.audit.opens = true →
      (∀ k, F.crash (w.after ((w.start config pass).effects.take k))) ∧
        F.holds (w.start config pass).state (w.after (w.start config pass).effects)) : F.Covers n' := by
  -- a cut leaves what some of the effects leave, and perhaps a line that is not ended
  have hcutAt {w : World} {es : List ProcessEffect} (c : Cut) (hcut : ∀ k, F.crash (w.after (es.take k))) :
      F.crash (c.world w es) := by
    obtain ⟨k, audit, hworld, hwritten⟩ := c.world_written w es
    rw [hworld]
    exact haudit _ _ hwritten (hcut k)
  cases hstep with
  | performed w s a written =>
      obtain ⟨_, hholds⟩ := hactivity w s a written rfl rfl
      refine ⟨F.sound hholds, ?_⟩
      rintro s' ⟨rfl⟩
      exact hholds
  | killed w s a written c =>
      obtain ⟨hcut, _⟩ := hactivity w s a written rfl rfl
      exact ⟨hcutAt c hcut, nofun⟩
  | started w pass hopens hok =>
      obtain ⟨_, hholds⟩ := hstart w pass rfl hopens
      refine ⟨F.sound hholds, ?_⟩
      rintro s' ⟨rfl⟩
      exact hholds
  | startCut w pass c hopens =>
      obtain ⟨hcut, _⟩ := hstart w pass rfl hopens
      exact ⟨hcutAt c hcut, nofun⟩

/-! ## The audit file -/

/-- No process is started over an audit file whose last line has no newline. -/
def StartsOnNewLine (h : List (Event Node FaultEvent)) : Prop :=
  ∀ e ∈ h, e.before.proc = none → e.before.world.audit.last = .blank

theorem StartsOnNewLine.snoc {h : List (Event Node FaultEvent)} (hstarts : StartsOnNewLine h) {e : Event Node FaultEvent}
    (he : e.before.proc = none → e.before.world.audit.last = .blank) : StartsOnNewLine (h ++ [e]) := by
  intro e' he'
  rcases List.mem_append.mp he' with he' | he'
  · exact hstarts e' he'
  · rw [List.mem_singleton.mp he']
    exact he

/-- Each entry has a line of its own, and a process that runs can be started again. -/
structure Node.Audited (n : Node) : Prop where
  read   : n.world.audit.read = n.world.audit.written
  intact : ∀ s, n.proc = some s → n.world.audit.Intact

theorem FaultStep.audited {n n' : Node} {i : FaultEvent} (hstep : FaultStep config n i n') (hn : n.Audited)
    (hstart : n.proc = none → n.world.audit.last = .blank) : n'.Audited := by
  have hrunning {w : World} {s : ProcessState} (es : List ProcessEffect) (h : w.audit.Intact) :
      Node.Audited ⟨w.after es, some s⟩ := by
    have hafter := World.intact_after h es
    exact ⟨AuditFile.read_of_opens hafter.opens, fun _ _ => hafter⟩
  cases hstep with
  | performed w s a written => exact hrunning _ (hn.intact s rfl)
  | killed w s a written c => exact ⟨c.read_eq_written (hn.intact s rfl) _, nofun⟩
  | started w pass hopens hok => exact hrunning _ ⟨hopens, hstart rfl⟩
  | startCut w pass c hopens => exact ⟨c.read_eq_written ⟨hopens, hstart rfl⟩ _, nofun⟩

/-- **The audit file stays readable** as long as every start finds its last line ended. -/
theorem FaultRun.audited {h : List (Event Node FaultEvent)} {n : Node} (hrun : FaultRun config h n)
    (hstarts : StartsOnNewLine h) : n.Audited := by
  have hguarded : Run NodeInit
      (fun n i n' => FaultStep config n i n' ∧ (n.proc = none → n.world.audit.last = .blank)) h n :=
    hrun.guarded hstarts
  refine hguarded.invariant ?_ fun n i n' hn hstep => hstep.1.audited hn hstep.2
  rintro n rfl
  exact ⟨rfl, nofun⟩

variable (config)

/-! ## Activities in a row -/

/-- The world and the process that a list of activities leads to. -/
def performs : World × ProcessState → List (Activity × Bool) → World × ProcessState
  | n, [] => n
  | (w, s), (a, written) :: rest =>
      let out := (a.run config written).run s
      performs (w.after out.effects, out.state) rest

/-- The history they leave. -/
def performsHistory : World × ProcessState → List (Activity × Bool) → List (Event Node FaultEvent)
  | _, [] => []
  | (w, s), (a, written) :: rest =>
      let out := (a.run config written).run s
      let n := (w.after out.effects, out.state)
      ⟨⟨w, some s⟩, .performed a written, ⟨n.1, some n.2⟩⟩ :: performsHistory n rest

theorem FaultRun.performs {h : List (Event Node FaultEvent)} {w : World} {s : ProcessState}
    (hrun : FaultRun config h ⟨w, some s⟩) (as : List (Activity × Bool)) :
    FaultRun config (h ++ performsHistory config (w, s) as)
      ⟨(HermesPayments.performs config (w, s) as).1, some (HermesPayments.performs config (w, s) as).2⟩ := by
  induction as generalizing h w s with
  | nil =>
      rw [performsHistory, List.append_nil]
      exact hrun
  | cons entry rest ih =>
      obtain ⟨a, written⟩ := entry
      have hrest := ih (hrun.snoc (FaultStep.performed w s a written))
      rw [List.append_assoc] at hrest
      exact hrest

/-- No process is started where one runs. -/
theorem StartsOnNewLine.performs {h : List (Event Node FaultEvent)} (hstarts : StartsOnNewLine h)
    (n : World × ProcessState) (as : List (Activity × Bool)) : StartsOnNewLine (h ++ performsHistory config n as) := by
  have hrunning : ∀ e ∈ performsHistory config n as, e.before.proc ≠ none := by
    induction as generalizing n with
    | nil => exact fun e he => absurd he List.not_mem_nil
    | cons entry rest ih =>
        rw [performsHistory]
        exact List.forall_mem_cons.mpr ⟨Option.some_ne_none n.2, ih _⟩
  intro e he hnone
  rcases List.mem_append.mp he with he | he
  · exact hstarts e he hnone
  · exact absurd hnone (hrunning e he)

end

namespace Sample

theorem booted_faultRun : FaultRun process [⟨⟨.empty, none⟩, .started pass, ⟨booted.1, some booted.2⟩⟩]
    ⟨booted.1, some booted.2⟩ := by
  have hempty : FaultRun process [] ⟨.empty, none⟩ := .nil rfl
  exact hempty.snoc (.started World.empty pass rfl rfl)

theorem booted_startsOnNewLine :
    StartsOnNewLine [⟨⟨.empty, none⟩, .started pass, ⟨booted.1, some booted.2⟩⟩] := by
  intro e he _
  rw [List.mem_singleton.mp he]
  rfl

/-- The policy engine is called by the operator, and the snapshot written. -/
def calls (ops : List (Op × Env)) : List (Activity × Bool) := ops.map fun (op, env) => (.call env op, true)

end Sample

end HermesPayments
