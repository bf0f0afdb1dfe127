import HermesPayments.Process.Faults
import HermesPayments.Process.Handlers

/-!
# `HermesPayments.Process.Contents` — what a process holds

A process holds records and messages in three places: in memory, in the snapshot it has read, and in the snapshot file.
`Contents` are two properties, one of a record and one of a message, and `Contents.frame` asserts them of all three. What
comes in comes in through a handler, so the contents are kept by a step if the call its command makes keeps them and what
its transport hands over has them (`Contents.Admits`): recovery only moves records from one place to another.
-/

namespace HermesPayments

open Lib PaymentState

/-- A property of the records, under their intent ids, and of the messages. -/
structure Contents where
  record  : String → SnapshotRecord → Prop
  message : PaymentMessage → Prop

namespace Contents

def OfOrchestrator (C : Contents) (o : PaymentOrchestrator) : Prop :=
  ∀ id r, o.record? id = some r → C.record id r.snapshot

def OfInbox (C : Contents) (messages : List PeerMessage) : Prop := ∀ m ∈ messages, C.message m.message

def OfSnapshot (C : Contents) (file : Option ProcessSnapshot) : Prop :=
  ∀ snap, file = some snap → (∀ id d, snap.records.get? id = some d → C.record id d) ∧ C.OfInbox snap.inbox

/-- The property of a record minds neither what a query finds nor that recovery moves the record on. -/
def Survives (C : Contents) : Prop :=
  ∀ id d state result, C.record id d → (state = d.state ∨ d.state = EXECUTING ∧ state = RECONCILIATION_REQUIRED) →
    C.record id { d with state := state, reconciliation := result }

/-- What a process in this state holds has the properties, wherever it holds it. -/
structure OfState (C : Contents) (s : ProcessState) : Prop where
  records : C.OfOrchestrator s.orchestrator
  inbox   : C.OfInbox s.inbox.messages
  file    : C.OfSnapshot s.file

def frame (C : Contents) : Frame :=
  ⟨fun w => C.OfSnapshot w.snapshot, fun s w => C.OfSnapshot w.snapshot ∧ C.OfState s, And.left⟩

/-- What a line may bring in has the properties. -/
structure Admits (C : Contents) (config : ProcessConfig) (penv : ProcessEnv) (s : ProcessState) (c : Command) : Prop where
  calls    : ∀ call o', c.Asks config penv s call.op → call.env = penv.env → Calls config.policy s.orchestrator call o' →
    (∀ w ∈ policyEffects call.effects, w ∈ ((handler config penv c).run s).effects) → C.OfOrchestrator o'
  receives : ∀ limit ms, c = .receive limit → penv.transport.receive limit = .ok ms → C.OfInbox ms

end Contents

section

variable {C : Contents} {config : ProcessConfig} {α : Type}

/-! ## The inbox -/

theorem Contents.OfInbox.add {b : Inbox} {m : PeerMessage} (hb : C.OfInbox b.messages) (hm : C.message m.message) :
    C.OfInbox (b.add m).messages := by
  unfold Inbox.add
  split
  · exact hb
  · intro x hx
    rcases List.mem_append.mp hx with hx | hx
    · exact hb x hx
    · rw [List.mem_singleton.mp hx]
      exact hm

theorem Contents.OfInbox.foldl_add {ms : List PeerMessage} {b : Inbox} (hb : C.OfInbox b.messages) (hms : C.OfInbox ms) :
    C.OfInbox (ms.foldl Inbox.add b).messages := by
  induction ms generalizing b with
  | nil => exact hb
  | cons m ms ih => exact ih (hb.add (hms m List.mem_cons_self)) fun x hx => hms x (List.mem_cons_of_mem _ hx)

theorem Contents.OfInbox.afterReceive {b : Inbox} {answer : Except Exc (List PeerMessage)} (hb : C.OfInbox b.messages)
    (hms : ∀ ms, answer = .ok ms → C.OfInbox ms) : C.OfInbox (b.afterReceive answer).messages := by
  cases answer with
  | error e => exact hb
  | ok ms =>
      intro x hx
      rcases (b.takeIn_spec ms).2.2 x hx with hold | hnew
      · exact hb x hold
      · exact hms ms rfl x hnew

/-! ## Calls and the snapshot -/

/-- The snapshot of a state holds what the state holds. -/
theorem Contents.OfState.snapshot {s : ProcessState} (h : C.OfState s) : C.OfSnapshot (some s.snapshot) := by
  rintro snap hsnap
  obtain rfl : s.snapshot = snap := Option.some.inj hsnap
  refine ⟨?_, h.inbox⟩
  intro id d hd
  rw [ProcessState.get?_snapshot] at hd
  obtain ⟨r, hr, rfl⟩ := Option.map_eq_some_iff.mp hd
  exact h.records id r hr

/-- A computation of the policy engine that keeps the records. -/
theorem contents_policy {m : Policy α} (hm : ∀ o, C.OfOrchestrator o → C.OfOrchestrator (m.run o).state) :
    C.frame.Keeps (Process.policy m) := by
  rintro s w ⟨hfile, hs⟩
  have hafter (es : List Effect) : C.OfSnapshot (w.after (policyEffects es)).snapshot := by
    have heq : policyEffects es = (es.map PeerEffect.policy).map ProcessEffect.peer := by
      rw [List.map_map]
      rfl
    rw [heq, w.after_peer _]
    exact hfile
  rw [run_process_policy]
  refine ⟨fun k => ?_, hafter _, hm _ hs.records, hs.inbox, hs.file⟩
  rw [← List.map_take]
  exact hafter _

theorem contents_snapshotState : C.frame.Keeps snapshotState := by
  refine Crash.of_effect (w := fun s => .snapshotSave s.snapshot) (fun s => by rw [run_snapshotState]) ?_
  rintro s w ⟨hfile, hs⟩
  rw [run_snapshotState]
  exact ⟨hfile, hs.snapshot, hs.snapshot, hs.records, hs.inbox, hs.snapshot⟩

/-- What a handler performs leaves the snapshot file alone. -/
theorem World.snapshot_after {es : List ProcessEffect} (hes : ∀ e ∈ es, e.Handled) (w : World) :
    (w.after es).snapshot = w.snapshot := by
  induction es generalizing w with
  | nil => rfl
  | cons e es ih =>
      rw [World.after, applyAll_cons]
      refine (ih (fun e' he' => hes e' (List.mem_cons_of_mem _ he')) _).trans ?_
      rcases hes e List.mem_cons_self with ⟨effect, rfl⟩ | ⟨ref, amount, rfl⟩ | ⟨m, rfl⟩
      · exact w.after_peer [effect]
      · rfl
      · rfl

/-! ## One record of a call -/

/-- A record after a call was submitted by it, or is what it made of the record before. -/
theorem Calls.record_source {cfg : Config} {o o' : PaymentOrchestrator} {c : Call} (h : Calls cfg o c o') {id : String}
    {r' : IntentRecord} (hr' : o'.record? id = some r') :
    (∃ i : PaymentIntent, c.op = .submit i ∧ i.id = id ∧ r' = PaymentOrchestrator.submittedRecord i) ∨
      ∃ r, o.record? id = some r ∧ RecordStep c.env c.effects c.op c.result id r r' := by
  have hchange := h.step.change id
  rw [hr'] at hchange
  generalize hro : o.record? id = ro at hchange
  cases hchange with
  | @created i _ hop hid _ _ _ _ => exact .inl ⟨i, hop, hid, rfl⟩
  | @changed r _ hrec => exact .inr ⟨r, rfl, hrec⟩

/-- What a query does to a record. -/
theorem RecordStep.queried {env : Env} {es : List Effect} {op : Op} {res : Except Exc Answer} {id id' : String}
    {r r' : IntentRecord} (h : RecordStep env es op res id r r') (hop : op = .reconcileSettlement id') :
    ∃ result, r'.snapshot = { r.snapshot with state := r.state, reconciliation := result } := by
  cases h with
  | kept => exact ⟨r.reconciliation, rfl⟩
  | reconciled _ => exact ⟨_, rfl⟩
  | _ => cases hop

/-! ## Recovery -/

section Recovery

variable (hsurvives : C.Survives)

include hsurvives

/-- A query changes only what it found. -/
theorem Contents.Survives.reconcile (env : Env) (id : String) :
    C.frame.Keeps (Process.policy (reconcileSettlement config.policy env id)) := by
  refine contents_policy fun o ho => ?_
  have hcalls : Calls config.policy o ⟨.reconcileSettlement id, env, _, _⟩ _ :=
    calls_of_run (g := Answer.reconciled) rfl o
  intro j r' hr'
  rcases hcalls.record_source hr' with ⟨i, hop, _⟩ | ⟨r, hr, hrec⟩
  · cases hop
  · obtain ⟨result, hparts⟩ := hrec.queried rfl
    rw [hparts]
    exact hsurvives j r.snapshot r.state result (ho j r hr) (.inl rfl)

theorem Contents.Survives.recoverRecord (env : Env) (reconcile : Bool) {id : String} {d : SnapshotRecord}
    (hd : C.record id d) : C.frame.Keeps (recoverRecord config env reconcile id d) := by
  rw [recoverRecord_eq]
  have hassign : C.frame.Keeps
      (Process.policy (Proc.modify fun o => { o with intents := o.intents.set id d.recovered })) := by
    refine contents_policy fun o ho j r hr => ?_
    have hset : (o.intents.set id d.recovered).get? j = some r := hr
    by_cases hj : j = id
    · subst hj
      rw [Dict.get?_set_self] at hset
      obtain rfl : d.recovered = r := Option.some.inj hset
      refine hsurvives j d _ d.reconciliation hd ?_
      by_cases hexec : d.state = EXECUTING
      · exact .inr ⟨hexec, if_pos hexec⟩
      · exact .inl (if_neg hexec)
    · rw [Dict.get?_set_ne _ _ hj] at hset
      exact ho j r hset
  have hput : C.frame.Keeps (putBack config env reconcile id d.recovered) := by
    refine hassign.bind fun _ => ?_
    exact .ite (.respond (hsurvives.reconcile env id) fun _ => Proc.Still.pure _) (.still (Proc.Still.pure _))
  refine .ite (Frame.Keeps.bind ?_ fun _ => hput) hput
  refine contents_policy fun o ho => ?_
  rw [run_audit]
  exact ho

theorem Contents.Survives.recoverRecords (env : String → Env) (reconcile : Bool)
    {entries : List (String × SnapshotRecord)} (hentries : ∀ e ∈ entries, C.record e.1 e.2) :
    C.frame.Keeps (recoverRecords config env reconcile entries) := by
  induction entries with
  | nil => exact .still (Proc.Still.pure _)
  | cons e rest ih =>
      refine (hsurvives.recoverRecord (env e.1) reconcile (hentries e List.mem_cons_self)).bind fun _ => ?_
      exact ih fun e he => hentries e (List.mem_cons_of_mem _ he)

/-- **Recovery** brings the records and messages of the snapshot back, and no others. -/
theorem Contents.Survives.maybeRecover (env : String → Env) (reconcile : Bool) :
    C.frame.Keeps (maybeRecover config env reconcile) := by
  rw [HermesPayments.maybeRecover]
  refine Crash.get_bind fun s₀ => ?_
  cases hfile : s₀.file with
  | none => exact (Frame.Keeps.still (Proc.Still.pure _)).pre fun _ _ h => h.2
  | some snap =>
      rintro s w ⟨rfl, hholds⟩
      obtain ⟨hrecords, hinbox⟩ := hholds.2.file snap hfile
      have hloop : C.frame.Keeps (HermesPayments.recoverRecords config env reconcile snap.records.entries) :=
        hsurvives.recoverRecords env reconcile fun e he => hrecords e.1 e.2 (Dict.get?_of_mem he)
      refine (hloop.bind fun _ => Frame.Keeps.bind ?_ fun _ => .ite contents_snapshotState (.still (Proc.Still.pure _)))
        s w hholds
      exact Crash.modify fun s w h => ⟨h.1, h.1, h.2.records, h.2.inbox.foldl_add hinbox, h.2.file⟩

theorem Contents.Survives.recoverLoop (penv : ProcessEnv) (maxWait : Rat) (pass : RecoveryPass) (rest : List RecoveryPass) :
    C.frame.Keeps (recoverLoop config penv maxWait pass rest) := by
  induction rest generalizing pass with
  | nil =>
      rw [HermesPayments.recoverLoop]
      refine .respond (hsurvives.maybeRecover _ true) fun _ => Proc.Still.get.bind fun _ => ?_
      exact Proc.Still.ite (Proc.Still.pure _) (Proc.Still.pure _)
  | cons next rest ih =>
      rw [HermesPayments.recoverLoop]
      refine (hsurvives.maybeRecover _ true).bind fun _ => (Frame.Keeps.still Proc.Still.get).bind fun _ => ?_
      exact .ite (.still (Proc.Still.pure _)) (ih next)

theorem Contents.Survives.handleRecover (penv : ProcessEnv) (maxWait pollInterval : Option PyFloat) :
    C.frame.Keeps (handleRecover config penv maxWait pollInterval) := by
  unfold HermesPayments.handleRecover
  split
  · split
    · exact .still (Proc.Still.raise _)
    · exact .still (Proc.Still.raise _)
    · exact .respond (hsurvives.recoverLoop penv _ _ _) fun _ => Proc.Still.get.bind fun _ => Proc.Still.pure _
  · exact .still (Proc.Still.raise _)

/-! ## Lines -/

/-- A handler that is cut short leaves no more in the file than was there. -/
theorem Contents.Survives.handler_cut {penv : ProcessEnv} {s : ProcessState} {w : World} (c : Command)
    (hholds : C.frame.holds s w) (k : Nat) :
    C.frame.crash (w.after (((handler config penv c).run s).effects.take k)) := by
  by_cases hrecover : ∃ maxWait pollInterval, c = .recover maxWait pollInterval
  · obtain ⟨maxWait, pollInterval, rfl⟩ := hrecover
    exact (hsurvives.handleRecover penv maxWait pollInterval s w hholds).1 k
  · have hstep : HandlerStep config penv s c _ _ := handler_step config penv s c
    show C.OfSnapshot (w.after _).snapshot
    rw [World.snapshot_after fun e he => hstep.effects (fun a b h => hrecover ⟨a, b, h⟩) e (List.mem_of_mem_take he)]
    exact hholds.1

/-- **A handler** keeps the contents that its command brings in. -/
theorem Contents.Admits.handler {penv : ProcessEnv} {s : ProcessState} {w : World} {c : Command}
    (hadmits : C.Admits config penv s c) (hholds : C.frame.holds s w) :
    C.frame.holds ((handler config penv c).run s).state (w.after ((handler config penv c).run s).effects) := by
  by_cases hrecover : ∃ maxWait pollInterval, c = .recover maxWait pollInterval
  · obtain ⟨maxWait, pollInterval, rfl⟩ := hrecover
    exact (hsurvives.handleRecover penv maxWait pollInterval s w hholds).2
  have hfile : C.frame.crash (w.after (((HermesPayments.handler config penv c).run s).effects.take _)) :=
    hsurvives.handler_cut c hholds ((HermesPayments.handler config penv c).run s).effects.length
  rw [List.take_length] at hfile
  refine ⟨hfile, ?_⟩
  have hstep : HandlerStep config penv s c _ _ := handler_step config penv s c
  have hcalls := hadmits.calls
  have hs := hholds.2
  generalize ((HermesPayments.handler config penv c).run s).state = s' at hstep ⊢
  generalize ((HermesPayments.handler config penv c).run s).effects = es at hstep hcalls
  cases hstep with
  | idle _ | published _ _ | unverified => exact hs
  | received => exact ⟨hs.records, hs.inbox.afterReceive fun ms hms => hadmits.receives _ ms rfl hms, hs.file⟩
  | called _ hasks henv hcall =>
      exact ⟨hcalls _ _ hasks henv hcall fun _ h => List.mem_append_right _ h, hs.inbox, hs.file⟩
  | submitted hlocal hop henv _ hcall =>
      exact ⟨hcalls _ _ (hop ▸ .submitIntent hlocal) henv hcall fun _ h => List.mem_append_left _ h, hs.inbox, hs.file⟩
  | recovered => exact absurd ⟨_, _, rfl⟩ hrecover

/-- A line that is cut short before the snapshot is written brings in nothing, and one that is not brings in what its
    command does. -/
theorem Contents.Survives.handle {penv : ProcessEnv} {s : ProcessState} {w : World} {parsed : Except Exc Command}
    (hholds : C.frame.holds s w) :
    (∀ k, k < (s.handle config penv parsed).effects.length →
      C.frame.crash (w.after ((s.handle config penv parsed).effects.take k))) ∧
    ((∀ c, parsed = .ok c → C.Admits config penv s c) →
      C.frame.holds (s.handle config penv parsed).state (w.after (s.handle config penv parsed).effects)) := by
  cases parsed with
  | error e =>
      refine ⟨fun k hk => ?_, fun _ => hholds⟩
      cases hk
  | ok c =>
      obtain ⟨hline, heffects⟩ := handle_eq config penv s c
      rw [hline, heffects]
      constructor
      · intro k hk
        have hle : k ≤ ((HermesPayments.handler config penv c).run s).effects.length := by
          rw [List.length_append, List.length_singleton] at hk
          omega
        rw [List.take_append_of_le_length hle]
        exact hsurvives.handler_cut c hholds k
      · intro hadmits
        have hafter := contents_snapshotState _ _ ((hadmits c rfl).handler hsurvives hholds)
        rw [run_snapshotState] at hafter
        rw [World.after, applyAll_append]
        exact hafter.2

/-- A start, cut short anywhere, brings in nothing. -/
theorem Contents.Survives.start {w : World} (pass : StartPass) (hw : C.frame.crash w) :
    (∀ k, C.frame.crash (w.after ((w.start config pass).effects.take k))) ∧
      C.frame.holds (w.start config pass).state (w.after (w.start config pass).effects) := by
  refine hsurvives.maybeRecover pass.env true w.boot w ⟨hw, ?_, fun m hm => absurd hm List.not_mem_nil, hw⟩
  intro id r hr
  cases hr

end Recovery

/-! ## Nodes -/

/-- A node and the process over it hold only what has the properties. -/
def Contents.OfNode (C : Contents) (n : Node) : Prop := C.frame.Covers n

/-- Properties that are weaker hold as well. -/
theorem Contents.OfNode.mono {C' : Contents} {n : Node} (hn : C.OfNode n) (hrecord : ∀ id d, C.record id d → C'.record id d)
    (hmessage : ∀ m, C.message m → C'.message m) : C'.OfNode n := by
  have hsnapshot {file : Option ProcessSnapshot} (h : C.OfSnapshot file) : C'.OfSnapshot file := fun snap hsnap =>
    ⟨fun id d hd => hrecord id d ((h snap hsnap).1 id d hd), fun m hm => hmessage _ ((h snap hsnap).2 m hm)⟩
  refine ⟨hsnapshot hn.1, fun s hs => ?_⟩
  obtain ⟨hfile, hstate⟩ := hn.2 s hs
  exact ⟨hsnapshot hfile, fun id r hr => hrecord id _ (hstate.records id r hr), fun m hm => hmessage _ (hstate.inbox m hm),
    hsnapshot hstate.file⟩

/-- What a step of a node may bring in; a command that is killed brings in nothing unless it was done. -/
def NodeEvent.Admits (C : Contents) (config : ProcessConfig) (n : Node) : NodeEvent → Prop
  | .handled penv parsed _ => ∀ s, n.proc = some s → ∀ c, parsed = .ok c → C.Admits config penv s c
  | .killed penv parsed performed => ∀ s, n.proc = some s → performed = (s.handle config penv parsed).effects →
      ∀ c, parsed = .ok c → C.Admits config penv s c
  | .started _ | .startCut _ _ => True

/-- **A step of a node** keeps the contents that it may bring in. -/
theorem NodeStep.contents {n n' : Node} {e : NodeEvent} (hstep : NodeStep config n e n') (hsurvives : C.Survives)
    (hadmits : e.Admits C config n) (hn : C.OfNode n) : C.OfNode n' := by
  cases hstep with
  | handled w s penv parsed =>
      have hafter := (hsurvives.handle (hn.2 s rfl)).2 (hadmits s rfl)
      refine ⟨hafter.1, fun s' hs' => ?_⟩
      obtain rfl : _ = s' := Option.some.inj hs'
      exact hafter
  | killed w s penv parsed c =>
      refine ⟨?_, fun s' hs' => ?_⟩
      · obtain ⟨audit, hworld⟩ := c.world_eq w (s.handle config penv parsed).effects
        show C.OfSnapshot (c.world w (s.handle config penv parsed).effects).snapshot
        rw [hworld]
        obtain ⟨hcrash, hafter⟩ := @Contents.Survives.handle _ config hsurvives penv s w parsed (hn.2 s rfl)
        by_cases hk : c.performed < (s.handle config penv parsed).effects.length
        · exact hcrash c.performed hk
        · have hall := List.take_of_length_le (Nat.not_lt.mp hk)
          show C.OfSnapshot (w.after ((s.handle config penv parsed).effects.take c.performed)).snapshot
          rw [hall]
          exact (hafter (hadmits s rfl hall)).1
      · cases hs'
  | started w pass _ _ =>
      obtain ⟨_, hafter⟩ := hsurvives.start pass hn.1
      refine ⟨hafter.1, fun s' hs' => ?_⟩
      obtain rfl : _ = s' := Option.some.inj hs'
      exact hafter
  | startCut w pass c _ =>
      refine ⟨?_, fun s' hs' => ?_⟩
      · obtain ⟨audit, hworld⟩ := c.world_eq w (w.start config pass).effects
        show C.OfSnapshot (c.world w (w.start config pass).effects).snapshot
        rw [hworld]
        exact (hsurvives.start pass hn.1).1 c.performed
      · cases hs'

end

end HermesPayments
