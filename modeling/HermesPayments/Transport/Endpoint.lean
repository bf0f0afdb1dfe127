import HermesPayments.Process.Mail
import HermesPayments.Process.Runs
import HermesPayments.Transport.Receive

/-!
# `HermesPayments.Transport.Endpoint` — a process over a Buzz transport

Two components make delivery durable. The transport replaces its cursor file while it reads the relay, and the process
replaces its snapshot when the command ends. An `Endpoint` is both, with the relay they read and a clock that does not run
backwards. A command performs its effects in one order, the transport's where the process reads it (`interleave`), and
a kill leaves a prefix of them.
-/

namespace HermesPayments

open Lib BuzzTransport

/-! ## The disk -/

/-- What the outside sees of an endpoint. -/
inductive EndpointEffect where
  | process (effect : ProcessEffect)
  | transport (effect : TransportEffect)
deriving DecidableEq

/-- What survives a kill: the files of the process, and the cursor file with the ids it keeps. -/
structure Disk where
  world  : World
  cursor : Option (List String)

/-- What a transport has seen that starts over a cursor file of these ids. -/
def cursorSeen (cursor : Option (List String)) : Finset String := (cursor.getD []).toFinset

/-- It reads them from the text of the file. -/
theorem loadCursor_eq_cursorSeen {rt : Runtime} {cursor : Option (List String)}
    (hlimit : ∀ ids, cursor = some ids → rt.limit (cursorText ids) = none) :
    loadCursor rt (cursor.map cursorText) = .ok (cursorSeen cursor) := by
  cases cursor with
  | none     => rfl
  | some ids => exact loadCursor_cursorText (hlimit ids rfl)

namespace Disk

def apply (d : Disk) : EndpointEffect → Disk
  | .process effect => { d with world := d.world.apply effect }
  | .transport (.cursorSave eventIds) => { d with cursor := some eventIds }
  | .transport (.get _) => d

/-- The disk after a list of effects. -/
abbrev after (d : Disk) (es : List EndpointEffect) : Disk := applyAll apply d es

/-- The disk a kill leaves after some of the effects, with part of the audit line that comes next, if one does. -/
def cut (d : Disk) (es : List EndpointEffect) (k : Nat) (left : Remnant) : Disk :=
  let d' := d.after (es.take k)
  match es[k]? with
  | some (.process (.peer (.policy (.auditAppend entry)))) =>
      { d' with world := { d'.world with audit := d'.world.audit.cut entry left } }
  | _ => d'

/-- Only the audit file tells a cut within an append. -/
theorem cut_eq (d : Disk) (es : List EndpointEffect) (k : Nat) (left : Remnant) :
    ∃ audit, d.cut es k left =
      { d.after (es.take k) with world := { (d.after (es.take k)).world with audit := audit } } := by
  unfold cut
  split
  · exact ⟨_, rfl⟩
  · exact ⟨_, rfl⟩

/-- A kill between two effects. -/
@[simp] theorem cut_nothing (d : Disk) (es : List EndpointEffect) (k : Nat) : d.cut es k .nothing = d.after (es.take k) := by
  unfold cut
  split
  · rfl
  · rfl

end Disk

/-- The effects of a command, with those of the transport in the place where the process reads it. -/
def interleave (reads : List TransportEffect) (es : List ProcessEffect) : List EndpointEffect :=
  es.flatMap fun w => match w with
    | .peer (.receive _) => reads.map .transport
    | w => [.process w]

/-! ## Endpoints -/

/-- A disk with at most one process over it, the relay, and the latest reading of the clock. A process comes with the
    event ids its transport has seen. -/
structure Endpoint where
  disk  : Disk
  proc  : Option (ProcessState × Finset String)
  relay : List RawBuzzEvent
  now   : Int

/-- What the outside answers during one command. The transport in `process` stands aside for the Buzz transport. -/
structure EndpointEnv where
  process : ProcessEnv
  buzz    : BuzzEnv
  publish : String → Except String String

/-- A query is answered with all of the relay or fails, and files can be written. -/
def EndpointEnv.Reads (env : EndpointEnv) (relay : List RawBuzzEvent) : Prop :=
  (env.buzz.get none = .ok relay ∨ ∃ message, env.buzz.get none = .error message) ∧ env.buzz.saveFails = false

/-- The clock is read between two times. -/
def EndpointEnv.During (env : EndpointEnv) (now now' : Int) : Prop :=
  now ≤ now' ∧ ∀ event, now ≤ env.buzz.clock event ∧ env.buzz.clock event ≤ now'

/-- What is observed of a step. -/
inductive EndpointEvent where
  /-- Others publish. -/
  | published (events : List RawBuzzEvent)
  /-- A command is handled; it may end with an exception. -/
  | handled (env : EndpointEnv) (parsed : Except Exc Command) (result : Except Exc String)
  /-- The process is killed after it has performed some effects of a command. -/
  | killed (env : EndpointEnv) (parsed : Except Exc Command) (performed : List EndpointEffect)
  | started (pass : StartPass)
  /-- A start is cut short, by a kill or by an exception of the constructor. -/
  | startCut (pass : StartPass) (performed : List ProcessEffect)

section

variable (rt : Runtime) (buzz : BuzzConfig) (config : ProcessConfig)

/-- The outside as the process sees it. -/
def EndpointEnv.over (env : EndpointEnv) (seen : Finset String) : ProcessEnv :=
  { env.process with transport := BuzzTransport.peer rt buzz env.buzz env.publish seen }

/-- What a command makes of the transport: the ids seen after it, and its effects. -/
def transportRun (env : EndpointEnv) (seen : Finset String) : Except Exc Command → Finset String × List TransportEffect
  | .ok (.receive limit) =>
      let out := (BuzzTransport.receive rt buzz env.buzz limit).run seen
      (out.state, out.effects)
  | _ => (seen, [])

/-- One command, handled by a process over its transport. -/
def handleOver (env : EndpointEnv) (p : ProcessState × Finset String) (parsed : Except Exc Command) :
    Outcome EndpointEffect Exc (ProcessState × Finset String) String :=
  let out := p.1.handle config (env.over rt buzz p.2) parsed
  let reads := transportRun rt buzz env p.2 parsed
  ⟨out.result, (out.state, reads.1), interleave reads.2 out.effects⟩

/-- The steps of an endpoint, given what the outside may answer while the relay is as it is: published events have ids of
    their own, and a start reads the cursor file. -/
inductive EndpointStep (admits : EndpointEnv → List RawBuzzEvent → Prop) : Endpoint → EndpointEvent → Endpoint → Prop
  | published {c : Endpoint} (events : List RawBuzzEvent) (hnd : ((c.relay ++ events).map RawBuzzEvent.id).Nodup) :
      EndpointStep admits c (.published events) { c with relay := c.relay ++ events }
  | handled {d : Disk} {p : ProcessState × Finset String} {relay : List RawBuzzEvent} {now now' : Int}
      (env : EndpointEnv) (parsed : Except Exc Command) (hreads : admits env relay) (htime : env.During now now') :
      EndpointStep admits ⟨d, some p, relay, now⟩ (.handled env parsed (handleOver rt buzz config env p parsed).result)
        ⟨d.after (handleOver rt buzz config env p parsed).effects, some (handleOver rt buzz config env p parsed).state,
          relay, now'⟩
  | killed {d : Disk} {p : ProcessState × Finset String} {relay : List RawBuzzEvent} {now now' : Int}
      (env : EndpointEnv) (parsed : Except Exc Command) (hreads : admits env relay) (htime : env.During now now')
      (k : Nat) (left : Remnant) :
      EndpointStep admits ⟨d, some p, relay, now⟩
        (.killed env parsed ((handleOver rt buzz config env p parsed).effects.take k))
        ⟨d.cut (handleOver rt buzz config env p parsed).effects k left, none, relay, now'⟩
  | started {d : Disk} {relay : List RawBuzzEvent} {now : Int} (pass : StartPass)
      (hopens : d.world.audit.opens = true) (hok : (d.world.start config pass).result = .ok ()) :
      EndpointStep admits ⟨d, none, relay, now⟩ (.started pass)
        ⟨{ d with world := d.world.after (d.world.start config pass).effects },
          some ((d.world.start config pass).state, cursorSeen d.cursor), relay, now⟩
  | startCut {d : Disk} {relay : List RawBuzzEvent} {now : Int} (pass : StartPass) (c : Cut)
      (hopens : d.world.audit.opens = true) :
      EndpointStep admits ⟨d, none, relay, now⟩ (.startCut pass ((d.world.start config pass).effects.take c.performed))
        ⟨{ d with world := c.world d.world (d.world.start config pass).effects }, none, relay, now⟩

/-- A fresh state root without a cursor file, before anything is published. -/
def EndpointInit (c : Endpoint) : Prop := c.disk = ⟨.empty, none⟩ ∧ c.proc = none ∧ c.relay = []

/-- The runs of an endpoint whose queries are answered with all of the relay. -/
abbrev EndpointRun (h : List (Event Endpoint EndpointEvent)) (c : Endpoint) : Prop :=
  Run EndpointInit (EndpointStep rt buzz config EndpointEnv.Reads) h c

end

/-! ## The two files of a command -/

section

variable {d : Disk}

theorem after_transport (es : List TransportEffect) :
    (d.after (es.map .transport)).world = d.world := by
  induction es generalizing d with
  | nil => rfl
  | cons e es ih =>
      rw [List.map_cons, Disk.after, applyAll_cons]
      refine ih.trans ?_
      cases e <;> rfl

theorem interleave_read (reads : List TransportEffect) (limit : Option Int) (es : List ProcessEffect) :
    interleave reads (.peer (.receive limit) :: es) = reads.map .transport ++ interleave reads es := rfl

theorem interleave_other (reads : List TransportEffect) {w : ProcessEffect} (hw : ∀ limit, w ≠ .peer (.receive limit))
    (es : List ProcessEffect) : interleave reads (w :: es) = .process w :: interleave reads es := by
  unfold interleave
  rw [List.flatMap_cons]
  split
  · exact absurd rfl (hw _)
  · rfl

/-- All of the effects do to the files of the process what the process's own do. -/
theorem after_interleave (reads : List TransportEffect) (es : List ProcessEffect) :
    (d.after (interleave reads es)).world = d.world.after es := by
  induction es generalizing d with
  | nil => rfl
  | cons w es ih =>
      by_cases hread : ∃ limit, w = .peer (.receive limit)
      · obtain ⟨limit, rfl⟩ := hread
        rw [interleave_read, Disk.after, applyAll_append, ih, after_transport]
        rfl
      · rw [interleave_other reads fun limit h => hread ⟨limit, h⟩]
        exact ih

/-- … and a prefix of them what a prefix does. -/
theorem after_interleave_take (reads : List TransportEffect) (es : List ProcessEffect) (k : Nat) :
    ∃ j, (d.after ((interleave reads es).take k)).world = d.world.after (es.take j) := by
  induction es generalizing d k with
  | nil => exact ⟨0, by simp [interleave]⟩
  | cons w es ih =>
      by_cases hread : ∃ limit, w = .peer (.receive limit)
      · obtain ⟨limit, rfl⟩ := hread
        rw [interleave_read, List.take_append, Disk.after, applyAll_append, ← List.map_take]
        obtain ⟨j, hj⟩ := ih (d := d.after ((reads.take k).map .transport)) (k - (reads.map EndpointEffect.transport).length)
        rw [after_transport] at hj
        exact ⟨j + 1, hj⟩
      · rw [interleave_other reads fun limit h => hread ⟨limit, h⟩]
        cases k with
        | zero => exact ⟨0, rfl⟩
        | succ k =>
            obtain ⟨j, hj⟩ := ih (d := d.apply (.process w)) k
            exact ⟨j + 1, hj⟩

/-- Without the transport a command leaves the cursor file alone. -/
theorem cursor_interleave_nil (es : List ProcessEffect) (k : Nat) :
    (d.after ((interleave [] es).take k)).cursor = d.cursor := by
  have hall : ∀ x ∈ interleave [] es, ∃ w, x = .process w := by
    intro x hx
    obtain ⟨w, _, hx⟩ := List.mem_flatMap.mp hx
    split at hx
    · cases hx
    · exact ⟨_, List.mem_singleton.mp hx⟩
  have hkeep : ∀ xs : List EndpointEffect, (∀ x ∈ xs, ∃ w, x = .process w) → ∀ d : Disk, (d.after xs).cursor = d.cursor := by
    intro xs hxs
    induction xs with
    | nil => exact fun _ => rfl
    | cons x xs ih =>
        intro d
        obtain ⟨w, rfl⟩ := hxs x List.mem_cons_self
        exact ih (fun x hx => hxs x (List.mem_cons_of_mem _ hx)) _
  exact hkeep _ (fun x hx => hall x (List.mem_of_mem_take hx)) d

/-- The transport leaves the cursor file alone, or replaces it by the one it writes. -/
theorem cursor_transport {ids : List String} (es : List TransportEffect) (hes : ∀ ids', .cursorSave ids' ∈ es → ids' = ids) :
    (d.after (es.map .transport)).cursor = d.cursor ∨
      (d.after (es.map .transport)).cursor = some ids ∧ .cursorSave ids ∈ es := by
  induction es generalizing d with
  | nil => exact .inl rfl
  | cons e es ih =>
      rw [List.map_cons, Disk.after, applyAll_cons]
      have hrest := ih (d := d.apply (.transport e)) fun ids' h => hes ids' (List.mem_cons_of_mem _ h)
      rcases hrest with hsame | ⟨hsaved, hmem⟩
      · cases e with
        | get since => exact .inl hsame
        | cursorSave ids' =>
            obtain rfl := hes ids' List.mem_cons_self
            exact .inr ⟨hsame, List.mem_cons_self⟩
      · exact .inr ⟨hsaved, List.mem_cons_of_mem _ hmem⟩

end

/-! ## Soundness -/

section

variable {rt : Runtime} {buzz : BuzzConfig} {config : ProcessConfig} {w : World} {s : ProcessState}

/-- The files are in order, though a kill may have lost any dispatch. -/
abbrev World.Orderly (w : World) (proc : Option ProcessState) : Prop := Node.Sound (fun _ => True) ⟨w, proc⟩

theorem World.Orderly.mail (h : w.Orderly (some s)) : Mail w.inbox w.inbox s w := by
  obtain ⟨hready, hsynced⟩ := h
  refine ⟨hsynced.inbox.symm, ?_, rfl⟩
  rw [hready.file]
  rfl

theorem World.Orderly.nodup {proc : Option ProcessState} (h : w.Orderly proc) :
    (w.inbox.map PeerMessage.messageId).Nodup := (Node.Sound.durable h).inbox

theorem World.Orderly.handled (h : w.Orderly (some s)) (penv : ProcessEnv) (parsed : Except Exc Command) :
    (w.after (s.handle config penv parsed).effects).Orderly (some (s.handle config penv parsed).state) :=
  (NodeStep.handled w s penv parsed).sound h (fun _ h => h) fun _ _ => trivial

variable (config) in
theorem World.Orderly.killed (h : w.Orderly (some s)) (penv : ProcessEnv) (parsed : Except Exc Command) (j : Nat)
    (audit : AuditFile) :
    World.Orderly { w.after ((s.handle config penv parsed).effects.take j) with audit := audit } none := by
  obtain ⟨hready, hsynced⟩ := h
  have hcut := (crash_handleLine config penv parsed s ⟨w, none⟩ ⟨hready, hsynced⟩).1 j
  rw [Watched.applyAll_eq] at hcut
  exact hcut.cut audit (fun _ h => h) fun _ _ => trivial

end

end HermesPayments
