import HermesPayments.Lib.Simulation
import HermesPayments.Process.Contents
import Mathlib.Logic.Function.Basic

/-!
# `HermesPayments.Exchange` — processes that exchange messages

A payment takes two processes, and nothing but messages connects them. An `Exchange` is any number of nodes, each under a
configuration of its own, and a board that says what has been published. A party's transport hands out what is on the
board, in any order, any number of times or never; others publish there as well, under keys that are no party's.

The board is what a transport is for: messages may be late, lost or repeated, but not forged. A hub and a relay are no
boards, and each is shown to be seen as one (`Exchange.Hub`, `Exchange.Relay`). What a message or a record says about the
past of the other parties is stated over the history of a run: `Origin` is where a message came from.
-/

namespace HermesPayments

open Lib PaymentState

/-! ## One node -/

namespace NodeEvent

/-- The effects that the step has performed. -/
def performed (config : ProcessConfig) (n : Node) : NodeEvent → List ProcessEffect
  | .handled penv parsed _ => n.proc.elim [] fun s => (s.handle config penv parsed).effects
  | .killed _ _ performed | .startCut _ performed => performed
  | .started pass => (n.world.start config pass).effects

/-- The line that is handled in the step, to its end or until the process is killed. -/
def line? : NodeEvent → Option (ProcessEnv × Except Exc Command)
  | .handled penv parsed _ | .killed penv parsed _ => some (penv, parsed)
  | .started _ | .startCut _ _ => none

end NodeEvent

/-! ## Exchanges -/

structure Exchange (ι : Type) where
  board : List PaymentMessage
  nodes : ι → Node

/-- What is observed of a step. -/
inductive ExchangeEvent (ι : Type) where
  | party (p : ι) (event : NodeEvent)
  /-- Others than the parties publish. -/
  | others (messages : List PaymentMessage)

/-- The step of a party, if the event is one. -/
def ExchangeEvent.party? {ι : Type} : ExchangeEvent ι → Option (ι × NodeEvent)
  | .party p event => some (p, event)
  | .others _      => none

abbrev ExchangeHistory (ι : Type) := List (Event (Exchange ι) (ExchangeEvent ι))

section

variable {ι : Type} (config : ι → ProcessConfig)

/-- The transport hands out messages from the board. -/
def NodeEvent.ReadsFrom (board : List PaymentMessage) (e : NodeEvent) : Prop :=
  ∀ penv parsed, e.line? = some (penv, parsed) → ∀ limit ms, penv.transport.receive limit = .ok ms →
    ∀ m ∈ ms, m.message ∈ board

/-- No party has the key the message is authored under. -/
def Outside (m : PaymentMessage) : Prop := ∀ p, (messageAuthor m).pubkey ≠ (config p).identity.pubkey

/-- The steps of an exchange. -/
inductive ExchangeStep [DecidableEq ι] : Exchange ι → ExchangeEvent ι → Exchange ι → Prop
  | party {x : Exchange ι} {p : ι} {e : NodeEvent} {n' : Node} (hstep : NodeStep (config p) (x.nodes p) e n')
      (hreads : e.ReadsFrom x.board) :
      ExchangeStep x (.party p e)
        ⟨x.board ++ sends (e.performed (config p) (x.nodes p)), Function.update x.nodes p n'⟩
  | others {x : Exchange ι} {ms : List PaymentMessage} (houtside : ∀ m ∈ ms, Outside config m) :
      ExchangeStep x (.others ms) ⟨x.board ++ ms, x.nodes⟩

/-- Fresh state roots, before anything is published. -/
def ExchangeInit (x : Exchange ι) : Prop := x.board = [] ∧ ∀ p, NodeInit (x.nodes p)

/-- The runs of an exchange. -/
abbrev ExchangeRun [DecidableEq ι] (h : ExchangeHistory ι) (x : Exchange ι) : Prop := Run ExchangeInit (ExchangeStep config) h x

/-! ## The past of an exchange -/

/-- A party handles a command in the event, from a state. -/
def Handling (e : Event (Exchange ι) (ExchangeEvent ι)) (p : ι) (s : ProcessState) (penv : ProcessEnv) (c : Command) : Prop :=
  (e.before.nodes p).proc = some s ∧ ∃ event, e.seen = .party p event ∧ event.line? = some (penv, .ok c)

/-- A party has been given the command. -/
def Told (h : ExchangeHistory ι) (p : ι) (c : Command) : Prop := ∃ e ∈ h, ∃ s penv, Handling e p s penv c

/-- A party has performed the effect. -/
def Performed (h : ExchangeHistory ι) (p : ι) (w : ProcessEffect) : Prop :=
  ∃ e ∈ h, ∃ event, e.seen = .party p event ∧ w ∈ event.performed (config p) (e.before.nodes p)

/-- … the policy engine of a party. -/
abbrev PolicyPerformed (h : ExchangeHistory ι) (p : ι) (w : Effect) : Prop := Performed config h p (.peer (.policy w))

/-- Where a message comes from: a party that has its author's key has sent it in a command that publishes it, or nobody
    has that key and others have published it. -/
inductive Origin (h : ExchangeHistory ι) (m : PaymentMessage) : Prop
  | party {e : Event (Exchange ι) (ExchangeEvent ι)} {p : ι} {s : ProcessState} {penv : ProcessEnv} {c : Command}
      (he : e ∈ h) (hhandling : Handling e p s penv c) (hpublishes : c.Publishes (config p) penv s m)
  | others (houtside : Outside config m)

end

section

variable {ι : Type} {config : ι → ProcessConfig} {h : ExchangeHistory ι}
  {e : Event (Exchange ι) (ExchangeEvent ι)}

/-! ## The past only grows -/

theorem Told.snoc {p : ι} {c : Command} (ht : Told h p c) : Told (h ++ [e]) p c := by
  obtain ⟨e', he', ht⟩ := ht
  exact ⟨e', List.mem_append_left _ he', ht⟩

theorem Performed.snoc {p : ι} {w : ProcessEffect} (hp : Performed config h p w) : Performed config (h ++ [e]) p w := by
  obtain ⟨e', he', hp⟩ := hp
  exact ⟨e', List.mem_append_left _ he', hp⟩

theorem Origin.snoc {m : PaymentMessage} (ho : Origin config h m) : Origin config (h ++ [e]) m := by
  cases ho with
  | party he hhandling hpublishes => exact .party (List.mem_append_left _ he) hhandling hpublishes
  | others houtside => exact .others houtside

/-- The author's key is that of the party, or of no party. -/
theorem Origin.author {m : PaymentMessage} (ho : Origin config h m) :
    (∃ p, (messageAuthor m).pubkey = (config p).identity.pubkey) ∨ Outside config m := by
  cases ho with
  | party _ _ hpublishes => exact .inl ⟨_, hpublishes.author⟩
  | others houtside => exact .inr houtside

/-! ## What a party does -/

/-- An effect that recovery does not have, a step performs in a command. -/
theorem NodeStep.handles {config : ProcessConfig} {n n' : Node} {e : NodeEvent} (hstep : NodeStep config n e n')
    {w : ProcessEffect} (hw : w ∈ e.performed config n) (hactive : w.readOnly = false) :
    ∃ s penv c, n.proc = some s ∧ e.line? = some (penv, .ok c) ∧ w ∈ ((handler config penv c).run s).effects := by
  have hline {s : ProcessState} {penv : ProcessEnv} {parsed : Except Exc Command}
      (hw : w ∈ (s.handle config penv parsed).effects) :
      ∃ c, parsed = .ok c ∧ w ∈ ((handler config penv c).run s).effects := by
    cases parsed with
    | error x => cases hw
    | ok c =>
        refine ⟨c, rfl, ?_⟩
        rw [(handle_eq config penv s c).2] at hw
        rcases List.mem_append.mp hw with hw | hw
        · exact hw
        · rw [List.mem_singleton.mp hw] at hactive
          cases hactive
  have hrecovery {world : World} {pass : StartPass} (hw : w ∈ (world.start config pass).effects) : False := by
    rw [readOnly_maybeRecover _ _ _ w hw] at hactive
    cases hactive
  cases hstep with
  | handled _ s penv parsed =>
      obtain ⟨c, rfl, hc⟩ := hline hw
      exact ⟨s, penv, c, rfl, rfl, hc⟩
  | killed _ s penv parsed cut =>
      obtain ⟨c, rfl, hc⟩ := hline (List.mem_of_mem_take hw)
      exact ⟨s, penv, c, rfl, rfl, hc⟩
  | started _ pass _ _ => exact absurd hw hrecovery
  | startCut _ pass cut _ => exact absurd (List.mem_of_mem_take hw) hrecovery

/-- **What a step of a party sends**, its command publishes. -/
theorem NodeStep.publishes {config : ProcessConfig} {n n' : Node} {e : NodeEvent} (hstep : NodeStep config n e n')
    {m : PaymentMessage} (hm : m ∈ sends (e.performed config n)) :
    ∃ s penv c, n.proc = some s ∧ e.line? = some (penv, .ok c) ∧ c.Publishes config penv s m := by
  obtain ⟨s, penv, c, hproc, hline, hw⟩ := hstep.handles (mem_sends.mp hm) rfl
  exact ⟨s, penv, c, hproc, hline, (handler_step config penv s c).publishes (mem_sends.mpr hw)⟩

/-- **What a step of a party dispatches**, it does in `execute`: the payload prepared for the first approved intent of its
    process. -/
theorem NodeStep.dispatches {config : ProcessConfig} {n n' : Node} {e : NodeEvent} (hstep : NodeStep config n e n')
    {id hash : String} {payload : Bytes} (hw : .peer (.policy (.executeCall id payload hash)) ∈ e.performed config n) :
    ∃ s penv, n.proc = some s ∧ e.line? = some (penv, .ok .execute) ∧
      ∃ r prep, s.orchestrator.firstIn APPROVED = some (id, r) ∧ r.prepared = some prep ∧
        payload = prep.preparedPayload ∧ hash = prep.preparedHash := by
  obtain ⟨s, penv, c, hproc, hline, hw⟩ := hstep.handles hw rfl
  obtain ⟨rfl, hdispatch⟩ := (handler_step config penv s c).dispatches hw
  exact ⟨s, penv, hproc, hline, hdispatch⟩

/-- **Nothing on the board is forged**: what is there has an origin. -/
theorem ExchangeRun.board_origin [DecidableEq ι] {x : Exchange ι} (hrun : ExchangeRun config h x) :
    ∀ m ∈ x.board, Origin config h m := by
  refine hrun.history (P := fun h x => ∀ m ∈ x.board, Origin config h m) ?_ ?_
  · rintro x ⟨hboard, _⟩ m hm
    rw [hboard] at hm
    cases hm
  · intro h x i x' _ ih hstep m hm
    cases hstep with
    | party hnode _ =>
        rcases List.mem_append.mp hm with hm | hm
        · exact (ih m hm).snoc
        · obtain ⟨s, penv, c, hproc, hline, hpublishes⟩ := hnode.publishes hm
          refine .party (List.mem_append_right _ (List.mem_singleton_self _)) ⟨hproc, _, rfl, hline⟩ hpublishes
    | others houtside =>
        rcases List.mem_append.mp hm with hm | hm
        · exact (ih m hm).snoc
        · exact .others (houtside m hm)

end

/-! ## Two parties

Values the witnesses of the later modules are made of. -/

namespace Sample

inductive Party where
  | payer
  | recipient
deriving DecidableEq

def recipient : AgentIdentity := ⟨String.ofList (List.replicate 64 'b'), none, by decide⟩

def parties : Party → ProcessConfig
  | .payer     => process
  | .recipient => { process with role := "bob", identity := recipient, approver := none }

def order : PaymentIntent := { intent "i" 100 with recipient := recipient }

def offer : PaymentQuote := { quote "i" "invoice A" 100 with recipient := recipient }

/-- Fresh state roots. -/
def unopened : Exchange Party := ⟨[], fun _ => ⟨.empty, none⟩⟩

/-- A process is started over a fresh state root. -/
def started (nodes : Party → Node) (p : Party) : Party → Node := Function.update nodes p ⟨booted.1, some booted.2⟩

def opened : Exchange Party := ⟨[], started (started unopened.nodes .payer) .recipient⟩

theorem started_step {nodes : Party → Node} {p : Party} (hfresh : nodes p = ⟨.empty, none⟩) :
    NodeStep (parties p) (nodes p) (.started pass) ⟨booted.1, some booted.2⟩ := by
  rw [hfresh]
  cases p with
  | payer => exact .started World.empty pass rfl rfl
  | recipient => exact .started World.empty pass rfl rfl

/-- The start of a process over a fresh state root makes no call of the transport. -/
theorem performed_started {nodes : Party → Node} {p : Party} (hfresh : nodes p = ⟨.empty, none⟩) :
    NodeEvent.performed (parties p) (nodes p) (.started pass) = [] := by
  rw [hfresh]
  cases p with
  | payer => rfl
  | recipient => rfl

theorem started_run : ∃ h, ExchangeRun parties h opened := by
  have hstart {x : Exchange Party} {p : Party} (hfresh : x.nodes p = ⟨.empty, none⟩) :
      ExchangeStep parties x (.party p (.started pass)) ⟨x.board, started x.nodes p⟩ := by
    have hstep := ExchangeStep.party (started_step hfresh) (x := x) (by intro _ _ hline; cases hline)
    rwa [performed_started hfresh, show sends [] = [] from rfl, List.append_nil] at hstep
  have hunopened : ExchangeRun parties [] unopened := .nil ⟨rfl, fun _ => rfl⟩
  exact ⟨_, (hunopened.snoc (hstart (p := .payer) rfl)).snoc (hstart (p := .recipient) rfl)⟩

end Sample

end HermesPayments
