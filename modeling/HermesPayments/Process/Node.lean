import HermesPayments.Lib.Crash
import HermesPayments.Lib.Run
import HermesPayments.Process
import HermesPayments.Process.AuditLines

/-!
# `HermesPayments.Process.Node` — a process, its files and its crashes

A `Node` is a state root with at most one process over it. Its `World` is what a kill cannot take back: the
three files, and the payments that have been dispatched. A step of a node handles one command, or cuts a
command or a start short after some of its effects, or starts a new process over the files.

A process that is killed while it writes an audit line may leave any part of the line; a file that is replaced holds the
old or the new content. A start reads both, and fails when a line of the audit file is not one JSON text.
-/

namespace HermesPayments

open Lib PaymentState

/-! ## The world -/

/-- What survives a kill. A store file that does not exist reads like an empty one. -/
structure World where
  store      : IdempotencyStore
  audit      : AuditFile
  snapshot   : Option ProcessSnapshot
  /-- The intents whose payment has been handed to `adapter.execute`, in order, with repetitions. -/
  dispatched : List String

namespace World

/-- A fresh state root. -/
def empty : World := ⟨.empty, .empty, none, []⟩

/-- What one effect does to the world. -/
def apply (w : World) : ProcessEffect → World
  | .peer (.policy (.storeSave content)) => { w with store := content }
  | .peer (.policy (.auditAppend entry)) => { w with audit := w.audit.append entry }
  | .peer (.policy (.executeCall intentId _ _)) => { w with dispatched := w.dispatched ++ [intentId] }
  | .snapshotSave content => { w with snapshot := some content }
  | _ => w

/-- The world after a list of effects. -/
abbrev after (w : World) (es : List ProcessEffect) : World := applyAll apply w es

/-- The record of an intent in the snapshot file. -/
def record? (w : World) (id : String) : Option SnapshotRecord :=
  w.snapshot.bind (fun snapshot => snapshot.records.get? id)

/-- The sequence number `AuditLog` continues with. -/
def nextSeq (w : World) : Nat := w.audit.read.foldl (fun n e => max n (e.seq + 1)) 0

end World

/-! ## Commands that are cut short -/

def ProcessEffect.isAuditAppend : ProcessEffect → Bool
  | .peer (.policy (.auditAppend _)) => true
  | _ => false

/-- The audit file is appended to, or left as it is. -/
theorem World.audit_apply (w : World) (e : ProcessEffect) :
    (∃ entry, e = .peer (.policy (.auditAppend entry)) ∧ (w.apply e).audit = w.audit.append entry) ∨
      e.isAuditAppend = false ∧ (w.apply e).audit = w.audit := by
  unfold World.apply ProcessEffect.isAuditAppend
  split
  · exact .inr ⟨rfl, rfl⟩
  · next entry => exact .inl ⟨entry, rfl, rfl⟩
  · exact .inr ⟨rfl, rfl⟩
  · exact .inr ⟨rfl, rfl⟩
  · next hother => exact .inr ⟨by split <;> simp_all, rfl⟩

/-- An intact audit file stays so. -/
theorem World.intact_after {w : World} (h : w.audit.Intact) (es : List ProcessEffect) : (w.after es).audit.Intact := by
  induction es generalizing w with
  | nil => exact h
  | cons e es ih =>
      rw [World.after, applyAll_cons]
      refine ih ?_
      rcases w.audit_apply e with ⟨entry, _, haudit⟩ | ⟨_, haudit⟩
      · exact haudit ▸ h.append
      · exact haudit ▸ h

/-- The dispatch that no snapshot has recorded yet, after one more effect. -/
def openAfter (pending : Option String) : ProcessEffect → Option String
  | .peer (.policy (.executeCall intentId _ _)) => some intentId
  | .snapshotSave _ => none
  | _ => pending

/-- The intent whose dispatch is among the effects with no replacement of the snapshot after it. -/
def openDispatch (es : List ProcessEffect) : Option String := applyAll openAfter none es

/-- How a command or a start is cut short: how many effects it performs, and what is left of the audit line that comes
    next, if one does. -/
structure Cut where
  performed : Nat
  left      : Remnant
deriving DecidableEq

/-- The world a cut leaves. -/
def Cut.world (c : Cut) (w : World) (es : List ProcessEffect) : World :=
  let w' := w.after (es.take c.performed)
  match es[c.performed]? with
  | some (.peer (.policy (.auditAppend entry))) => { w' with audit := w'.audit.cut entry c.left }
  | _ => w'

/-- A kill between two effects. -/
@[simp] theorem Cut.world_nothing (k : Nat) (w : World) (es : List ProcessEffect) :
    (Cut.mk k .nothing).world w es = w.after (es.take k) := by
  unfold Cut.world
  split
  · rfl
  · rfl

/-- A cut before another effect leaves what was performed. -/
theorem Cut.world_of_next {c : Cut} {es : List ProcessEffect} (w : World)
    (hnext : ∀ e, es[c.performed]? = some e → e.isAuditAppend = false) : c.world w es = w.after (es.take c.performed) := by
  unfold Cut.world
  split
  · next entry he => cases hnext _ he
  · rfl

/-- Only the audit file tells a cut between two effects from one within an append … -/
theorem Cut.world_eq (c : Cut) (w : World) (es : List ProcessEffect) :
    ∃ audit, c.world w es = { w.after (es.take c.performed) with audit := audit } := by
  unfold Cut.world
  split
  · exact ⟨_, rfl⟩
  · exact ⟨_, rfl⟩

/-- … and what has been written there is what is written after some of the effects. -/
theorem Cut.world_written (c : Cut) (w : World) (es : List ProcessEffect) :
    ∃ k audit, c.world w es = { w.after (es.take k) with audit := audit } ∧
      audit.written = (w.after (es.take k)).audit.written := by
  unfold Cut.world
  split
  · next entry he =>
      rcases (w.after (es.take c.performed)).audit.written_cut c.left with hwritten | hwritten
      · exact ⟨_, _, rfl, hwritten⟩
      · -- all of the text is there: as if the append had been performed
        have hnext : w.after (es.take (c.performed + 1)) =
            (w.after (es.take c.performed)).apply (.peer (.policy (.auditAppend entry))) := by
          rw [List.take_add_one, he, World.after, applyAll_append]
          rfl
        refine ⟨c.performed + 1, _, ?_, hwritten.trans (congrArg (fun w => w.audit.written) hnext.symm)⟩
        rw [hnext]
        rfl
  · exact ⟨_, _, rfl, rfl⟩

/-- Every entry in an intact file can be read after the cut. -/
theorem Cut.read_eq_written {w : World} (h : w.audit.Intact) (c : Cut) (es : List ProcessEffect) :
    (c.world w es).audit.read = (c.world w es).audit.written := by
  have hintact := World.intact_after h (es.take c.performed)
  unfold Cut.world
  split
  · exact hintact.read_cut c.left
  · exact AuditFile.read_of_opens hintact.opens

/-! ## Nodes -/

/-- A state root, with the process that runs over it. -/
structure Node where
  world : World
  proc  : Option ProcessState

/-- What the outside answers during a start: the clock, and how the adapter answers the query for each intent. -/
structure StartPass where
  now     : Int
  adapter : String → SettlementAdapter

def StartPass.env (pass : StartPass) (intentId : String) : Env := ⟨pass.now, pass.adapter intentId, false⟩

/-- What is observed of a step. -/
inductive NodeEvent where
  /-- A command is handled; it may end with an exception. -/
  | handled (penv : ProcessEnv) (parsed : Except Exc Command) (result : Except Exc String)
  /-- The process is killed after it has performed some effects of a command. -/
  | killed (penv : ProcessEnv) (parsed : Except Exc Command) (performed : List ProcessEffect)
  | started (pass : StartPass)
  /-- A start is cut short, by a kill or by an exception of the constructor. -/
  | startCut (pass : StartPass) (performed : List ProcessEffect)

/-- A kill that comes after `adapter.execute` has been called for an intent and before the snapshot says so. -/
def NodeEvent.loses (id : String) : NodeEvent → Prop
  | .killed _ _ performed | .startCut _ performed => openDispatch performed = some id
  | .handled _ _ _ | .started _ => False

section

variable (config : ProcessConfig)

/-- The state a new process starts in, over the files. -/
def World.boot (w : World) : ProcessState := ⟨.init w.store w.nextSeq, Inbox.empty, w.snapshot⟩

/-- `HermesRegtestProcess.__init__`: the policy engine over its two files, then recovery. -/
def World.start (w : World) (pass : StartPass) : Outcome ProcessEffect Exc ProcessState Unit :=
  (maybeRecover config pass.env true).run w.boot

/-- One command, handled in a process state. -/
def ProcessState.handle (s : ProcessState) (penv : ProcessEnv) (parsed : Except Exc Command) :
    Outcome ProcessEffect Exc ProcessState String :=
  (handleLine config penv parsed).run s

/-- The steps of a node. -/
inductive NodeStep : Node → NodeEvent → Node → Prop
  | handled (w : World) (s : ProcessState) (penv : ProcessEnv) (parsed : Except Exc Command) :
      NodeStep ⟨w, some s⟩ (.handled penv parsed (s.handle config penv parsed).result)
        ⟨w.after (s.handle config penv parsed).effects, some (s.handle config penv parsed).state⟩
  | killed (w : World) (s : ProcessState) (penv : ProcessEnv) (parsed : Except Exc Command) (c : Cut) :
      NodeStep ⟨w, some s⟩ (.killed penv parsed ((s.handle config penv parsed).effects.take c.performed))
        ⟨c.world w (s.handle config penv parsed).effects, none⟩
  | started (w : World) (pass : StartPass) (hopens : w.audit.opens = true)
      (hok : (w.start config pass).result = .ok ()) :
      NodeStep ⟨w, none⟩ (.started pass)
        ⟨w.after (w.start config pass).effects, some (w.start config pass).state⟩
  | startCut (w : World) (pass : StartPass) (c : Cut) (hopens : w.audit.opens = true) :
      NodeStep ⟨w, none⟩ (.startCut pass ((w.start config pass).effects.take c.performed))
        ⟨c.world w (w.start config pass).effects, none⟩

end

/-- A fresh state root, before the first start. -/
def NodeInit (n : Node) : Prop := n = ⟨.empty, none⟩

/-- The runs of a node. -/
abbrev NodeRun (config : ProcessConfig) (h : List (Event Node NodeEvent)) (n : Node) : Prop :=
  Run NodeInit (NodeStep config) h n

end HermesPayments
