import HermesPayments.Process.Faults
import HermesPayments.Process.Handlers

/-!
# `HermesPayments.Process.Correctness.DisplayIds` — what the display id of an inbox message names

An operator accepts a message under its display id, the first eight characters of its transport id. Several messages
may share them, and the first in the inbox is taken. So a command hands the peer the one message that it names, exactly
when no second one is displayed under the id, or when the first is refused because its type is not the command's
(`names_one_message_iff`).
-/

namespace HermesPayments

open Lib

/-! ## The commands that name a message -/

/-- Is the message of the type the command accepts? -/
def Command.takes : Command → PaymentMessage → Bool
  | .acceptIntent _, .intent _ | .acceptQuote _, .quote _ | .acceptReceipt _, .receipt _ => true
  | _, _ => false

/-- The inbox messages displayed under an id. -/
def Inbox.displayed (b : Inbox) (redactedId : String) : List PeerMessage :=
  b.messages.filter (fun m => redactedIdentifier m.messageId = redactedId)

section

variable (config : ProcessConfig) (penv : ProcessEnv)

/-- Hand a message to the peer, and show what became of it. -/
def handOver : PaymentMessage → Process Response
  | .intent intent => do
      Process.accept (.intent intent) (HermesPeer.acceptIntent config.policy config.identity penv.peer intent)
      return [("intent_id", .str (redactedIdentifier intent.id)), ("state", ← stateText intent.id)]
  | .quote quote => do
      Process.accept (.quote quote) (HermesPeer.acceptQuote config.policy penv.peer quote)
      return [("intent_id", .str (redactedIdentifier quote.intentId)), ("state", ← stateText quote.intentId)]
  | .receipt receipt => do
      let _ ← Process.accept (.receipt receipt) (HermesPeer.acceptReceipt config.policy penv.peer receipt)
      return [("intent_id", .str (redactedIdentifier receipt.intentId)), ("state", ← stateText receipt.intentId)]

/-- The type a command asks for, in its error. -/
def Command.wants : Command → String
  | .acceptIntent _ => "message is not a PaymentIntent"
  | .acceptQuote _  => "message is not a PaymentQuote"
  | _               => "message is not a PaymentReceipt"

end

section

variable {config : ProcessConfig} {penv : ProcessEnv} {s : ProcessState} {command : Command} {redactedId : String}

theorem findInboxMessage_displayed (s : ProcessState) (redactedId : String) :
    (findInboxMessage redactedId).run s
      = match (s.inbox.displayed redactedId).head? with
        | some m => ⟨.ok m, s, []⟩
        | none   => ⟨.error (.processProtocolError s!"message {redactedId} not found in inbox"), s, []⟩ := by
  rw [Inbox.displayed, List.head?_filter]
  simp only [findInboxMessage, Proc.run_bind, Proc.run_get, Proc.after_nil]
  cases s.inbox.messages.find? (fun m => decide (redactedIdentifier m.messageId = redactedId)) <;> rfl

/-- Such a command hands the message it finds to the peer, or refuses it by its type. -/
theorem handler_displayId (h : command.displayId? = some redactedId) :
    (handler config penv command).run s
      = match (s.inbox.displayed redactedId).head? with
        | some m =>
            if command.takes m.message then (handOver config penv m.message).run s
            else ⟨.error (.processProtocolError command.wants), s, []⟩
        | none => ⟨.error (.processProtocolError s!"message {redactedId} not found in inbox"), s, []⟩ := by
  have hfind := findInboxMessage_displayed s redactedId
  cases hhead : (s.inbox.displayed redactedId).head? with
  | none =>
      rw [hhead] at hfind
      cases command with
      | acceptIntent _ | acceptQuote _ | acceptReceipt _ =>
          cases h
          exact Proc.run_bind_error hfind
      | _ => cases h
  | some m =>
      rw [hhead] at hfind
      obtain ⟨messageId, message, author, publishedAt⟩ := m
      cases command with
      | acceptIntent _ | acceptQuote _ | acceptReceipt _ =>
          cases h
          refine (Proc.run_bind_ok hfind).trans ?_
          rw [Proc.after_nil]
          cases message <;> rfl
      | _ => cases h

/-- What is handed over is handed over once, and first. -/
theorem effects_handOver (config : ProcessConfig) (penv : ProcessEnv) (message : PaymentMessage) (s : ProcessState) :
    ∃ es : List PeerEffect, ((handOver config penv message).run s).effects = .acceptCall message :: es.map .peer := by
  have haccept {α : Type} (m : Peer α) (f : α → Process Response) (hf : ∀ a, (f a).Still) :
      ∃ es : List PeerEffect, ((Process.accept message m >>= f).run s).effects = .acceptCall message :: es.map .peer := by
    obtain ⟨_, heffects⟩ := Proc.run_bind_still hf (Process.peer m) s
    rw [run_process_accept, Proc.effects_after, heffects]
    exact ⟨_, rfl⟩
  cases message with
  | intent i => exact haccept _ _ fun _ => still_respond _ _
  | quote q => exact haccept _ _ fun _ => still_respond _ _
  | receipt rc => exact haccept _ _ fun _ => still_respond _ _

/-- A line is its handler, and then the snapshot if it is written. -/
theorem run_line_eq (config : ProcessConfig) (penv : ProcessEnv) (command : Command) (written : Bool) (s : ProcessState) :
    let out := (handler config penv command).run s
    ∃ file saved, ((Activity.line penv (.ok command)).run config written).run s =
      ⟨out.result.map fun _ => (), { out.state with file := file }, out.effects ++ saved⟩ ∧
        ∀ w ∈ saved, ∃ content, w = .snapshotSave content := by
  intro out
  have hbody : ((Activity.line penv (.ok command)).body config).run s =
      ⟨out.result.map fun _ => (), out.state, out.effects⟩ := by
    show (handler config penv command >>= fun _ => pure ()).run s = _
    rcases hrun : (handler config penv command).run s with ⟨e | resp, s', es⟩
    · rw [Proc.run_bind_error hrun]
      simp only [out, hrun]
      rfl
    · rw [Proc.run_bind_ok hrun]
      simp [out, hrun, Except.map]
  cases written with
  | true =>
      refine ⟨some out.state.snapshot, [.snapshotSave out.state.snapshot], ?_, List.forall_mem_singleton.mpr ⟨_, rfl⟩⟩
      rw [Activity.run, if_pos rfl, Proc.run_tryFinally (run_snapshotState _), hbody]
  | false =>
      have hpure : (pure () : Process Unit).run out.state = ⟨.ok (), out.state, []⟩ := rfl
      refine ⟨out.state.file, [], ?_, fun _ hw => absurd hw List.not_mem_nil⟩
      rw [Activity.run, if_neg Bool.false_ne_true, Proc.run_tryFinally (by rw [hbody]; exact hpure), hbody]

/-! ## The rule and the condition -/

/-- In the step, a process in state `s` is told a command that names a message. -/
def Names (e : Event Node FaultEvent) (s : ProcessState) (penv : ProcessEnv) (command : Command)
    (redactedId : String) : Prop :=
  e.before.proc = some s ∧ e.seen.activity? = some (.line penv (.ok command)) ∧ command.displayId? = some redactedId

/-- What a step of a process in state `s` has performed. -/
def FaultEvent.effects (config : ProcessConfig) (s : ProcessState) : FaultEvent → List ProcessEffect
  | .performed a written => ((a.run config written).run s).effects
  | .killed _ _ es | .startCut _ es => es
  | .started _ => []

/-- The process is not killed before it has done anything. -/
def FaultEvent.begun : FaultEvent → Bool
  | .killed _ _ [] => false
  | _ => true

/-- A message reaches the peer in the step only if it is the only one displayed under the id. Where several are, the
    command raises, and no record, no entry of the store and no message of the inbox changes. -/
structure NamesOneMessage (config : ProcessConfig) (e : Event Node FaultEvent) (s : ProcessState) (redactedId : String) :
    Prop where
  only    : ∀ message, .acceptCall message ∈ e.seen.effects config s →
    ∃ m, s.inbox.displayed redactedId = [m] ∧ m.message = message
  several : 2 ≤ (s.inbox.displayed redactedId).length →
    (∀ a written, e.seen = .performed a written → ∃ exc, ((a.run config written).run s).result = .error exc) ∧
      e.after.world.store = e.before.world.store ∧
      ∀ s', e.after.proc = some s' → s'.orchestrator = s.orchestrator ∧ s'.inbox = s.inbox

/-- A second message is displayed under the id, and the first is of the type the command accepts. -/
def TakesFirstOfSeveral (s : ProcessState) (command : Command) (redactedId : String) : Prop :=
  2 ≤ (s.inbox.displayed redactedId).length ∧
    ∃ m ∈ (s.inbox.displayed redactedId).head?, command.takes m.message = true

instance : Decidable (TakesFirstOfSeveral s command redactedId) := inferInstanceAs (Decidable (_ ∧ _))

/-! ## One command -/

/-- What a command that names a message comes to: it hands the first one displayed to the peer, or refuses. -/
theorem handler_names (h : command.displayId? = some redactedId) :
    (∃ (m : PeerMessage) (es : List PeerEffect), (s.inbox.displayed redactedId).head? = some m ∧ command.takes m.message = true ∧
      ((handler config penv command).run s).effects = .acceptCall m.message :: es.map .peer) ∨
    (∀ m ∈ (s.inbox.displayed redactedId).head?, command.takes m.message = false) ∧
      ∃ exc, (handler config penv command).run s = ⟨.error exc, s, []⟩ := by
  rw [handler_displayId h]
  cases hhead : (s.inbox.displayed redactedId).head? with
  | none => exact .inr ⟨fun m hm => absurd hm (Option.not_mem_none m), _, rfl⟩
  | some m =>
      by_cases htakes : command.takes m.message = true
      · obtain ⟨es, heffects⟩ := effects_handOver config penv m.message s
        refine .inl ⟨m, es, rfl, htakes, ?_⟩
        simp only [htakes, if_true]
        exact heffects
      · refine .inr ⟨fun m' hm' => ?_, _, if_neg htakes⟩
        obtain rfl := Option.some.inj hm'
        exact Bool.eq_false_iff.mpr htakes

/-- The snapshot is no part of the store. -/
theorem World.store_after_saved {es : List ProcessEffect} (hes : ∀ w ∈ es, ∃ content, w = .snapshotSave content)
    (w : World) : (w.after es).store = w.store := by
  induction es generalizing w with
  | nil => rfl
  | cons e es ih =>
      obtain ⟨content, rfl⟩ := hes e List.mem_cons_self
      exact ih (fun e' he' => hes e' (List.mem_cons_of_mem _ he')) _

theorem Cut.store_after_saved {c : Cut} {w : World} {es : List ProcessEffect}
    (hes : ∀ e ∈ es.take c.performed, ∃ content, e = .snapshotSave content) : (c.world w es).store = w.store := by
  obtain ⟨audit, hcut⟩ := c.world_eq w es
  rw [hcut]
  exact World.store_after_saved hes w

/-- The one message of a list that a command may take is its first. -/
theorem eq_singleton_of_head? {ms : List PeerMessage} {m : PeerMessage} (hhead : ms.head? = some m)
    (hone : ¬ 2 ≤ ms.length) : ms = [m] := by
  rcases ms with - | ⟨m', - | ⟨m'', rest⟩⟩
  · cases hhead
  · cases hhead
    rfl
  · simp at hone

/-- The effects of a line that names a message: what is handed over comes first, and nothing else is. -/
theorem effects_names (h : command.displayId? = some redactedId) (written : Bool) :
    ∃ rest : List ProcessEffect, (∀ w ∈ rest, ¬ w.Hands) ∧
      let effects := (((Activity.line penv (.ok command)).run config written).run s).effects
      ((∃ m, (s.inbox.displayed redactedId).head? = some m ∧ command.takes m.message = true ∧
          effects = .acceptCall m.message :: rest) ∨
        (∀ m ∈ (s.inbox.displayed redactedId).head?, command.takes m.message = false) ∧ effects = rest) := by
  obtain ⟨file, saved, hrun, hsaved⟩ := run_line_eq config penv command written s
  have hquiet : ∀ w ∈ saved, ¬ w.Hands := by
    rintro w hw ⟨m, hm⟩
    obtain ⟨content, hcontent⟩ := hsaved w hw
    cases hcontent.symm.trans hm
  rw [hrun]
  rcases @handler_names config penv s _ _ h with ⟨m, es, hhead, htakes, heffects⟩ |
    ⟨hrefused, exc, hraise⟩
  · refine ⟨es.map .peer ++ saved, fun w hw => ?_, .inl ⟨m, hhead, htakes, by rw [heffects]; rfl⟩⟩
    rcases List.mem_append.mp hw with hw | hw
    · obtain ⟨effect, _, rfl⟩ := List.mem_map.mp hw
      exact not_hands_peer
    · exact hquiet w hw
  · exact ⟨saved, hquiet, .inr ⟨hrefused, by rw [hraise]; rfl⟩⟩

/-- The first message displayed under the id is handed over, if the command may take it. -/
def Takes (s : ProcessState) (command : Command) (redactedId : String) (message : PaymentMessage) : Prop :=
  ∃ m, (s.inbox.displayed redactedId).head? = some m ∧ command.takes m.message = true ∧ m.message = message

/-- A line that is cut short hands a message over as soon as it has done anything. -/
theorem acceptCall_mem_take (h : command.displayId? = some redactedId) (written : Bool) (k : Nat) {message : PaymentMessage} :
    let effects := (((Activity.line penv (.ok command)).run config written).run s).effects
    (.acceptCall message ∈ effects.take k ↔ effects.take k ≠ [] ∧ Takes s command redactedId message) ∧
      (Takes s command redactedId message → effects ≠ []) := by
  intro effects
  obtain ⟨rest, hrest, hline⟩ := @effects_names config penv s _ _ h written
  have hnone : .acceptCall message ∉ rest := fun hmem => hrest _ hmem ⟨_, rfl⟩
  rcases hline with ⟨m, hhead, htakes, heffects⟩ | ⟨hrefused, heffects⟩
  · refine ⟨?_, fun _ => ?_⟩
    · cases k with
      | zero => simp
      | succ k =>
          have hperformed : effects.take (k + 1) = .acceptCall m.message :: rest.take k :=
            congrArg (List.take (k + 1)) heffects
          rw [hperformed]
          constructor
          · intro hmem
            rcases List.mem_cons.mp hmem with hfirst | hlater
            · cases hfirst
              exact ⟨List.cons_ne_nil _ _, m, hhead, htakes, rfl⟩
            · exact absurd (List.mem_of_mem_take hlater) hnone
          · rintro ⟨_, m', hhead', _, rfl⟩
            obtain rfl := Option.some.inj (hhead.symm.trans hhead')
            exact List.mem_cons_self
    · show (((Activity.line penv (.ok command)).run config written).run s).effects ≠ []
      rw [heffects]
      exact List.cons_ne_nil _ _
  · have hnot : ¬ Takes s command redactedId message := by
      rintro ⟨m, hhead, htakes, _⟩
      exact absurd htakes (Bool.eq_false_iff.mp (hrefused m hhead))
    have hperformed : effects.take k = rest.take k := congrArg (List.take k) heffects
    refine ⟨⟨fun hmem => ?_, fun h => absurd h.2 hnot⟩, fun h => absurd h hnot⟩
    exact absurd (List.mem_of_mem_take (hperformed ▸ hmem)) hnone

/-- **What a step hands over**: the first message displayed under the id, if the command may take it and has begun. -/
theorem acceptCall_mem_effects {n n' : Node} {i : FaultEvent} (hstep : FaultStep config n i n')
    (hnames : Names ⟨n, i, n'⟩ s penv command redactedId) {message : PaymentMessage} :
    .acceptCall message ∈ i.effects config s ↔ i.begun = true ∧ Takes s command redactedId message := by
  obtain ⟨hs, ha, hid⟩ := hnames
  cases hstep with
  | performed w s' a written =>
      cases hs
      cases ha
      obtain ⟨hmem, hbegun⟩ := @acceptCall_mem_take config penv s _ _ hid written
        (((Activity.line penv (.ok command)).run config written).run s).effects.length message
      rw [List.take_length] at hmem
      exact hmem.trans (and_congr_left fun htakes => ⟨fun _ => rfl, fun _ => hbegun htakes⟩)
  | killed w s' a written c =>
      cases hs
      cases ha
      refine (acceptCall_mem_take hid written c.performed).1.trans (and_congr_left' ?_)
      cases List.take c.performed (((Activity.line penv (.ok command)).run config written).run s).effects with
      | nil => simp [FaultEvent.begun]
      | cons _ _ => simp [FaultEvent.begun]
  | started _ _ _ _ | startCut _ _ _ _ => cases hs

/-- A step that hands nothing over changes nothing, and a command that has not been cut short raises. -/
theorem refused_unchanged {n n' : Node} {i : FaultEvent} (hstep : FaultStep config n i n')
    (hnames : Names ⟨n, i, n'⟩ s penv command redactedId)
    (hrefused : ∀ message, .acceptCall message ∉ i.effects config s) :
    (∀ a written, i = .performed a written → ∃ exc, ((a.run config written).run s).result = .error exc) ∧
      n'.world.store = n.world.store ∧ ∀ s', n'.proc = some s' → s'.orchestrator = s.orchestrator ∧ s'.inbox = s.inbox := by
  have hhanded (message : PaymentMessage) := @acceptCall_mem_effects _ _ _ _ _ _ _ _ hstep hnames message
  obtain ⟨hs, ha, hid⟩ := hnames
  have hhandler := @handler_names config penv s _ _ hid
  cases hstep with
  | performed w s' a written =>
      cases hs
      cases ha
      obtain ⟨file, saved, hrun, hsaved⟩ := run_line_eq config penv command written s
      rcases hhandler with ⟨m, es, hhead, htakes, heffects⟩ | ⟨_, exc, hraise⟩
      · exact absurd ((hhanded m.message).mpr ⟨rfl, m, hhead, htakes, rfl⟩) (hrefused _)
      · rw [hraise] at hrun
        rw [hrun]
        refine ⟨?_, World.store_after_saved hsaved w, ?_⟩
        · rintro a written' ⟨rfl, rfl⟩
          exact ⟨exc, congrArg Outcome.result hrun⟩
        · rintro s' ⟨rfl⟩
          exact ⟨rfl, rfl⟩
  | killed w s' a written c =>
      cases hs
      cases ha
      have hsaved : ∀ e ∈ (((Activity.line penv (.ok command)).run config written).run s).effects.take c.performed,
          ∃ content, e = .snapshotSave content := by
        rcases hhandler with ⟨m, es, hhead, htakes, heffects⟩ | ⟨_, exc, hraise⟩
        · -- killed before the message was handed over
          have hbegun : ¬ FaultEvent.begun (.killed _ written _) = true := fun hbegun =>
            hrefused _ ((hhanded m.message).mpr ⟨hbegun, m, hhead, htakes, rfl⟩)
          revert hbegun
          cases List.take c.performed (((Activity.line penv (.ok command)).run config written).run s).effects with
          | nil => exact fun _ e he => absurd he List.not_mem_nil
          | cons _ _ => exact fun hbegun => absurd rfl hbegun
        · obtain ⟨file, saved, hrun, hsaved⟩ := run_line_eq config penv command written s
          rw [hraise] at hrun
          rw [hrun]
          exact fun w hw => hsaved w (List.mem_of_mem_take hw)
      refine ⟨?_, Cut.store_after_saved hsaved, fun _ hproc => absurd hproc.symm (Option.some_ne_none _)⟩
      intro a written' heq
      exact FaultEvent.noConfusion heq
  | started _ _ _ _ | startCut _ _ _ _ => cases hs

/-- **A command hands over the first of several exactly when it has begun and may take it**; else it names one message. -/
theorem namesOneMessage_iff {n n' : Node} {i : FaultEvent} (hstep : FaultStep config n i n')
    (hnames : Names ⟨n, i, n'⟩ s penv command redactedId) :
    NamesOneMessage config ⟨n, i, n'⟩ s redactedId ↔ ¬ (TakesFirstOfSeveral s command redactedId ∧ i.begun = true) := by
  constructor
  · rintro ⟨honly, -⟩ ⟨⟨hlen, m, hm, htakes⟩, hbegun⟩
    obtain ⟨m', hone, -⟩ := honly _ ((acceptCall_mem_effects hstep hnames).mpr ⟨hbegun, m, hm, htakes, rfl⟩)
    rw [hone] at hlen
    simp at hlen
  · intro hcond
    constructor
    · intro message hmem
      obtain ⟨hbegun, m, hm, htakes, hmessage⟩ := (acceptCall_mem_effects hstep hnames).mp hmem
      exact ⟨m, eq_singleton_of_head? hm fun hlen => hcond ⟨⟨hlen, m, hm, htakes⟩, hbegun⟩, hmessage⟩
    · intro hlen
      refine refused_unchanged hstep hnames fun message hmem => ?_
      obtain ⟨hbegun, m, hm, htakes, _⟩ := (acceptCall_mem_effects hstep hnames).mp hmem
      exact hcond ⟨⟨hlen, m, hm, htakes⟩, hbegun⟩

/-! ## The theorem -/

variable {h : List (Event Node FaultEvent)} {n : Node}

end

namespace Sample

def letter (messageId intentId : String) : PeerMessage := ⟨messageId, .intent (intent intentId 100), party, 0⟩

/-- The process receives two intents under these ids … -/
def receivingBoth (first second : String) : Activity :=
  .line { Sample.penv with
      transport := ⟨fun _ => .ok "message", fun _ => .ok [letter first "i", letter second "j"]⟩ } (.ok (.receive none))

def holding (first second : String) : World × ProcessState := performs process booted [(receivingBoth first second, true)]

/-- … and its operator accepts one as displayed. -/
def accepting (first second redactedId : String) : List (Activity × Bool) :=
  [(receivingBoth first second, true), (.line penv (.ok (.acceptIntent redactedId)), true)]

def acceptingHistory (first second redactedId : String) : List (Event Node FaultEvent) :=
  [⟨⟨.empty, none⟩, .started pass, ⟨booted.1, some booted.2⟩⟩] ++
    performsHistory process booted (accepting first second redactedId)

theorem acceptingHistory_run (first second redactedId : String) :
    FaultRun process (acceptingHistory first second redactedId)
      ⟨(performs process booted (accepting first second redactedId)).1,
        some (performs process booted (accepting first second redactedId)).2⟩ :=
  booted_faultRun.performs process _

theorem acceptingHistory_names (first second redactedId : String) : ∃ e ∈ acceptingHistory first second redactedId,
    Names e (holding first second).2 penv (.acceptIntent redactedId) redactedId ∧ e.seen.begun = true :=
  ⟨_, List.mem_append_right _ (List.mem_cons_of_mem _ (List.mem_singleton_self _)), ⟨rfl, rfl, rfl⟩, rfl⟩

end Sample

end HermesPayments
