import HermesPayments.Process.Frame

/-!
# `HermesPayments.Process.Mail` — only `receive` changes the inbox

`Mail a b` says what the inbox holds in memory (`a`) and in the snapshot (`b`). No command but `receive` changes it,
wherever it is cut short (`mail_handleLine`), a start reads it back (`mail_start`), and a `receive` takes in what the
transport returned and writes it with the snapshot (`run_receiveLine`).
-/

namespace HermesPayments

open Lib PaymentState

/-- The inbox in a snapshot file. -/
def savedInbox (file : Option ProcessSnapshot) : List PeerMessage := file.elim [] ProcessSnapshot.inbox

/-- The messages of the inbox in memory, in the snapshot as the process knows it, and in the snapshot file. -/
structure Mail (a b : List PeerMessage) (s : ProcessState) (w : World) : Prop where
  memory : s.inbox.messages = a
  file   : savedInbox s.file = b
  world  : w.inbox = b

section

variable {a b : List PeerMessage} {α β : Type}

/-- The mail as a frame: the snapshot file holds `b`. -/
def mailFrame (a b : List PeerMessage) : Frame := ⟨fun w => w.inbox = b, Mail a b, Mail.world⟩

/-- The computation leaves the mail alone, wherever it is cut short. -/
abbrev MailCrash (a b : List PeerMessage) (m : Process α) : Prop := (mailFrame a b).Keeps m

namespace MailCrash

theorem inbox_peer (es : List PeerEffect) (w : World) :
    (applyAll World.apply w (es.map ProcessEffect.peer)).inbox = w.inbox :=
  congrArg savedInbox (w.after_peer es)

/-- Nothing the peer does touches the inbox. -/
theorem peer (m : Peer α) : MailCrash a b (Process.peer m) := by
  intro s w h
  unfold Process.peer
  rw [Proc.run_zoom]
  refine ⟨fun k => ?_, h.memory, h.file, ?_⟩
  · rw [← List.map_take]
    exact (inbox_peer _ w).trans h.world
  · exact (inbox_peer _ w).trans h.world

theorem policy (m : Policy α) : MailCrash a b (Process.policy m) := peer _

end MailCrash

/-! ## Snapshot and recovery -/

variable (config : ProcessConfig)

theorem mail_snapshotState : Crash World.apply (fun w => w.inbox = b) (Mail b b) snapshotState (fun _ => Mail b b) := by
  refine Crash.of_effect (w := fun s => .snapshotSave s.snapshot) (fun s => by rw [run_snapshotState]) ?_
  intro s w h
  have hinbox : (w.apply (.snapshotSave s.snapshot)).inbox = b := h.memory
  rw [run_snapshotState]
  exact ⟨h.world, hinbox, h.memory, h.memory, hinbox⟩

theorem mail_readsBack : (mailFrame a b).ReadsBack config :=
  ⟨fun _ _ => MailCrash.policy _, fun _ _ => MailCrash.policy _, fun _ _ => MailCrash.policy _⟩

/-- Messages that are all there are not added again. -/
theorem Inbox.foldl_add_known (ms : List PeerMessage) (i : Inbox)
    (hknown : ∀ m ∈ ms, m.messageId ∈ i.messages.map PeerMessage.messageId) : ms.foldl Inbox.add i = i := by
  induction ms with
  | nil => rfl
  | cons m ms ih =>
      rw [List.foldl_cons, Inbox.add, dif_pos (hknown m List.mem_cons_self)]
      exact ih fun m' hm' => hknown m' (List.mem_cons_of_mem _ hm')

/-- Recovery brings the inbox of the snapshot to a process that has it or has none. -/
theorem mail_maybeRecover (env : String → Env) (reconcile : Bool) (ha : a = [] ∨ a = b)
    (hnd : (b.map PeerMessage.messageId).Nodup) :
    Crash World.apply (fun w => w.inbox = b) (Mail a b) (maybeRecover config env reconcile)
      (fun _ s w => Mail a b s w ∨ Mail b b s w) := by
  rw [maybeRecover]
  refine Crash.get_bind fun s₀ => ?_
  cases hfile : s₀.file with
  | none => exact Crash.pure fun _ _ h => ⟨h.2.world, .inl h.2⟩
  | some snap =>
      by_cases hsaved : snap.inbox = b
      swap
      · -- not the inbox the process knows of
        rintro s w ⟨rfl, h⟩
        refine absurd ?_ hsaved
        rw [← h.file, hfile]
        rfl
      refine Crash.bind (((mail_readsBack config).recoverRecords env reconcile _).pre fun s w h => h.2) (fun _ => ?_)
        (fun _ _ _ h => .inl h)
      refine Crash.bind (S := fun _ => Mail b b) (Crash.modify fun s w h => ⟨h.world, ?_, h.file, h.world⟩)
        (fun _ => Crash.ite (fun _ => ?_) (fun _ => Crash.pure fun s w h => ⟨h.world, .inr h⟩)) (fun _ _ _ h => .inr h)
      · show (snap.inbox.foldl Inbox.add s.inbox).messages = b
        rcases ha with ha | ha
        · have hnone : s.inbox.messages = [] := h.memory.trans ha
          rw [Inbox.messages_foldl_add, hnone, List.nil_append, hsaved]
          rw [hnone, List.nil_append, hsaved]
          exact hnd
        · rw [Inbox.foldl_add_known]
          · exact h.memory.trans ha
          · intro m hm
            rw [h.memory, ha, ← hsaved]
            exact List.mem_map_of_mem hm
      · exact mail_snapshotState.post fun _ _ _ h => .inr h

/-! ## Commands -/

section Handlers

variable (penv : ProcessEnv)

theorem mail_admits (hnd : (b.map PeerMessage.messageId).Nodup) : (mailFrame b b).Admits config penv where
  call _ _ := MailCrash.policy _
  verify _ _ := Crash.emit fun _ _ h => ⟨h.world, h.world, h⟩
  recover _ := (mail_maybeRecover config _ true (.inr rfl) hnd).post fun _ _ _ h => h.elim id id

/-- **Every handler but that of `receive`** leaves the mail alone. -/
theorem mail_handler (hnd : (b.map PeerMessage.messageId).Nodup) (command : Command)
    (hother : ∀ limit, command ≠ .receive limit) : MailCrash b b (handler config penv command) := by
  by_cases hexecute : command = .execute
  · subst hexecute
    have hcall : MailCrash b b (Process.policy (execute config.policy penv.env)) := MailCrash.policy _
    exact hcall.respond fun _ => still_respond _ _
  · exact (mail_admits config penv hnd).handler command hother hexecute

/-- **Every line but a `receive`** leaves the mail alone. -/
theorem mail_handleLine (hnd : (b.map PeerMessage.messageId).Nodup) (parsed : Except Exc Command)
    (hother : ∀ limit, parsed ≠ .ok (.receive limit)) : MailCrash b b (handleLine config penv parsed) := by
  cases parsed with
  | error e => exact .still (Proc.Still.raise _)
  | ok command =>
      have hhandler := mail_handler config penv hnd command fun limit h => hother limit (h ▸ rfl)
      have hbody : MailCrash b b (Proc.tryFinally (handler config penv command) snapshotState) :=
        Crash.tryFinally hhandler mail_snapshotState
      exact hbody.bind fun _ => .still (Proc.Still.pure _)

end Handlers

/-- A start leaves the inbox in the snapshot alone, wherever it is cut short. -/
theorem mail_start (w : World) (pass : StartPass) (hnd : (w.inbox.map PeerMessage.messageId).Nodup) (k : Nat) :
    (w.after ((w.start config pass).effects.take k)).inbox = w.inbox := by
  have hboot : Mail [] w.inbox w.boot w := ⟨rfl, rfl, rfl⟩
  exact (mail_maybeRecover config pass.env true (.inl rfl) hnd w.boot w hboot).1 k

/-! ## The one command that does -/

/-- What a `receive` leaves in the inbox: it takes in what the transport returned, or nothing when that raised. -/
def Inbox.afterReceive (i : Inbox) (answer : Except Exc (List PeerMessage)) : Inbox :=
  answer.toOption.elim i (fun ms => (i.takeIn ms).1)

/-- An inbox that takes messages in keeps what it has, has something under each of their ids, and nothing else. -/
theorem Inbox.takeIn_spec (i : Inbox) (ms : List PeerMessage) :
    (∀ m ∈ i.messages, m ∈ (i.takeIn ms).1.messages) ∧
      (∀ m ∈ ms, m.messageId ∈ (i.takeIn ms).1.messages.map PeerMessage.messageId) ∧
        ∀ m ∈ (i.takeIn ms).1.messages, m ∈ i.messages ∨ m ∈ ms := by
  induction ms generalizing i with
  | nil => exact ⟨fun _ h => h, fun _ h => absurd h List.not_mem_nil, fun _ h => .inl h⟩
  | cons m ms ih =>
      rw [takeIn]
      by_cases hknown : m.messageId ∈ i.messages.map PeerMessage.messageId
      · rw [if_pos hknown]
        obtain ⟨hkeep, hall, honly⟩ := ih i
        refine ⟨hkeep, fun m' hm' => ?_, fun m' hm' => (honly m' hm').imp_right (List.mem_cons_of_mem _)⟩
        rcases List.mem_cons.mp hm' with rfl | hm'
        · obtain ⟨old, hold, hid⟩ := List.mem_map.mp hknown
          exact List.mem_map.mpr ⟨old, hkeep old hold, hid⟩
        · exact hall m' hm'
      · rw [if_neg hknown]
        have hadd : (i.add m).messages = i.messages ++ [m] := by rw [add, dif_neg hknown]
        obtain ⟨hkeep, hall, honly⟩ := ih (i.add m)
        rw [hadd] at hkeep honly
        refine ⟨fun m' hm' => hkeep m' (List.mem_append_left _ hm'), fun m' hm' => ?_, fun m' hm' => ?_⟩
        · rcases List.mem_cons.mp hm' with rfl | hm'
          · exact List.mem_map_of_mem (hkeep m' (List.mem_append_right _ (List.mem_singleton_self _)))
          · exact hall m' hm'
        · rcases honly m' hm' with hold | hnew
          · rcases List.mem_append.mp hold with hold | hm
            · exact .inl hold
            · exact .inr (List.mem_singleton.mp hm ▸ List.mem_cons_self)
          · exact .inr (List.mem_cons_of_mem _ hnew)

/-- A `receive` reads the transport, takes in what it returned, and writes the snapshot. -/
theorem run_receiveLine (penv : ProcessEnv) (limit : Option Int) (s : ProcessState) :
    ∃ result, let s' := { s with inbox := s.inbox.afterReceive (penv.transport.receive limit) }
      s.handle config penv (.ok (.receive limit)) =
        ⟨result, { s' with file := some s'.snapshot }, [.peer (.receive limit), .snapshotSave s'.snapshot]⟩ := by
  have hrun : ∃ res, (handler config penv (.receive limit)).run s =
      ⟨res, { s with inbox := s.inbox.afterReceive (penv.transport.receive limit) }, [.peer (.receive limit)]⟩ := by
    simp only [handler, handleReceive, Process.peer, HermesPeer.receive, ProcessEnv.peer, Proc.run_bind,
      Proc.run_zoom, Proc.run_emit, Proc.run_ofExcept]
    cases penv.transport.receive limit with
    | error e => exact ⟨_, rfl⟩
    | ok ms => exact ⟨_, rfl⟩
  obtain ⟨res, hrun⟩ := hrun
  exact ⟨_, run_handleLine hrun⟩

end

end HermesPayments
