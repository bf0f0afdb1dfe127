import HermesPayments.Process.Recovery

/-!
# `HermesPayments.Process.Commands` — every command keeps the files in order

`crash_handleLine`: a command that starts in a ready process leaves the files in order wherever it is cut
short, and the process ready and synced with its snapshot when it ends, whether or not it raised.
`crash_start` says the same of a start, from the files alone.
-/

namespace HermesPayments

open Lib PaymentState

section

variable {lost : String → Prop} (config : ProcessConfig) (penv : ProcessEnv)

/-! ## Handlers -/

/-- The triple of a handler: from a ready process to a running one. -/
abbrev HandlerCrash {α : Type} (lost : String → Prop) (m : Process α) : Prop :=
  Crash Watched.apply (Durable lost) (Ready lost) m (fun _ => Running lost)

/-- A handler that only reads. -/
theorem HandlerCrash.still {α : Type} {m : Process α} (hm : m.Still) : HandlerCrash lost m :=
  (Crash.still (P := Ready lost) hm fun _ _ h => h.toDurable).post fun _ _ _ h => h.toLive

/-- A handler that calls the peer, then answers. -/
theorem HandlerCrash.peer {α : Type} {m : Peer α} {f : α → Process Response}
    (hm : ∀ file, PeerCrash lost (Idle lost (fun _ => False) file) m (Live lost (fun _ => False) file))
    (hf : ∀ a, (f a).Still) : HandlerCrash lost (Process.peer m >>= f) :=
  Crash.seq (crash_process_peer hm) (fun a => Crash.still (hf a) fun _ _ h => h.toDurable) fun _ _ h => h

/-- A handler that hands a message to the peer, and then reads. -/
theorem HandlerCrash.accept {α : Type} {message : PaymentMessage} {m : Peer α} {f : α → Process Response}
    (hm : ∀ file, PeerCrash lost (Idle lost (fun _ => False) file) m (Live lost (fun _ => False) file))
    (hf : ∀ a, (f a).Still) : HandlerCrash lost (Process.accept message m >>= f) := by
  refine Crash.seq (R := Running lost) ?_ (fun a => Crash.still (hf a) fun _ _ h => h.toDurable) fun _ _ h => h
  refine Crash.seq (Crash.emit fun _ _ h => ⟨h.toDurable, h.toDurable, h⟩) (fun _ => crash_process_peer hm) ?_
  intro _ _ h
  exact h.toLive

/-- A handler that reads before anything else. -/
theorem HandlerCrash.read {α β : Type} {m : Process α} {f : α → Process β} (hm : m.Still)
    (hf : ∀ a, HandlerCrash lost (f a)) : HandlerCrash lost (m >>= f) :=
  Crash.seq (Crash.still hm fun _ _ h => h.toDurable) hf fun _ _ h => h.toLive

theorem crash_handleStatus : HandlerCrash lost (handleStatus config) :=
  .still (Proc.Still.get.bind fun _ => Proc.Still.pure _)

theorem crash_handleReceive (limit : Option Int) : HandlerCrash lost (handleReceive penv limit) := by
  refine Crash.seq (R := Running lost) ?_ (fun received => ?_) (fun _ _ h => h)
  · exact crash_process_peer fun file => (crash_receive penv limit).pre fun _ _ h => h.toLive
  · -- the inbox is not part of the assertion
    refine Crash.get_bind fun s => ?_
    refine Crash.seq (R := Running lost) (Crash.modify ?_) (fun _ => Crash.pure fun _ _ h => ⟨h.toDurable, h⟩)
      (fun _ _ h => h)
    rintro s' t ⟨_, h⟩
    exact ⟨h.toDurable, h⟩

theorem crash_handleSubmitIntent (i : PaymentIntent) : HandlerCrash lost (handleSubmitIntent config penv i) :=
  .peer (fun _ => crash_submitIntent config penv i) fun _ => still_respond _ _

theorem crash_handleAcceptIntent (id : String) : HandlerCrash lost (handleAcceptIntent config penv id) := by
  refine .read (still_findInboxMessage id) fun msg => ?_
  cases msg.message with
  | intent i => exact HandlerCrash.accept (fun _ => crash_acceptIntent config penv i) fun _ => still_respond _ _
  | quote _ | receipt _ => exact HandlerCrash.still (Proc.Still.raise _)

theorem crash_handlePublishQuote (q : PaymentQuote) : HandlerCrash lost (handlePublishQuote config penv q) :=
  .peer (fun _ => (crash_send config penv (.quote q)).pre fun _ _ h => h.toLive) fun _ => still_respond _ _

theorem crash_handleAcceptQuote (id : String) : HandlerCrash lost (handleAcceptQuote config penv id) := by
  refine .read (still_findInboxMessage id) fun msg => ?_
  cases msg.message with
  | quote q => exact HandlerCrash.accept (fun _ => crash_acceptQuote config penv q) fun _ => still_respond _ _
  | intent _ | receipt _ => exact HandlerCrash.still (Proc.Still.raise _)

theorem crash_handleSubmitQuoteLocal (q : PaymentQuote) :
    HandlerCrash lost (handleSubmitQuoteLocal config penv q) :=
  .peer (fun _ => crash_policy config penv (.receiveQuote q) rfl) fun _ => still_respond _ _

theorem crash_handlePrepare : HandlerCrash lost (handlePrepare config penv) :=
  .peer (fun _ => crash_policy config penv .prepare rfl) fun _ => Proc.Still.pure _

theorem crash_handleApprove (intentId quoteId preparedHash : String) :
    HandlerCrash lost (handleApprove config penv intentId quoteId preparedHash) := by
  unfold handleApprove
  cases config.approver with
  | none => exact HandlerCrash.still (Proc.Still.raise _)
  | some approver =>
      refine .read Proc.Still.get fun s => ?_
      exact HandlerCrash.peer (fun _ => crash_policy config penv (.approve _) rfl) fun _ => still_respond _ _

theorem crash_handleExecute : HandlerCrash lost (handleExecute config penv) :=
  .peer (fun _ => crash_policy config penv .execute rfl) fun _ => still_respond _ _

theorem crash_handlePublishReceipt (rc : PaymentReceipt) :
    HandlerCrash lost (handlePublishReceipt config penv rc) :=
  .peer (fun _ => (crash_send config penv (.receipt rc)).pre fun _ _ h => h.toLive) fun _ => Proc.Still.pure _

theorem crash_handleAcceptReceipt (id : String) : HandlerCrash lost (handleAcceptReceipt config penv id) := by
  refine .read (still_findInboxMessage id) fun msg => ?_
  cases msg.message with
  | receipt rc => exact HandlerCrash.accept (fun _ => crash_acceptReceipt config penv rc) fun _ => still_respond _ _
  | intent _ | quote _ => exact HandlerCrash.still (Proc.Still.raise _)

/-- Refusing where a handler stands. -/
theorem HandlerCrash.refuse {α β : Type} {e : Exc} {f : β → Process α} :
    HandlerCrash lost (Proc.raise e >>= f) :=
  Crash.raise_bind fun _ _ h => ⟨h.toDurable, h.toLive⟩

theorem crash_handleVerifyPublishReceipt (intentId : String) (quoteId : Option String) (settlementRef : String)
    (amountSat : Option Int) :
    HandlerCrash lost (handleVerifyPublishReceipt config penv intentId quoteId settlementRef amountSat) := by
  refine .read Proc.Still.get fun s => ?_
  cases s.orchestrator.getIntent intentId with
  | none => exact HandlerCrash.still (Proc.Still.raise _)
  | some intent =>
      refine Crash.ite (fun _ => HandlerCrash.refuse) (fun _ => ?_)
      -- the adapter call leaves no trace in the files
      refine Crash.seq (R := Ready lost) (Crash.emit fun s t h => ⟨h.toDurable, h.toDurable, h⟩) (fun _ => ?_)
        (fun _ _ h => h.toLive)
      cases penv.adapter.verifyReceipt settlementRef (amountSat.getD intent.amountSat) with
      | error e => exact HandlerCrash.still (Proc.Still.raise _)
      | ok verification =>
          refine Crash.ite (fun _ => HandlerCrash.refuse) (fun _ => ?_)
          refine Crash.ite (fun _ => HandlerCrash.refuse) (fun _ => ?_)
          split
          · exact HandlerCrash.still (Proc.Still.raise _)
          · exact HandlerCrash.peer (fun _ => (crash_send config penv _).pre fun _ _ h => h.toLive)
              fun _ => Proc.Still.pure _

/-- One pass of `recover`, from a ready process. -/
theorem crash_recoverPass (now : Int) (adapter : String → SettlementAdapter) :
    Crash Watched.apply (Durable lost) (Ready lost)
      (maybeRecover config (fun intentId => ⟨now, adapter intentId, false⟩) true) (fun _ => Ready lost) := by
  refine Crash.remember ProcessState.file fun file => ?_
  exact (crash_maybeRecover config (fun id => by rintro ⟨_, h⟩; cases h) true).post fun _ _ _ h => h.1

/-- The polling loop: each pass reads everything back. -/
theorem crash_recoverLoop (maxWait : Rat) (pass : RecoveryPass) (rest : List RecoveryPass) :
    Crash Watched.apply (Durable lost) (Ready lost) (recoverLoop config penv maxWait pass rest)
      (fun _ => Ready lost) := by
  induction rest generalizing pass with
  | nil =>
      rw [recoverLoop]
      refine Crash.seq (R := Ready lost) ?_ ?_ (fun _ _ h => h)
      · exact crash_recoverPass config _ _
      · intro _
        refine Crash.still (Proc.Still.get.bind fun s => ?_) fun _ _ h => h.toDurable
        exact Proc.Still.ite (Proc.Still.pure _) (Proc.Still.pure _)
  | cons next rest ih =>
      rw [recoverLoop]
      refine Crash.seq (R := Ready lost) ?_ ?_ (fun _ _ h => h)
      · exact crash_recoverPass config _ _
      · intro _
        refine Crash.get_bind fun s => ?_
        refine Crash.ite (fun _ => Crash.pure fun _ _ h => ⟨h.2.toDurable, h.2⟩) (fun _ => ?_)
        exact (ih next).pre fun _ _ h => h.2

theorem crash_handleRecover (maxWaitSeconds pollIntervalSeconds : Option PyFloat) :
    HandlerCrash lost (handleRecover config penv maxWaitSeconds pollIntervalSeconds) := by
  unfold handleRecover
  split
  · split
    · exact HandlerCrash.still (Proc.Still.raise _)
    · exact HandlerCrash.still (Proc.Still.raise _)
    · refine Crash.seq (R := Ready lost) (crash_recoverLoop config penv _ _ _) (fun _ => ?_)
        (fun _ _ h => h.toLive)
      exact HandlerCrash.still (Proc.Still.get.bind fun _ => Proc.Still.pure _)
  · exact HandlerCrash.still (Proc.Still.raise _)

/-- **Every handler** leads from a ready process to a running one. -/
theorem crash_handler (command : Command) : HandlerCrash lost (handler config penv command) := by
  cases command with
  | status => exact crash_handleStatus config
  | receive limit => exact crash_handleReceive penv limit
  | submitIntent i => exact crash_handleSubmitIntent config penv i
  | acceptIntent id => exact crash_handleAcceptIntent config penv id
  | publishQuote q => exact crash_handlePublishQuote config penv q
  | acceptQuote id => exact crash_handleAcceptQuote config penv id
  | submitQuoteLocal q => exact crash_handleSubmitQuoteLocal config penv q
  | prepare => exact crash_handlePrepare config penv
  | approve i q h => exact crash_handleApprove config penv i q h
  | execute => exact crash_handleExecute config penv
  | publishReceipt rc => exact crash_handlePublishReceipt config penv rc
  | verifyPublishReceipt i q ref amount => exact crash_handleVerifyPublishReceipt config penv i q ref amount
  | acceptReceipt id => exact crash_handleAcceptReceipt config penv id
  | recover maxWait pollInterval => exact crash_handleRecover config penv maxWait pollInterval
  | malformed _ => exact HandlerCrash.still (Proc.Still.raise _)

/-! ## Commands and starts -/

/-- **Every command**, cut short anywhere, leaves the files in order; when it ends, the process is ready and
    synced with its snapshot. -/
theorem crash_handleLine (parsed : Except Exc Command) :
    Crash Watched.apply (Durable lost) (fun s t => Ready lost s t ∧ Synced s t.world)
      (handleLine config penv parsed) (fun _ s t => Ready lost s t ∧ Synced s t.world) := by
  cases parsed with
  | error e => exact Crash.still (Proc.Still.raise _) fun _ _ h => h.1.toDurable
  | ok command =>
      have hbody : Crash Watched.apply (Durable lost) (Ready lost)
          (Proc.tryFinally (handler config penv command) snapshotState)
          (fun _ s t => Ready lost s t ∧ Synced s t.world) :=
        Crash.tryFinally (crash_handler config penv command) crash_snapshotState
      refine Crash.seq (hbody.pre fun _ _ h => h.1) (fun _ => ?_) (fun _ _ h => h)
      exact Crash.pure fun _ _ h => ⟨h.1.toDurable, h⟩

/-- The inbox read back from a snapshot is the snapshot's. -/
theorem Inbox.messages_foldl_add (ms : List PeerMessage) (b : Inbox)
    (hnd : ((b.messages ++ ms).map PeerMessage.messageId).Nodup) :
    (ms.foldl Inbox.add b).messages = b.messages ++ ms := by
  induction ms generalizing b with
  | nil => simp
  | cons m ms ih =>
      have hnew : m.messageId ∉ b.messages.map PeerMessage.messageId := by
        rw [List.map_append, List.map_cons] at hnd
        exact fun hmem => (List.nodup_append.mp hnd).2.2 _ hmem _ List.mem_cons_self rfl
      have hadd : (b.add m).messages = b.messages ++ [m] := by
        rw [Inbox.add, dif_neg hnew]
      rw [List.foldl_cons, ih (b.add m) (by rw [hadd, List.append_assoc]; exact hnd), hadd,
        List.append_assoc]
      rfl

/-- A process that has just been constructed has read nothing back. -/
theorem Durable.boot {w : World} (h : Durable lost ⟨w, none⟩) :
    Reading lost (fun _ => True) w.boot ⟨w, none⟩ :=
  ⟨⟨h, rfl, Fresh.consistent ⟨w.store, w.nextSeq, rfl⟩, rfl, fun _ _ _ hread => absurd trivial hread⟩,
    rfl⟩

/-- A snapshot without records is read back at once. -/
theorem start_synced_of_no_records {w : World} (pass : StartPass) (h : Durable lost ⟨w, none⟩)
    (hnone : ∀ snap, w.snapshot = some snap → snap.records.entries = []) :
    (w.start config pass).effects = [] ∧ Synced (w.start config pass).state w := by
  have hboot : w.boot.file = w.snapshot := rfl
  unfold World.start maybeRecover
  rw [Proc.run_bind, Proc.run_get]
  cases hsnap : w.snapshot with
  | none =>
      simp only [Proc.after_nil, hboot, hsnap, Proc.run_pure]
      refine ⟨trivial, fun id => ?_, ?_⟩
      · rw [World.record?, hsnap]
        rfl
      · rw [World.inbox, hsnap]
        rfl
  | some snap =>
      have hnil := hnone snap hsnap
      have hinbox : (snap.inbox.foldl Inbox.add w.boot.inbox).messages = [] ++ snap.inbox := by
        refine Inbox.messages_foldl_add _ _ ?_
        have := h.inbox
        rw [World.inbox, hsnap] at this
        exact this
      simp only [Proc.after_nil, hboot, hsnap, hnil, recoverRecords, Proc.run_bind, Proc.run_pure,
        Proc.run_modify, ne_eq, not_true_eq_false, if_false]
      refine ⟨trivial, fun id => ?_, ?_⟩
      · have hget : snap.records.get? id = none := by
          rw [Dict.get?, hnil]
          rfl
        rw [World.record?, hsnap]
        exact hget
      · rw [World.inbox, hsnap]
        exact hinbox.symm

/-- **Every start**, cut short anywhere, leaves the files in order; when it succeeds, the process is ready and
    synced with its snapshot. -/
theorem crash_start {w : World} (pass : StartPass) (h : Durable lost ⟨w, none⟩) :
    (∀ k, Durable lost (applyAll Watched.apply ⟨w, none⟩ ((w.start config pass).effects.take k))) ∧
      ((w.start config pass).result = .ok () →
        Ready lost (w.start config pass).state ⟨w.after (w.start config pass).effects, none⟩ ∧
          Synced (w.start config pass).state (w.after (w.start config pass).effects)) := by
  have hrecover : Crash Watched.apply (Durable lost) (fun s t => s.file = w.snapshot ∧ Reading lost (fun _ => True) s t)
      (maybeRecover config pass.env true) _ :=
    crash_maybeRecover config (fun id => by rintro ⟨_, h⟩; cases h) true
  obtain ⟨hcrash, _, hok⟩ := hrecover w.boot ⟨w, none⟩ ⟨rfl, h.boot⟩
  refine ⟨hcrash, fun hresult => ?_⟩
  obtain ⟨hready, hsynced⟩ := hok hresult
  have hpending := hready.pending
  change Ready lost (w.start config pass).state
    (applyAll Watched.apply ⟨w, none⟩ (w.start config pass).effects) at hready
  change (applyAll Watched.apply ⟨w, none⟩ (w.start config pass).effects).pending = none at hpending
  rw [Watched.applyAll_eq] at hready hpending
  simp only at hpending
  rw [hpending] at hready
  refine ⟨hready, ?_⟩
  by_cases hrecords : ∃ snap, w.snapshot = some snap ∧ snap.records.entries ≠ []
  · have hsync := hsynced hrecords
    rw [Watched.applyAll_eq] at hsync
    exact hsync
  · have hno (snap : ProcessSnapshot) (hsnap : w.snapshot = some snap) : snap.records.entries = [] :=
      not_not.mp fun hne => hrecords ⟨snap, hsnap, hne⟩
    obtain ⟨heffects, hsync⟩ := start_synced_of_no_records config pass h hno
    rw [heffects]
    exact hsync

end

end HermesPayments
