import HermesPayments.Process.Durability

/-!
# `HermesPayments.Process.Calls` — what a peer does for a process keeps the files in order

The crash triples of the peer's operations: reads, at most one call of the policy engine, and sends. Each
starts in a process with no dispatch pending and ends in a running one; `crash_checked` is the shape that
accepting a quote and accepting a receipt share.
-/

namespace HermesPayments

open Lib PaymentState

/-- A running process, all of whose records have been read back. -/
abbrev Running (lost : String → Prop) (s : ProcessState) (t : Watched) : Prop :=
  Live lost (fun _ => False) s.file s.orchestrator t

/-- … with no dispatch pending: a process between two commands. -/
abbrev Ready (lost : String → Prop) (s : ProcessState) (t : Watched) : Prop :=
  Idle lost (fun _ => False) s.file s.orchestrator t

section

variable {lost unread : String → Prop} {α : Type}

/-! ## From the policy engine to the process -/

theorem crash_peer_policy {C : Watched → Prop} {P Q : PaymentOrchestrator → Watched → Prop} {m : Policy α}
    (h : Crash (fun t w => Watched.apply t (.peer (.policy w))) C P m (fun _ => Q)) :
    Crash (fun t w => Watched.apply t (.peer w)) C P (Peer.policy m) (fun _ => Q) :=
  Crash.zoom (fun _ => rfl) (fun _ => h)

theorem crash_process_peer {C : Watched → Prop}
    {P Q : Option ProcessSnapshot → PaymentOrchestrator → Watched → Prop} {m : Peer α}
    (h : ∀ file, Crash (fun t w => Watched.apply t (.peer w)) C (P file) m (fun _ => Q file)) :
    Crash Watched.apply C (fun s t => P s.file s.orchestrator t) (Process.peer m)
      (fun _ s t => Q s.file s.orchestrator t) :=
  Crash.zoom (fun _ => rfl) (fun s₀ => h s₀.file)

/-- `crash_call`, for the operation itself. -/
theorem crash_op {cfg : Config} {env : Env} {file : Option ProcessSnapshot} {m : Policy α} (op : Op)
    {g : α → Answer} (hm : call cfg env op = m >>= fun a => pure (g a))
    (hpath : cfg.storePath.isSome = true) (hsave : env.saves cfg)
    (hop : (∀ id, ¬ unread id) ∨ op ≠ .execute) :
    Crash (fun t w => Watched.apply t (.peer (.policy w))) (Durable lost) (Idle lost unread file) m
      (fun _ o t => Live lost unread file o t ∧ (op ≠ .execute → t.pending = none)) := by
  have hcall : Crash (fun t w => Watched.apply t (.peer (.policy w))) (Durable lost) (Idle lost unread file)
      (call cfg env op) _ := crash_call hpath hsave op hop
  rw [hm] at hcall
  exact hcall.of_map

/-- An operation of a process that has read everything back. -/
theorem crash_op_ready {cfg : Config} {env : Env} {file : Option ProcessSnapshot} {m : Policy α} (op : Op)
    {g : α → Answer} (hm : call cfg env op = m >>= fun a => pure (g a))
    (hpath : cfg.storePath.isSome = true) (hsave : env.saves cfg) :
    Crash (fun t w => Watched.apply t (.peer (.policy w))) (Durable lost) (Idle lost (fun _ => False) file) m
      (fun _ => Live lost (fun _ => False) file) :=
  (crash_op op hm hpath hsave (.inl fun _ => id)).post (fun _ _ _ h => h.1)

theorem ProcessConfig.policy_storePath (config : ProcessConfig) : config.policy.storePath.isSome = true := rfl

theorem ProcessEnv.saves (penv : ProcessEnv) (cfg : Config) : penv.env.saves cfg := by
  rintro ⟨_, h⟩
  cases h

/-! ## Reads -/

theorem still_getRecord (id : String) : (getRecord id).Still := by
  refine Proc.Still.get.bind fun o => ?_
  split
  · exact Proc.Still.pure _
  · exact Proc.Still.raise _

theorem still_policy {m : Policy α} (hm : m.Still) : (Process.policy m).Still :=
  Proc.Still.zoom (fun _ => rfl) (Proc.Still.zoom (fun _ => rfl) hm)

theorem still_stateText (id : String) : (stateText id).Still :=
  (still_policy ((still_getRecord id).bind fun _ => Proc.Still.pure _)).bind fun _ => Proc.Still.pure _

theorem still_findInboxMessage (id : String) : (findInboxMessage id).Still := by
  refine Proc.Still.get.bind fun s => ?_
  split
  · exact Proc.Still.pure _
  · exact Proc.Still.raise _

theorem still_requireLocalAuthor (identity : AgentIdentity) (m : PaymentMessage) :
    (HermesPeer.requireLocalAuthor identity m).Still :=
  Proc.Still.ite (Proc.Still.raise _) (Proc.Still.pure _)

theorem still_requireLocalRecipient (identity : AgentIdentity) (i : PaymentIntent) :
    (HermesPeer.requireLocalRecipient identity i).Still :=
  Proc.Still.ite (Proc.Still.raise _) (Proc.Still.pure _)

/-- A response built from the state of an intent. -/
theorem still_respond (id : String) (f : Json → Response) :
    (do let state ← stateText id; return f state : Process Response).Still :=
  (still_stateText id).bind fun _ => Proc.Still.pure _

/-! ## What the peer does -/

section Peer

variable {file : Option ProcessSnapshot} (config : ProcessConfig) (penv : ProcessEnv)

/-- Assertions about a peer: its effects, and its policy engine. -/
abbrev PeerCrash (lost : String → Prop) (P : PaymentOrchestrator → Watched → Prop) (m : Peer α)
    (Q : PaymentOrchestrator → Watched → Prop) : Prop :=
  Crash (fun t w => Watched.apply t (.peer w)) (Durable lost) P m (fun _ => Q)

theorem crash_transportSend (m : PaymentMessage) :
    PeerCrash lost (Live lost unread file) (HermesPeer.transportSend penv.peer m) (Live lost unread file) := by
  refine Crash.seq (R := Live lost unread file) (Crash.emit fun o t h => ⟨h.toDurable, h.toDurable, h⟩) ?_ ?_
  · intro _
    exact Crash.ofExcept fun o t h => ⟨h.toDurable, h⟩
  · intro o t h
    exact h

theorem crash_send (m : PaymentMessage) :
    PeerCrash lost (Live lost unread file) (HermesPeer.send config.identity penv.peer m)
      (Live lost unread file) :=
  Crash.seq (Crash.still (still_requireLocalAuthor _ _) fun _ _ h => h.toDurable)
    (fun _ => crash_transportSend penv m) (fun _ _ h => h)

theorem crash_receive (limit : Option Int) :
    PeerCrash lost (Live lost unread file) (HermesPeer.receive penv.peer limit) (Live lost unread file) := by
  refine Crash.seq (R := Live lost unread file) (Crash.emit fun o t h => ⟨h.toDurable, h.toDurable, h⟩) ?_ ?_
  · intro _
    exact Crash.ofExcept fun o t h => ⟨h.toDurable, h⟩
  · intro o t h
    exact h

/-- A call of the policy engine by a ready peer. -/
theorem crash_policy {m : Policy α} (op : Op) {g : α → Answer}
    (hm : call config.policy penv.env op = m >>= fun a => pure (g a)) :
    PeerCrash lost (Idle lost (fun _ => False) file) (Peer.policy m) (Live lost (fun _ => False) file) :=
  crash_peer_policy (crash_op_ready op hm config.policy_storePath (penv.saves _))

theorem crash_submitIntent (i : PaymentIntent) :
    PeerCrash lost (Idle lost (fun _ => False) file)
      (HermesPeer.submitIntent config.policy config.identity penv.peer i)
      (Live lost (fun _ => False) file) := by
  refine Crash.seq (Crash.still (still_requireLocalAuthor _ _) fun _ _ h => h.toDurable) ?_
    (fun _ _ h => h.toLive)
  intro _
  refine Crash.seq (crash_policy config penv (.submit i) rfl) ?_ (fun _ _ h => h)
  intro _
  exact crash_transportSend penv _

theorem crash_acceptIntent (i : PaymentIntent) :
    PeerCrash lost (Idle lost (fun _ => False) file)
      (HermesPeer.acceptIntent config.policy config.identity penv.peer i)
      (Live lost (fun _ => False) file) := by
  refine Crash.seq (Crash.still (still_requireLocalRecipient _ _) fun _ _ h => h.toDurable) ?_
    (fun _ _ h => h.toLive)
  intro _
  exact crash_policy config penv (.submit i) rfl

/-- The recipient check of a quote or a receipt, then the call. -/
theorem crash_checked {c : PaymentOrchestrator → Prop} [∀ o, Decidable (c o)] {e : Exc} {m : Policy α}
    (op : Op) {g : α → Answer} (hm : call config.policy penv.env op = m >>= fun a => pure (g a)) :
    PeerCrash lost (Idle lost (fun _ => False) file)
      (do let o ← Proc.get
          if c o then Proc.raise e
          Peer.policy m)
      (Live lost (fun _ => False) file) := by
  refine Crash.seq (Crash.still Proc.Still.get fun _ _ h => h.toDurable) ?_ (fun _ _ h => h.toLive)
  intro o
  refine Crash.ite (fun _ => ?_) (fun _ => ?_)
  · exact Crash.raise_bind fun _ _ h => ⟨h.toDurable, h.toLive⟩
  · exact crash_policy config penv op hm

theorem crash_acceptQuote (q : PaymentQuote) :
    PeerCrash lost (Idle lost (fun _ => False) file) (HermesPeer.acceptQuote config.policy penv.peer q)
      (Live lost (fun _ => False) file) :=
  crash_checked config penv (.receiveQuote q) rfl

theorem crash_acceptReceipt (rc : PaymentReceipt) :
    PeerCrash lost (Idle lost (fun _ => False) file) (HermesPeer.acceptReceipt config.policy penv.peer rc)
      (Live lost (fun _ => False) file) :=
  crash_checked config penv (.receiveReceipt rc) rfl

end Peer

end

end HermesPayments
