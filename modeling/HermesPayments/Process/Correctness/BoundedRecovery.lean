import HermesPayments.Lib.Polling
import HermesPayments.Process.Correctness.Reproduction
import Mathlib.Data.Rat.Floor

/-!
# `HermesPayments.Process.Correctness.BoundedRecovery` — `recover` ends, and only looks

The loop of `recover` runs while an intent is pending and there is time left. Its passes are polling rounds (`Lib.Polling`):
whatever the adapter answers, the loop ends within `⌈W / p⌉ + 1` of them, `W` being the time it may wait and `p` the time it
sleeps between two passes.

Each pass reads back the snapshot that the pass before has written, so a process that matches its snapshot matches it after
any number of passes, and what a pass says of an intent replaces what the last one said (`AfterPasses`). Nothing else moves:
a pass asks the adapter and logs, the store stays, and of the states only `EXECUTING` becomes `RECONCILIATION_REQUIRED`
(`ReadsOnly`). A payment that the adapter reports complete waits there for its receipt (`recover_bounded`).
-/

namespace HermesPayments

open Lib PaymentState

/-! ## The loop -/

/-- Does the loop end, with this much time elapsed? -/
def recoverStops (maxWait elapsed : Rat) (s : ProcessState) : Bool :=
  !(s.orchestrator.intents.values.any IntentRecord.pending) || maxWait ≤ elapsed

/-- One pass of `recover`, and whether the loop ends after it. -/
def recoverRound (config : ProcessConfig) (now : Int) (maxWait : Rat) (pass : Nat → RecoveryPass) (k : Nat) :
    Process Bool := do
  maybeRecover config (fun intentId => ⟨now, (pass k).adapter intentId, false⟩) true
  let s ← Proc.get
  return recoverStops maxWait (pass k).elapsed s

/-- The loop `while True` of `recover`, observed for at most `fuel` passes: how many it has made when it ends. -/
def recoverPasses (config : ProcessConfig) (now : Int) (maxWait : Rat) (pass : Nat → RecoveryPass) (fuel : Nat) :
    Process (Option Nat) := Proc.poll (recoverRound config now maxWait pass) fuel 0

/-- The environment of a command in which the outside is ready for `m` passes after the first. -/
def ProcessEnv.offering (penv : ProcessEnv) (pass : Nat → RecoveryPass) (m : Nat) : ProcessEnv :=
  { penv with firstPass := pass 0, passes := (List.range' 1 m).map pass }

section

variable {config : ProcessConfig} {penv : ProcessEnv} {now : Int} {maxWait : Rat} {pass : Nat → RecoveryPass} {k : Nat}
  {s s' : ProcessState} {es : List ProcessEffect}

/-- The adapter as the policy engine reaches it in a pass. -/
abbrev passEnv (now : Int) (pass : Nat → RecoveryPass) (k : Nat) (intentId : String) : Env :=
  ⟨now, (pass k).adapter intentId, false⟩

/-- A round whose pass returns. -/
theorem run_recoverRound (h : (maybeRecover config (passEnv now pass k) true).run s = ⟨.ok (), s', es⟩) :
    (recoverRound config now maxWait pass k).run s = ⟨.ok (recoverStops maxWait (pass k).elapsed s'), s', es⟩ := by
  rw [recoverRound, Proc.run_bind_ok h, Proc.run_bind, Proc.run_get]
  simp

theorem run_recoverRound_error {e : Exc} (h : (maybeRecover config (passEnv now pass k) true).run s = ⟨.error e, s', es⟩) :
    (recoverRound config now maxWait pass k).run s = ⟨.error e, s', es⟩ := by
  rw [recoverRound, Proc.run_bind_error h]

/-- The loop of `recover` after a pass that returns, when no other follows. -/
theorem run_recoverLoop_nil (h : (maybeRecover config (passEnv penv.now pass k) true).run s = ⟨.ok (), s', es⟩) :
    (recoverLoop config penv maxWait (pass k) []).run s = ⟨.ok (), s', es⟩ := by
  rw [recoverLoop, Proc.run_bind_ok h, Proc.run_bind_ok (Proc.run_get s')]
  simp

/-- … and when one does. -/
theorem run_recoverLoop_cons (h : (maybeRecover config (passEnv penv.now pass k) true).run s = ⟨.ok (), s', es⟩)
    (next : RecoveryPass) (rest : List RecoveryPass) :
    (recoverLoop config penv maxWait (pass k) (next :: rest)).run s
      = Proc.after es ((if recoverStops maxWait (pass k).elapsed s' then pure ()
          else recoverLoop config penv maxWait next rest : Process Unit).run s') := by
  rw [recoverLoop, Proc.run_bind_ok h, Proc.run_bind_ok (Proc.run_get s')]
  rfl

/-- Both loops end alike in a pass that raises or that is the last. -/
theorem run_recoverLoop_round (rest : List RecoveryPass) (fuel : Nat)
    (hgo : ∀ s' es, (maybeRecover config (passEnv penv.now pass k) true).run s = ⟨.ok (), s', es⟩ →
      recoverStops maxWait (pass k).elapsed s' = false → (recoverLoop config penv maxWait (pass k) rest).run s
        = (Proc.poll (recoverRound config penv.now maxWait pass) (fuel + 1) k >>= fun _ => pure ()).run s) :
    (recoverLoop config penv maxWait (pass k) rest).run s
      = (Proc.poll (recoverRound config penv.now maxWait pass) (fuel + 1) k >>= fun _ => pure ()).run s := by
  rcases hpass : (maybeRecover config (passEnv penv.now pass k) true).run s with ⟨_ | _, s₁, es₁⟩
  · rw [Proc.run_bind_error (Proc.run_poll_error (run_recoverRound_error hpass)), recoverLoop.eq_def]
    exact Proc.run_bind_error hpass
  · cases hstop : recoverStops maxWait (pass k).elapsed s₁ with
    | true =>
        have hround := @run_recoverRound config penv.now maxWait pass k s s₁ es₁ hpass
        rw [hstop] at hround
        rw [Proc.run_bind_ok (Proc.run_poll_stop hround)]
        cases rest with
        | nil =>
            rw [run_recoverLoop_nil hpass]
            simp
        | cons next rest =>
            rw [run_recoverLoop_cons hpass, hstop]
            simp
    | false => exact hgo s₁ es₁ hpass hstop

/-- **The loop of `recover`** over the passes of its environment is the loop observed for as many. -/
theorem run_recoverLoop (m : Nat) : (recoverLoop config penv maxWait (pass k) ((List.range' (k + 1) m).map pass)).run s
    = (Proc.poll (recoverRound config penv.now maxWait pass) (m + 1) k >>= fun _ => pure ()).run s := by
  induction m generalizing k s with
  | zero =>
      refine run_recoverLoop_round _ 0 fun s₁ es₁ hpass hstop => ?_
      have hround := @run_recoverRound config penv.now maxWait pass k s s₁ es₁ hpass
      rw [hstop] at hround
      show (recoverLoop config penv maxWait (pass k) []).run s = _
      rw [run_recoverLoop_nil hpass, Proc.run_bind, Proc.run_poll_go hround]
      simp [Proc.poll]
  | succ m ih =>
      refine run_recoverLoop_round _ (m + 1) fun s₁ es₁ hpass hstop => ?_
      have hround := @run_recoverRound config penv.now maxWait pass k s s₁ es₁ hpass
      rw [hstop] at hround
      show (recoverLoop config penv maxWait (pass k) (pass (k + 1) :: (List.range' (k + 1 + 1) m).map pass)).run s = _
      rw [run_recoverLoop_cons hpass, hstop, if_neg Bool.false_ne_true, ih, Proc.run_bind, Proc.run_bind,
        Proc.run_poll_go hround]
      rcases (Proc.poll (recoverRound config penv.now maxWait pass) (m + 1) (k + 1)).run s₁ with ⟨_ | _, s₂, es₂⟩
      · rfl
      · simp

/-! ## What a pass leaves -/

/-- The snapshot file holds the records in memory. -/
def ProcessState.Matching (s : ProcessState) : Prop :=
  ∀ id, s.file.bind (fun snapshot => snapshot.records.get? id) = (s.orchestrator.record? id).map IntentRecord.snapshot

/-- What is left of the record of an intent after a number of passes: what the last of them has made of it. -/
def afterPasses (isAlnum : Char → Bool) (now : Int) (pass : Nat → RecoveryPass) (id : String) :
    Nat → IntentRecord → IntentRecord
  | 0, r => r
  | k + 1, r => r.snapshot.answered isAlnum (passEnv now pass k id)

/-- The process `s'` is `s` after a number of passes. -/
structure AfterPasses (config : ProcessConfig) (now : Int) (pass : Nat → RecoveryPass) (s : ProcessState) (k : Nat)
    (s' : ProcessState) : Prop where
  matching   : s'.Matching
  restorable : s'.orchestrator.Restorable
  store      : s'.orchestrator.store = s.orchestrator.store
  records    : ∀ id, s'.orchestrator.record? id
    = (s.orchestrator.record? id).map (afterPasses config.isAlnum now pass id k)

section

variable {isAlnum : Char → Bool} {env env' : Env}

/-- A record is left in its state, but for one in `EXECUTING`. -/
theorem SnapshotRecord.answered_state (d : SnapshotRecord) :
    (d.answered isAlnum env).state = if d.state = EXECUTING then RECONCILIATION_REQUIRED else d.state := by
  unfold answered
  split <;> rfl

theorem SnapshotRecord.answered_state_ne (d : SnapshotRecord) : (d.answered isAlnum env).state ≠ EXECUTING := by
  rw [answered_state]
  split
  · nofun
  · next hne => exact hne

/-- Nothing of what a pass leaves is lost in the snapshot. -/
theorem SnapshotRecord.restore_answered (d : SnapshotRecord) :
    (d.answered isAlnum env).snapshot.restore = d.answered isAlnum env := by
  rw [IntentRecord.restore_iff]
  unfold answered
  split <;> exact ⟨rfl, rfl⟩

/-- The next pass reads back what this one has left. -/
theorem SnapshotRecord.answered_answered (d : SnapshotRecord) :
    (d.answered isAlnum env).snapshot.answered isAlnum env' = d.answered isAlnum env' := by
  have hback : (d.answered isAlnum env).snapshot.recovered = d.answered isAlnum env := by
    have hstate : (d.answered isAlnum env).snapshot.state ≠ EXECUTING := d.answered_state_ne
    rw [recovered, if_neg hstate, restore_answered]
    rfl
  by_cases hstate : d.recovered.state = RECONCILIATION_REQUIRED
  · have hd : d.answered isAlnum env
        = { d.recovered with reconciliation := d.prepared.map (queryResult isAlnum env d.intent.amountSat) } := if_pos hstate
    rw [answered, hback, hd, if_pos hstate, answered, if_pos hstate]
    rfl
  · have hd : d.answered isAlnum env = d.recovered := if_neg hstate
    rw [answered, hback, hd, if_neg hstate, answered, if_neg hstate]

theorem SnapshotRecord.answered_restorable {d : SnapshotRecord} {id : String} (h : d.restore.Consistent id) :
    (d.answered isAlnum env).Restorable id := by
  refine ⟨?_, d.restore_answered⟩
  have hd : d.recovered.Consistent id := recovered_consistent h
  unfold answered
  split
  · exact ⟨hd.intent_id, hd.expiresAt, hd.state, hd.quote, hd.quote_isSome, hd.prepared_isSome, hd.approval,
      hd.approval_isSome, hd.approval_none⟩
  · exact hd

end

/-- What a pass makes of the record that the passes before it have left. -/
theorem answered_afterPasses (isAlnum : Char → Bool) (now : Int) (pass : Nat → RecoveryPass) (id : String) (k : Nat)
    (r : IntentRecord) : (afterPasses isAlnum now pass id k r).snapshot.answered isAlnum (passEnv now pass k id)
      = afterPasses isAlnum now pass id (k + 1) r := by
  cases k with
  | zero => rfl
  | succ k => exact r.snapshot.answered_answered

theorem AfterPasses.zero (hmatching : s.Matching) (hrestorable : s.orchestrator.Restorable) :
    AfterPasses config now pass s 0 s := by
  refine ⟨hmatching, hrestorable, rfl, fun id => ?_⟩
  cases s.orchestrator.record? id <;> rfl

/-- A pass over a snapshot that does not exist. -/
theorem run_maybeRecover_none (env : String → Env) (hfile : s.file = none) :
    (maybeRecover config env true).run s = ⟨.ok (), s, []⟩ := by
  rw [maybeRecover, Proc.run_bind_ok (Proc.run_get s), hfile]
  rfl

/-- Recovery over the snapshot of a process leaves a snapshot of what it leaves. -/
theorem Recovers.matching {snapshot : ProcessSnapshot} (h : Recovers snapshot s s')
    (hget : ∀ id, snapshot.records.get? id = (s.orchestrator.record? id).map IntentRecord.snapshot) : s'.Matching := by
  intro id
  rw [h.file]
  show (if snapshot.records.entries = [] then snapshot else s'.snapshot).records.get? id = _
  split
  · next hempty =>
      -- the file stays as it is, and there is nothing in memory that it should hold
      have hid : snapshot.records.get? id = none := by
        rw [Dict.get?, hempty]
        rfl
      have hr := hget id
      rw [hid, eq_comm, Option.map_eq_none_iff] at hr
      rw [hid, h.others id hid, hr]
      rfl
  · exact s'.get?_snapshot id

/-- **One pass** over a process that matches its snapshot returns, only looks and says of each intent what the adapter
    answers. -/
theorem run_pass (hs : s.orchestrator.Restorable) (hmatching : s.Matching) (env : String → Env) :
    ∃ s' es, (maybeRecover config env true).run s = ⟨.ok (), s', es⟩ ∧ s'.Matching ∧
      s'.orchestrator.store = s.orchestrator.store ∧
      (∀ id, s'.orchestrator.record? id
        = (s.orchestrator.record? id).map fun r => r.snapshot.answered config.isAlnum (env id)) ∧
      ∀ e ∈ es, e.readOnly = true := by
  cases hfile : s.file with
  | none =>
      -- no snapshot, and no record that it could hold
      refine ⟨s, [], run_maybeRecover_none env hfile, hmatching, rfl, fun id => ?_, fun e he => absurd he List.not_mem_nil⟩
      have hid := hmatching id
      rw [hfile] at hid
      rw [Option.map_eq_none_iff.mp hid.symm]
      rfl
  | some snapshot =>
      have hget (id : String) : snapshot.records.get? id = (s.orchestrator.record? id).map IntentRecord.snapshot := by
        have hid := hmatching id
        rw [hfile] at hid
        exact hid
      have hcons : ∀ e ∈ snapshot.records.entries, e.2.restore.Consistent e.1 := by
        intro e he
        have hid := hget e.1
        rw [Dict.get?_of_mem he, eq_comm, Option.map_eq_some_iff] at hid
        obtain ⟨r, hr, hd⟩ := hid
        exact hd ▸ (hs e.1 r hr).consistent.snapshot
      obtain ⟨s', es, hrun, hrecovers, hanswered, hes⟩ := run_maybeRecover_answered config env hfile hcons
      refine ⟨s', es, hrun, hrecovers.matching hget, hrecovers.store, fun id => ?_, hes⟩
      cases hr : s.orchestrator.record? id with
      | none =>
          rw [hrecovers.others id (by rw [hget, hr]; rfl), hr]
          rfl
      | some r => exact hanswered id r.snapshot (by rw [hget, hr]; rfl)

/-- A process after one more pass. -/
theorem AfterPasses.succ {s₀ : ProcessState} (h : AfterPasses config now pass s₀ k s) :
    ∃ s' es, (maybeRecover config (passEnv now pass k) true).run s = ⟨.ok (), s', es⟩ ∧
      AfterPasses config now pass s₀ (k + 1) s' ∧ ∀ e ∈ es, e.readOnly = true := by
  obtain ⟨s', es, hrun, hmatching, hstore, hrecords, hes⟩ :=
    @run_pass config s h.restorable h.matching (passEnv now pass k)
  refine ⟨s', es, hrun, ⟨hmatching, ?_, hstore.trans h.store, fun id => ?_⟩, hes⟩
  · intro id r hr
    rw [hrecords, Option.map_eq_some_iff] at hr
    obtain ⟨r₀, hr₀, rfl⟩ := hr
    exact SnapshotRecord.answered_restorable (h.restorable id r₀ hr₀).consistent.snapshot
  · rw [hrecords, h.records, Option.map_map]
    exact congrArg (fun f => (s₀.orchestrator.record? id).map f) (funext (answered_afterPasses _ _ _ id k))

/-! ## The command -/

/-- What `recover` does to a process `s`: it asks the adapter and logs, leaves the store and moves no intent but those in
    `EXECUTING`. -/
structure ReadsOnly {α : Type} (s : ProcessState) (out : Outcome ProcessEffect Exc ProcessState α) : Prop where
  effects : ∀ e ∈ out.effects, e.readOnly = true
  store   : out.state.orchestrator.store = s.orchestrator.store
  states  : ∀ id, (out.state.orchestrator.record? id).map IntentRecord.state
    = (s.orchestrator.record? id).map fun r => if r.state = EXECUTING then RECONCILIATION_REQUIRED else r.state

/-- A process after at least one pass. -/
theorem AfterPasses.states (h : AfterPasses config now pass s (k + 1) s') (id : String) :
    (s'.orchestrator.record? id).map IntentRecord.state = (s.orchestrator.record? id).map fun r =>
      if r.state = EXECUTING then RECONCILIATION_REQUIRED else r.state := by
  rw [h.records, Option.map_map]
  exact congrArg (fun f => (s.orchestrator.record? id).map f) (funext fun r => r.snapshot.answered_state)

/-- **The evidence of the last pass** is recorded, and the intent stays in reconciliation: whatever the adapter answers. -/
theorem AfterPasses.evidence (h : AfterPasses config now pass s (k + 1) s') (hs : s.orchestrator.Restorable) {id : String}
    {r : IntentRecord} {prep : PrepareResult} {result : ReconcileResult} (hr : s.orchestrator.record? id = some r)
    (hstate : r.state = EXECUTING ∨ r.state = RECONCILIATION_REQUIRED) (hprep : r.prepared = some prep)
    (hresult : ((pass k).adapter id).reconcileSettlement prep.preparedPayload prep.preparedHash r.intent.amountSat = .ok result) :
    s'.orchestrator.record? id = some { r with state := RECONCILIATION_REQUIRED, reconciliation := some result } := by
  have hrecovered : r.snapshot.recovered = { r with state := RECONCILIATION_REQUIRED } := by
    rw [(hs id r hr).recovered, IntentRecord.restarted]
    rcases hstate with hexec | hrec
    · rw [if_pos hexec]
    · rw [hrec, if_neg (by decide)]
  have hquery : queryResult config.isAlnum (passEnv now pass k id) r.intent.amountSat prep = result := by
    rw [queryResult, hresult]
  have hprep' : r.snapshot.prepared = some prep := hprep
  have hanswered : r.snapshot.answered config.isAlnum (passEnv now pass k id)
      = { r with state := RECONCILIATION_REQUIRED, reconciliation := some result } := by
    rw [SnapshotRecord.answered, hrecovered, if_pos rfl, hprep', Option.map_some]
    show ({ r with state := RECONCILIATION_REQUIRED, reconciliation := some (queryResult _ _ r.intent.amountSat prep) } :
      IntentRecord) = _
    rw [hquery]
  rw [h.records, hr, Option.map_some]
  exact congrArg some hanswered

/-- Recovery writes no store file. -/
theorem World.store_readOnly {es : List ProcessEffect} (hes : ∀ e ∈ es, e.readOnly = true) (w : World) :
    (w.after es).store = w.store := by
  induction es generalizing w with
  | nil => rfl
  | cons e es ih =>
      obtain ⟨he, hrest⟩ := List.forall_mem_cons.mp hes
      rw [World.after, applyAll_cons, ih hrest]
      cases e with
      | snapshotSave _ => rfl
      | verifyReceiptCall _ _ | acceptCall _ => cases he
      | peer effect =>
          cases effect with
          | send _ | receive _ => cases he
          | policy effect => cases effect <;> first | rfl | cases he

/-- A round after any number of passes. -/
theorem AfterPasses.round {W : Rat} {s₁ : ProcessState} (h : AfterPasses config now pass s k s₁) :
    ∃ stop s' es, (recoverRound config now W pass k).run s₁ = ⟨.ok stop, s', es⟩ ∧ AfterPasses config now pass s (k + 1) s' ∧
      (∀ e ∈ es, e.readOnly = true) ∧ (W ≤ (pass k).elapsed → stop = true) := by
  obtain ⟨s', es, hrun, hafter, hes⟩ := h.succ
  refine ⟨_, s', es, run_recoverRound hrun, hafter, hes, fun hlate => ?_⟩
  rw [recoverStops, decide_eq_true hlate, Bool.or_true]

/-- The loop, observed for any number of passes. -/
theorem run_recoverPasses (h : AfterPasses config now pass s 0 s) (W : Rat) (fuel : Nat) :
    ∃ answer s' es, (recoverPasses config now W pass (fuel + 1)).run s = ⟨.ok answer, s', es⟩ ∧
      (∃ k, AfterPasses config now pass s (k + 1) s') ∧ ∀ e ∈ es, e.readOnly = true := by
  obtain ⟨answer, s', es, hrun, hafter, hes, _⟩ :=
    Proc.run_poll (I := AfterPasses config now pass s) (fun _ _ h => AfterPasses.round (W := W) h) (fuel + 1) h
  refine ⟨answer, s', es, hrun, ?_, hes⟩
  cases answer with
  | none => exact ⟨0 + fuel, hafter⟩
  | some n =>
      have hpos : 0 < n := Proc.lt_of_run_poll hrun
      obtain ⟨k, rfl⟩ : ∃ k, n = k + 1 := ⟨n - 1, by omega⟩
      exact ⟨k, hafter⟩

/-- **The loop ends** within `⌈W / p⌉ + 1` passes, and no answer after them matters. -/
theorem recoverPasses_ends (h : AfterPasses config now pass s 0 s) {W p : Rat} (hp : 0 < p)
    (hwaits : Waits W p fun k => (pass k).elapsed) :
    ∃ n, n + 1 ≤ ⌈W / p⌉₊ + 1 ∧ ∃ s' es, AfterPasses config now pass s (n + 1) s' ∧ (∀ e ∈ es, e.readOnly = true) ∧
      ∀ fuel, n + 1 ≤ fuel → (recoverPasses config now W pass fuel).run s = ⟨.ok (some (n + 1)), s', es⟩ := by
  obtain ⟨N, hN, hlate⟩ := hwaits.reached hp
  obtain ⟨answer, s', es, hrun, hafter, hes, hbound, hdeadline⟩ :=
    Proc.run_poll (I := AfterPasses config now pass s) (fun _ _ h => AfterPasses.round (W := W) h) (N + 1) h
  cases answer with
  | none =>
      -- round `N` is past the deadline
      have hN' : N < 0 + (N + 1) := by omega
      cases hdeadline N (Nat.zero_le N) hN' hlate
  | some n =>
      have hpos : 0 < n := Proc.lt_of_run_poll hrun
      obtain ⟨k, rfl⟩ : ∃ k, n = k + 1 := ⟨n - 1, by omega⟩
      have hk : k + 1 ≤ 0 + (N + 1) := hbound
      refine ⟨k, by omega, s', es, hafter, hes, fun fuel hfuel => ?_⟩
      exact Proc.run_poll_more hrun (by omega)

/-- The command, from what its loop does. -/
theorem run_handle_recover {maxWait pollInterval : PyFloat} {W p : Rat} (hW : boundedFloat 0 720 maxWait = some W)
    (hp : boundedFloat (1 / 100) 60 pollInterval = some p) {m : Nat} {answer : Option Nat}
    (hloop : (recoverPasses config penv.now W pass (m + 1)).run s = ⟨.ok answer, s', es⟩) :
    ∃ line, s.handle config (penv.offering pass m) (.ok (.recover (some maxWait) (some pollInterval)))
      = ⟨.ok line, { s' with file := some s'.snapshot }, es ++ [.snapshotSave s'.snapshot]⟩ := by
  have hrecover : (recoverLoop config (penv.offering pass m) W (penv.offering pass m).firstPass
      (penv.offering pass m).passes).run s = ⟨.ok (), s', es⟩ := by
    have hloop' : (Proc.poll (recoverRound config (penv.offering pass m).now W pass) (m + 1) 0).run s = ⟨.ok answer, s', es⟩ :=
      hloop
    have heq := @run_recoverLoop config (penv.offering pass m) W pass 0 s m
    rw [Proc.run_bind_ok hloop'] at heq
    refine heq.trans ?_
    simp
  obtain ⟨resp, hhandler⟩ : ∃ resp, (handler config (penv.offering pass m)
      (.recover (some maxWait) (some pollInterval))).run s = ⟨.ok resp, s', es⟩ := by
    rw [handler, handleRecover]
    simp only [hW, hp]
    rw [Proc.run_bind_ok hrecover, Proc.run_bind_ok (Proc.run_get s')]
    simp
  rw [run_handleLine hhandler]
  exact ⟨_, rfl⟩

/-- The snapshot matches a process whose file it is. -/
theorem Synced.matching {w : World} (h : Synced s w) (hfile : s.file = w.snapshot) : s.Matching := by
  intro id
  rw [hfile]
  exact h.records id

/-- … as it is after any activity whose snapshot has been written. -/
theorem FaultRun.synced {h : List (Event Node FaultEvent)} {w : World} (hrun : FaultRun config h ⟨w, some s⟩) (a : Activity) :
    Synced ((a.run config true).run s).state (w.after ((a.run config true).run s).effects) := by
  obtain ⟨_, hfile, _⟩ := (FaultRun.restorable (hrun.snoc (.performed w s a true))).2 _ rfl
  have hsnapshot := hfile.symm.trans (file_run config a s)
  refine ⟨fun id => ?_, ?_⟩
  · rw [World.record?, hsnapshot]
    exact ProcessState.get?_snapshot _ id
  · rw [World.inbox, hsnapshot]
    rfl

/-- **`recover` is bounded and only looks.** From every reachable process that matches its snapshot, for every wait `W` and
    poll interval `p` that it accepts and whatever the adapter answers, it ends after some `n ≤ ⌈W / p⌉ + 1` passes. After any
    number of them, and at its end, nothing has been prepared, dispatched or stored, and no intent has moved but from
    `EXECUTING` to `RECONCILIATION_REQUIRED`. There an intent stays whose query the last pass answered, `COMPLETE` or not. -/
theorem recover_bounded {h : List (Event Node FaultEvent)} {w : World} (hrun : FaultRun config h ⟨w, some s⟩)
    (hsynced : Synced s w) {maxWait pollInterval : PyFloat} {W p : Rat} (hW : boundedFloat 0 720 maxWait = some W)
    (hp : boundedFloat (1 / 100) 60 pollInterval = some p) (penv : ProcessEnv)
    (hwaits : Waits W p fun k => (pass k).elapsed) :
    ∃ n ≤ ⌈W / p⌉₊ + 1,
      (∀ fuel, n ≤ fuel → ((recoverPasses config penv.now W pass fuel).run s).result = .ok (some n)) ∧
      (∀ fuel, ReadsOnly s ((recoverPasses config penv.now W pass (fuel + 1)).run s)) ∧
      ∀ m, n ≤ m + 1 →
        let out := s.handle config (penv.offering pass m) (.ok (.recover (some maxWait) (some pollInterval)))
        (∃ line, out.result = .ok line) ∧ ReadsOnly s out ∧ (w.after out.effects).store = w.store ∧
          out.effects = ((recoverPasses config penv.now W pass n).run s).effects ++ [.snapshotSave out.state.snapshot] ∧
          ∀ id r prep result, s.orchestrator.record? id = some r →
            r.state = EXECUTING ∨ r.state = RECONCILIATION_REQUIRED → r.prepared = some prep →
            ((pass (n - 1)).adapter id).reconcileSettlement prep.preparedPayload prep.preparedHash r.intent.amountSat
              = .ok result →
            out.state.orchestrator.record? id
              = some { r with state := RECONCILIATION_REQUIRED, reconciliation := some result } := by
  obtain ⟨_, hfile, hrestorable⟩ := (FaultRun.restorable hrun).2 s rfl
  have hzero : AfterPasses config penv.now pass s 0 s := .zero (hsynced.matching hfile) hrestorable
  have hpos : 0 < p := by
    rw [boundedFloat, Option.bind_eq_some_iff] at hp
    obtain ⟨v, _, hv⟩ := hp
    split at hv
    · next hbounds =>
        cases hv
        exact lt_of_lt_of_le (by norm_num) hbounds.1
    · cases hv
  obtain ⟨n, hn, s', es, hafter, hes, hends⟩ := recoverPasses_ends hzero hpos hwaits
  refine ⟨n + 1, hn, fun fuel hfuel => ?_, fun fuel => ?_, fun m hm => ?_⟩
  · rw [hends fuel hfuel]
  · obtain ⟨answer, s₁, es₁, hloop, ⟨k, hafter₁⟩, hes₁⟩ := run_recoverPasses hzero W fuel
    rw [hloop]
    exact ⟨hes₁, hafter₁.store, hafter₁.states⟩
  · intro out
    obtain ⟨line, hout⟩ := run_handle_recover hW hp (hends (m + 1) hm)
    have heffects : ∀ e ∈ es ++ [.snapshotSave s'.snapshot], e.readOnly = true :=
      List.forall_mem_append.mpr ⟨hes, List.forall_mem_singleton.mpr rfl⟩
    have hout' : out = _ := hout
    rw [hout', hends (n + 1) le_rfl]
    refine ⟨⟨line, rfl⟩, ⟨heffects, hafter.store, hafter.states⟩, w.store_readOnly heffects, rfl, ?_⟩
    intro id r prep result hr hstate hprep hresult
    exact hafter.evidence hrestorable hr hstate hprep hresult

end

namespace Sample

/-- Half a second passes between two passes; the payment is pending in the first and complete from then on. -/
def polls (k : Nat) : RecoveryPass where
  adapter _ := { adapter paid with
    reconcileSettlement := fun _ _ _ => .ok { status := if k = 0 then "PENDING" else "COMPLETE" } }
  elapsed   := k / 2

theorem polls_waits : Waits 1 (1 / 2) fun k => (polls k).elapsed := by
  refine ⟨by simp [polls], fun k _ => ?_⟩
  show (k : Rat) / 2 + min (1 / 2) (1 - (k : Rat) / 2) ≤ ((k + 1 : Nat) : Rat) / 2
  have hmin : min (1 / 2) (1 - (k : Rat) / 2) ≤ 1 / 2 := min_le_left _ _
  push_cast
  linarith

end Sample

/-- A payment left in `EXECUTING`, which the wallet has completed, waits in `RECONCILIATION_REQUIRED`. -/
theorem recover_bounded_complete : ∃ n ≤ ⌈(1 : Rat) / (1 / 2)⌉₊ + 1, ∀ m, n ≤ m + 1 →
    ((((Sample.failingExecute.run Sample.process true).run Sample.readyToPay.2).state.handle Sample.process
      (Sample.penv.offering Sample.polls m) (.ok (.recover (some (.finite 1 "1.0" (by decide)))
        (some (.finite (1 / 2) "0.5" (by decide)))))).state.orchestrator.record? "i").map IntentRecord.state
      = some RECONCILIATION_REQUIRED := by
  obtain ⟨h, hrun⟩ : ∃ h, FaultRun Sample.process h ⟨Sample.readyToPay.1, some Sample.readyToPay.2⟩ :=
    ⟨_, Sample.booted_faultRun.performs Sample.process (Sample.calls (Sample.approved "i" 0))⟩
  have hmaxWait : boundedFloat 0 720 (.finite 1 "1.0" (by decide)) = some 1 := by
    norm_num [boundedFloat, PyFloat.value]
  have hpollInterval : boundedFloat (1 / 100) 60 (.finite (1 / 2) "0.5" (by decide)) = some (1 / 2) := by
    norm_num [boundedFloat, PyFloat.value]
  obtain ⟨n, hn, _, _, hcommand⟩ := recover_bounded (hrun.snoc (.performed _ _ Sample.failingExecute true))
    (FaultRun.synced hrun Sample.failingExecute) hmaxWait hpollInterval Sample.penv Sample.polls_waits
  refine ⟨n, hn, fun m hm => ?_⟩
  obtain ⟨_, hreads, _⟩ := hcommand m hm
  rw [hreads.states "i"]
  rfl

end HermesPayments
