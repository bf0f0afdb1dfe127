import HermesPayments.Exchange.Payload
import HermesPayments.Exchange.Provenance
import HermesPayments.Process.Answers
import HermesPayments.Wavelength.Correctness.BoundSend
import HermesPayments.Wavelength.Correctness.Envelopes
import HermesPayments.Wavelength.Executor

/-!
# `HermesPayments.Exchange.Wallet` — processes over wavecli

The parties of an exchange run over the Wavelength adapter, and that over subprocesses. What a party does is then seen as
the commands it hands to wavecli (`ProcessEffect.commands`). Only a dispatch pays (`execute_of_pays`): it sends the token of
the preview whose payload it is, and the preview was asked for by the same party before (`PreparedFrom.previewedBy`).
-/

namespace HermesPayments

open Lib PaymentState WavelengthAdapter

/-! ## Commands -/

/-- What an effect of a process hands to wavecli. -/
def ProcessEffect.commands (w : WavelengthAdapter) (py : PyRuntime) (env : WavecliEnv) :
    ProcessEffect → List (List String)
  | .peer (.policy (.prepareCall _ instruction amountSat maxFeeSat _)) =>
      ((w.prepare py env instruction amountSat maxFeeSat).run ()).effects
  | .peer (.policy (.executeCall _ payload preparedHash)) => ((w.execute py env payload preparedHash).run ()).effects
  | .peer (.policy (.verifyCall _ ref amountSat _)) => ((w.verifySenderSettlement py env ref amountSat).run ()).effects
  | .peer (.policy (.reconcileCall _ payload preparedHash amountSat)) =>
      ((w.reconcileSettlement py env payload preparedHash amountSat).run ()).effects
  | .verifyReceiptCall ref amountSat => ((w.verifyReceipt py env ref amountSat).run ()).effects
  | .peer (.policy (.storeSave _)) | .peer (.policy (.auditAppend _)) | .peer (.send _) | .peer (.receive _)
  | .snapshotSave _ | .acceptCall _ => []

section

variable {w : WavelengthAdapter} {py : PyRuntime} {env : WavecliEnv}

/-- The command is a raw `Send`, of whatever request: it pays. -/
def Pays (w : WavelengthAdapter) (cmd : List String) : Prop := ∃ request, cmd = w.rawRpcCmd "Send" request

/-- A query of the activity pays nothing. -/
theorem activityCmd_pays_nothing (kind : String) : ¬ Pays w (w.activityCmd kind) := by
  rintro ⟨request, h⟩
  unfold rawRpcCmd buildRawRpcCmd activityCmd buildWavecliActivityCmd at h
  rw [Option.elim_none, List.append_nil, List.append_assoc] at h
  exact absurd (List.cons.inj (List.append_cancel_left h)).1 (by decide)

/-- … and neither does a preview. -/
theorem prepareCmd_pays_nothing (invoice : String) (maxFeeSat : Int) : ¬ Pays w (w.prepareCmd invoice maxFeeSat) := by
  rintro ⟨request, h⟩
  have hmethod := List.append_cancel_left h
  exact absurd (List.cons.inj (List.cons.inj (List.cons.inj hmethod).2).2).1 (by decide)

/-- `prepare` asks for a preview, and for nothing else. -/
theorem only_prepare (instruction : RailReceiveInstruction) (amountSat maxFeeSat : Int) :
    Proc.Only (fun cmd => cmd = w.prepareCmd (instruction.invoice.getD "") maxFeeSat)
      (w.prepare py env instruction amountSat maxFeeSat) := by
  refine (Proc.Only.still (Proc.Still.ofExcept _)).bind fun _ => (Proc.Only.still (Proc.Still.ofExcept _)).bind fun _ => ?_
  refine Proc.Only.bind (fun _ cmd hcmd => List.mem_singleton.mp hcmd) fun answer => ?_
  refine (Proc.Only.still (Proc.Still.ofExcept _)).bind fun _ => (Proc.Only.still (Proc.Still.ofExcept _)).bind fun _ => ?_
  exact (Proc.Only.still (Proc.Still.ofExcept _)).bind fun _ => .still (Proc.Still.pure _)

/-- A preview that came back was asked for. -/
theorem prepareCmd_mem {instruction : RailReceiveInstruction} {amountSat maxFeeSat : Int} {prep : PrepareResult}
    (h : ((w.prepare py env instruction amountSat maxFeeSat).run ()).result = .ok prep) :
    w.prepareCmd (instruction.invoice.getD "") maxFeeSat ∈ ((w.prepare py env instruction amountSat maxFeeSat).run ()).effects := by
  obtain ⟨hinvoice, -⟩ := prepare_returns_iff.mp h
  have hrail : ¬ instruction.rail ≠ .LIGHTNING := by cases instruction.rail; simp
  have hasked : (env.run (w.prepareCmd (instruction.invoice.getD "") maxFeeSat)).run ()
      = ⟨.ok (env.executor (w.prepareCmd (instruction.invoice.getD "") maxFeeSat)), (),
          [w.prepareCmd (instruction.invoice.getD "") maxFeeSat]⟩ := rfl
  have hpass {c : Prop} [Decidable c] {e : AdapterExc} (hc : ¬ c) :
      (Proc.ofExcept (raiseIf c e) : Wavecli Unit).run () = ⟨.ok (), (), []⟩ := by
    rw [raiseIf_eq_ok.mpr hc]
    rfl
  unfold WavelengthAdapter.prepare
  rw [Proc.run_bind_ok (hpass hrail), Proc.run_bind_ok (hpass hinvoice), Proc.run_bind_ok hasked]
  exact List.mem_cons_self

/-- `reconcile_settlement` asks for the activity, if for anything. -/
theorem effects_reconcileSettlement {payload : Bytes} {preparedHash : String} {amountSat : Int} {cmd : List String}
    (h : cmd ∈ ((w.reconcileSettlement py env payload preparedHash amountSat).run ()).effects) :
    cmd = w.activityCmd "send" := by
  by_cases hprepared : ∃ ref, Prepared py payload preparedHash ref amountSat
  · obtain ⟨ref, hprepared⟩ := hprepared
    rw [run_reconcileSettlement_prepared hprepared] at h
    exact List.mem_singleton.mp h
  · obtain ⟨out, hunasked, hrun⟩ := @reconcileSettlement_unprepared w py payload preparedHash amountSat hprepared
    rw [hrun env, hunasked.1] at h
    cases h

/-- **Only a dispatch pays**: it sends the token in a payload that passes every check. -/
theorem execute_of_pays {effect : ProcessEffect} {cmd : List String} (hpays : Pays w cmd)
    (hcmd : cmd ∈ effect.commands w py env) : ∃ id payload hash decoded token,
      effect = .peer (.policy (.executeCall id payload hash)) ∧
        checkPayload py env payload hash = .ok (decoded, token) ∧ cmd = w.sendCmd token := by
  have hquery (kind : ActivityKind) {ref : String} {amountSat : Int}
      (hcmd : cmd ∈ ((w.verifyActivity py env kind ref amountSat).run ()).effects) : False := by
    rw [run_verifyActivity] at hcmd
    exact activityCmd_pays_nothing _ (List.mem_singleton.mp hcmd ▸ hpays)
  cases effect with
  | snapshotSave _ | acceptCall _ => cases hcmd
  | verifyReceiptCall ref amountSat => exact (hquery .recv hcmd).elim
  | peer effect =>
      cases effect with
      | send _ | receive _ => cases hcmd
      | policy effect =>
          cases effect with
          | storeSave _ | auditAppend _ => cases hcmd
          | verifyCall _ ref amountSat _ => exact (hquery .send hcmd).elim
          | reconcileCall _ _ _ _ =>
              exact absurd (effects_reconcileSettlement hcmd ▸ hpays) (activityCmd_pays_nothing _)
          | prepareCall _ instruction amountSat maxFeeSat _ =>
              exact absurd (only_prepare instruction amountSat maxFeeSat () _ hcmd ▸ hpays) (prepareCmd_pays_nothing _ _)
          | executeCall id payload hash =>
              replace hcmd : cmd ∈ ((w.execute py env payload hash).run ()).effects := hcmd
              cases hchecked : checkPayload py env payload hash with
              | error e =>
                  rw [effects_execute_refused hchecked] at hcmd
                  cases hcmd
              | ok checked =>
                  rw [effects_execute hchecked] at hcmd
                  exact ⟨id, payload, hash, checked.1, checked.2, rfl, hchecked, List.mem_singleton.mp hcmd⟩

end

/-! ## The wallets of the parties -/

section

variable {ι : Type} (config : ι → ProcessConfig) (w : ι → WavelengthAdapter) (py : PyRuntime)

/-- The line is handled over wavecli: the adapter answers what the subprocesses of the line come to. -/
def OverWavecli (w : WavelengthAdapter) (py : PyRuntime) (penv : ProcessEnv) (env : WavecliEnv) : Prop :=
  penv.adapter = w.settlementAdapter py env ∧ ∃ now spawn, env = .ofSubprocess py now spawn

/-- Every line of the history is handled over wavecli. -/
def LinesOverWavecli (h : ExchangeHistory ι) : Prop :=
  ∀ e ∈ h, ∀ p event, e.seen = .party p event → ∀ penv parsed, event.line? = some (penv, parsed) →
    ∃ env, OverWavecli (w p) py penv env

theorem LinesOverWavecli.take {w : ι → WavelengthAdapter} {py : PyRuntime} {h : ExchangeHistory ι} {j : Nat}
    (hover : LinesOverWavecli w py h) : LinesOverWavecli w py (h.take j) :=
  fun e he => hover e (List.mem_of_mem_take he)

/-- A party hands a command to wavecli in the event, for an effect of its line. What a recovery asks, it asks over a pass of
    its own. -/
structure Issues (e : Event (Exchange ι) (ExchangeEvent ι)) (p : ι) (env : WavecliEnv) (effect : ProcessEffect)
    (cmd : List String) : Prop where
  line    : ∃ event penv parsed, e.seen = .party p event ∧ event.line? = some (penv, parsed) ∧
    OverWavecli (w p) py penv env ∧ effect ∈ event.performed (config p) (e.before.nodes p)
  active  : effect.readOnly = false
  command : cmd ∈ effect.commands (w p) py env

/-- The raw `PrepareSend` for what a quote of the intent asks. -/
def previewCmd (w : WavelengthAdapter) (i : PaymentIntent) (q : PaymentQuote) : List String :=
  w.prepareCmd (q.receiveInstruction.invoice.getD "") i.maxFeeSat

/-- The daemon has previewed the payment of the intent, in answer to the `PrepareSend` of the party. -/
structure PreviewedBy (h : ExchangeHistory ι) (p : ι) (i : PaymentIntent) (q : PaymentQuote) (prev : Preview) : Prop where
  asked     : ∃ e ∈ h, ∃ env effect data, Issues config w py e p env effect (previewCmd (w p) i q) ∧
    env.executor (previewCmd (w p) i q) = .ok data ∧ parsePrepareResponse py data = .ok prev
  amountSat : prev.amountSat = i.amountSat
  fee       : prev.expectedFeeSat ≤ i.maxFeeSat
  total     : prev.expectedTotalOutflowSat = prev.amountSat + prev.expectedFeeSat

end

section

variable {ι : Type} [DecidableEq ι] {config : ι → ProcessConfig} {w : ι → WavelengthAdapter} {py : PyRuntime}
  {h : ExchangeHistory ι} {x : Exchange ι} {p : ι} {id : String} {i : PaymentIntent} {prep : PrepareResult}
  {q : PaymentQuote}

/-- **What is prepared was previewed**: the payload is that of the daemon's answer to a `PrepareSend` of the party. -/
theorem PreparedFrom.previewedBy (hrun : ExchangeRun config h x) (hback : Json.ReadsBack py.readFloat)
    (hover : LinesOverWavecli w py h) (hprep : PreparedFrom config h p id i prep q) :
    ∃ prev, PreviewedBy config w py h p i q prev ∧ prev.sendIntentId.WellRead py.readFloat ∧
      prep = previewed py prev (q.receiveInstruction.invoice.getD "") i.maxFeeSat := by
  obtain ⟨e, he, event, hseen, hw⟩ := hprep.prepared
  obtain ⟨_, _, hstep⟩ := hrun.of_mem he
  rw [hseen] at hstep
  generalize e.after = x' at hstep
  cases hstep with
  | party hnode _ =>
      obtain ⟨s, penv, c, _, hline, hmem⟩ := hnode.handles hw rfl
      obtain ⟨env, hadapter, now, spawn, rfl⟩ := hover e he p event hseen penv _ hline
      have hanswer : .ok prep = penv.adapter.prepare q.receiveInstruction i.amountSat i.maxFeeSat :=
        (handler_step (config p) penv s c).answered hmem
      rw [hadapter] at hanswer
      obtain ⟨_, data, prev, hexecutor, hparse, hcheck, hbound⟩ := prepare_returns_iff.mp hanswer.symm
      obtain ⟨_, hamount, hfee, htotal⟩ := checkPreview_eq_ok.mp hcheck
      have hdata : data.WellRead py.readFloat := SubprocessWavecliExecutor.wellRead hback hexecutor
      refine ⟨prev, ⟨⟨e, he, _, _, data, ⟨⟨event, penv, _, hseen, hline, ⟨hadapter, now, spawn, rfl⟩, hw⟩, rfl, ?_⟩,
        hexecutor, hparse⟩, hamount, hfee, htotal⟩, ?_, hbound⟩
      · exact prepareCmd_mem hanswer.symm
      · rw [(parsePrepareResponse_members hparse).1]
        exact hdata.getD "send_intent_id" (.str "")

end

/-! ## The token -/

section

variable {py : PyRuntime} {env : WavecliEnv} {prev : Preview} {invoice preparedHash : String} {maxFeeSat : Int}
  {decoded token : Json}

/-- The token in the payload of a preview is the preview's, and the payload passes the checks only while the preview is
    open. -/
theorem checkPayload_previewed (hwell : prev.sendIntentId.WellRead py.readFloat)
    (h : checkPayload py env (preparedPayload prev invoice maxFeeSat) preparedHash = .ok (decoded, token)) :
    token.same prev.sendIntentId = true ∧ env.now < prev.expiresAtUnix := by
  obtain ⟨_, hdecode, _, htoken, _, hexpires⟩ := checkPayload_eq_ok.mp h
  have hdecoded : decoded = decodedPayload py prev invoice maxFeeSat := by
    obtain ⟨text, htext, hloads⟩ := Option.bind_eq_some_iff.mp (loads_preparedPayload py prev invoice maxFeeSat)
    rw [decodePayload, htext] at hdecode
    cases hlimit : py.limit text with
    | some m => simp [hlimit] at hdecode
    | none =>
        simp only [hlimit, hloads] at hdecode
        exact (Except.ok.inj hdecode).symm
  have hget (key : String) (v default : Json) (hv : (payloadMembers prev invoice maxFeeSat).lookup (.text key) = some v) :
      decoded.getD key default = v.reread py.readFloat payloadOptions := by
    rw [hdecoded, Json.getD, get?_decodedPayload, hv]
    rfl
  rw [hget "send_intent_id" prev.sendIntentId _ rfl] at htoken
  rw [hget "expires_at_unix" (.int prev.expiresAtUnix) _ rfl, Json.reread] at hexpires
  refine ⟨htoken ▸ hwell.same_reread, ?_⟩
  simpa [asInt?] using hexpires

end

end HermesPayments
