import HermesPayments.Exchange.Correctness.Payments
import HermesPayments.Exchange.Wallet
import HermesPayments.Process.Correctness.Dispatch
import HermesPayments.Process.Jsonl
import HermesPayments.Wavelength.Runs

/-!
# `HermesPayments.Exchange.Correctness.Wallets` — what the wallets are asked to pay

Two statements about processes that exchange messages, down to the wallet. A payment that is dispatched again after a kill
is dispatched with the payload it had (`dispatch_repeats`). A `Send` that a process hands to wavecli is of the token that
the daemon gave for this payment, unexpired and within the fee cap, and it is approved; whatever else the process sends for
the intent is the same command (`sends_prepared`), so that a daemon that pays a token once pays the intent once.
-/

namespace HermesPayments

open Lib PaymentState WavelengthAdapter

section

variable {ι : Type} [DecidableEq ι] {config : ι → ProcessConfig} {h : ExchangeHistory ι} {x : Exchange ι} {p : ι}

/-- **A dispatch repeats no other payload**: all payments that a party dispatches for an intent, before and after any kills
    and restarts, have the same payload and the same hash. -/
theorem dispatch_repeats (hrun : ExchangeRun config h x) {e e' : Event (Exchange ι) (ExchangeEvent ι)}
    {event event' : NodeEvent} {id hash hash' : String} {payload payload' : Bytes} (he : e ∈ h) (he' : e' ∈ h)
    (hseen : e.seen = .party p event) (hseen' : e'.seen = .party p event')
    (hw : .peer (.policy (.executeCall id payload hash)) ∈ event.performed (config p) (e.before.nodes p))
    (hw' : .peer (.policy (.executeCall id payload' hash')) ∈ event'.performed (config p) (e'.before.nodes p)) :
    payload = payload' ∧ hash = hash' := by
  obtain ⟨j, hj⟩ := List.getElem?_of_mem he
  obtain ⟨k, hk⟩ := List.getElem?_of_mem he'
  rcases Nat.le_total j k with hle | hle
  · exact ExchangeRun.one_payload hle hrun hj hk hseen hseen' hw hw'
  · obtain ⟨rfl, rfl⟩ := ExchangeRun.one_payload hle hrun hk hj hseen' hseen hw' hw
    exact ⟨rfl, rfl⟩

end

namespace Sample

/-- The payer alone, the recipient is never started. -/
def alone (board : List PaymentMessage) (n : Node) : Exchange Party := ⟨board, Function.update unopened.nodes .payer n⟩

theorem alone_nodes (board : List PaymentMessage) (n : Node) : (alone board n).nodes .payer = n := by
  show Function.update unopened.nodes Party.payer n Party.payer = n
  rw [Function.update_self]

/-- A transport that hands out nothing. -/
def Silent (transport : PeerTransport) : Prop := ∀ limit ms, transport.receive limit = .ok ms → ms = []

theorem penv_silent : Silent penv.transport := fun _ _ hms => (Except.ok.inj hms).symm

theorem alone_step {board : List PaymentMessage} {n n' : Node} {e : NodeEvent} (hstep : NodeStep (parties .payer) n e n')
    (hsilent : ∀ penv parsed, e.line? = some (penv, parsed) → Silent penv.transport) :
    ExchangeStep parties (alone board n) (.party .payer e) (alone (board ++ sends (e.performed (parties .payer) n)) n') := by
  have hnode : NodeStep (parties .payer) ((alone board n).nodes .payer) e n' := by rwa [alone_nodes]
  have hone := ExchangeStep.party hnode (by
    intro penv parsed hline limit ms hms m hm
    rw [hsilent penv parsed hline limit ms hms] at hm
    cases hm)
  rw [alone_nodes] at hone
  have hupdate : Function.update (alone board n).nodes .payer n' = (alone board n').nodes := Function.update_idem _ _ _
  rwa [hupdate] at hone

/-- Commands in a row, each handled in this environment. -/
theorem alone_commands {penv : ProcessEnv} (hsilent : Silent penv.transport) {h : ExchangeHistory Party}
    {board : List PaymentMessage} {n : World × ProcessState}
    (hrun : ExchangeRun parties h (alone board ⟨n.1, some n.2⟩)) (cs : List Command) :
    ∃ g board', ExchangeRun parties (h ++ g)
        (alone board' ⟨(commands process penv n cs).1, some (commands process penv n cs).2⟩) ∧
      ∀ e ∈ g, ∃ c result, e.seen = .party .payer (.handled penv (.ok c) result) := by
  induction cs generalizing h board n with
  | nil => exact ⟨[], board, by rwa [List.append_nil], fun e he => absurd he List.not_mem_nil⟩
  | cons c cs ih =>
      have hstep := @alone_step board _ _ _ (.handled n.1 n.2 penv (.ok c)) (by
        rintro _ _ ⟨⟩
        exact hsilent)
      obtain ⟨g, board', hrun', hg⟩ := @ih _ _ (_, _) (hrun.snoc hstep)
      rw [List.append_assoc, List.singleton_append] at hrun'
      refine ⟨_, board', hrun', ?_⟩
      intro e he
      rcases List.mem_cons.mp he with rfl | he
      · exact ⟨c, _, rfl⟩
      · exact hg e he

theorem alone_started : ExchangeRun parties [⟨unopened, .party .payer (.started pass), alone [] ⟨booted.1, some booted.2⟩⟩]
    (alone [] ⟨booted.1, some booted.2⟩) := by
  have hunopened : unopened = alone [] ⟨.empty, none⟩ :=
    congrArg (Exchange.mk []) (Function.update_eq_self Party.payer unopened.nodes).symm
  have hnil : ExchangeRun parties [] unopened := .nil ⟨rfl, fun _ => rfl⟩
  rw [hunopened] at hnil ⊢
  exact hnil.snoc (alone_step (.started World.empty pass rfl rfl) (by
    intro _ _ hline
    cases hline))

theorem performed_handled (w : World) (s : ProcessState) (penv : ProcessEnv) (parsed : Except Exc Command)
    (result : Except Exc String) : NodeEvent.performed process ⟨w, some s⟩ (.handled penv parsed result) =
      (s.handle process penv parsed).effects := rfl

theorem penv_line {parsed : Except Exc Command} (penv' : ProcessEnv) (parsed' : Except Exc Command)
    (hline : some (penv, parsed) = some (penv', parsed')) : Silent penv'.transport := by
  cases hline
  exact penv_silent

/-- The process that was killed in `execute`, started again. -/
def relaunched : World × ProcessState :=
  (killedInExecute.after (killedInExecute.start process pass).effects, (killedInExecute.start process pass).state)

theorem restart : NodeStep process ⟨killedInExecute, none⟩ (.started pass) ⟨relaunched.1, some relaunched.2⟩ :=
  .started killedInExecute pass (by decide) (by decide)

/-- The dispatch of the sample payment. -/
def paymentDispatch : ProcessEffect := .peer (.policy (.executeCall "i" [1, 2, 3] "hash"))

theorem killed_dispatches :
    paymentDispatch ∈ ((commands process penv booted approving).2.handle process penv (.ok .execute)).effects.take 2 :=
  List.mem_of_getElem? (i := 1) rfl

set_option maxRecDepth 2000 in
theorem relaunched_dispatches : paymentDispatch ∈ (relaunched.2.handle process penv (.ok .execute)).effects :=
  List.mem_of_getElem? (i := 1) rfl

end Sample

/-- A process is killed while it dispatches, and is started again and dispatches again. -/
theorem dispatch_repeats_killed : ∃ h x, ExchangeRun Sample.parties h x ∧ ∃ e ∈ h, ∃ e' ∈ h,
    ∃ performed result payload payload' hash hash',
      e.seen = .party .payer (.killed Sample.penv (.ok .execute) performed) ∧
      e'.seen = .party .payer (.handled Sample.penv (.ok .execute) result) ∧
      .peer (.policy (.executeCall "i" payload hash)) ∈ performed ∧
      .peer (.policy (.executeCall "i" payload' hash')) ∈
        NodeEvent.performed Sample.process (e'.before.nodes .payer) (.handled Sample.penv (.ok .execute) result) ∧
      payload = payload' ∧ hash = hash' := by
  obtain ⟨g, board, hrun, _⟩ := Sample.alone_commands Sample.penv_silent Sample.alone_started Sample.approving
  have hkilled := hrun.snoc (Sample.alone_step (.killed _ _ Sample.penv (.ok .execute) ⟨2, .nothing⟩) Sample.penv_line)
  have hstarted := hkilled.snoc (Sample.alone_step Sample.restart (by intro _ _ hline; cases hline))
  have hagain := hstarted.snoc (Sample.alone_step (.handled _ _ Sample.penv (.ok .execute)) Sample.penv_line)
  have hw (board : List PaymentMessage) (result : Except Exc String) : Sample.paymentDispatch ∈
      NodeEvent.performed Sample.process ((Sample.alone board ⟨Sample.relaunched.1, some Sample.relaunched.2⟩).nodes .payer)
        (.handled Sample.penv (.ok .execute) result) := by
    rw [Sample.alone_nodes, Sample.performed_handled]
    exact Sample.relaunched_dispatches
  refine ⟨_, _, hagain, _, List.mem_append_left _ (List.mem_append_left _ List.mem_concat_self), _, List.mem_concat_self,
    _, _, [1, 2, 3], [1, 2, 3], "hash", "hash", rfl, rfl, Sample.killed_dispatches, hw _ _, ?_⟩
  exact dispatch_repeats (p := Sample.Party.payer) hagain (List.mem_append_left _ (List.mem_append_left _ List.mem_concat_self))
    List.mem_concat_self rfl rfl Sample.killed_dispatches (hw _ _)

/-! ## What stands behind a `Send` -/

section

variable {ι : Type} (config : ι → ProcessConfig) (w : ι → WavelengthAdapter) (py : PyRuntime)

/-- The command sends the token of a preview for the intent: what the intent and the quote ask was previewed, the preview
    is open, and the approver was told to approve the payload made of it. -/
structure Backed (h : ExchangeHistory ι) (p : ι) (env : WavecliEnv) (cmd : List String) (i : PaymentIntent)
    (q : PaymentQuote) (prev : Preview) (a : PaymentApproval) : Prop where
  intent    : IntentSource config h p i
  quote     : q.intentId = i.id ∧ QuoteSource config h p i q
  preview   : PreviewedBy config w py h p i q prev
  token     : ∃ token, cmd = (w p).sendCmd token ∧ token.same prev.sendIntentId = true
  unexpired : env.now < prev.expiresAtUnix
  approval  : ApprovalSource config h p i.id a
  approved  : a.preparedHash =
    computePreparedHash py.sha256 (preparedPayload prev (q.receiveInstruction.invoice.getD "") i.maxFeeSat)

end

section

variable {ι : Type} [DecidableEq ι] {config : ι → ProcessConfig} {w : ι → WavelengthAdapter} {py : PyRuntime}
  {h : ExchangeHistory ι} {x : Exchange ι} {p : ι}

/-- **A `Send` is of a token that was given for the payment**, which is backed by what happened before; and whatever a party
    sends for one intent is one command. -/
theorem sends_prepared (hrun : ExchangeRun config h x) (hback : Json.ReadsBack py.readFloat)
    (hover : LinesOverWavecli w py h) {j : Nat} {e : Event (Exchange ι) (ExchangeEvent ι)} {env : WavecliEnv}
    {effect : ProcessEffect} {cmd : List String} (he : h[j]? = some e) (hissues : Issues config w py e p env effect cmd)
    (hpays : Pays (w p) cmd) :
    ∃ i q prev a, Backed config w py (h.take j) p env cmd i q prev a ∧
      ∀ e' ∈ h, ∀ env' payload hash cmd', Issues config w py e' p env' (.peer (.policy (.executeCall i.id payload hash))) cmd' →
        Pays (w p) cmd' → cmd' = cmd := by
  obtain ⟨id, payload, hash, decoded, token, rfl, hchecked, rfl⟩ := execute_of_pays hpays hissues.command
  obtain ⟨event, penv, parsed, hseen, hline, hadapter, hw⟩ := hissues.line
  obtain ⟨hpast, hstep⟩ : ExchangeRun config (h.take j) e.before ∧ _ := hrun.at_position he
  rw [hseen] at hstep
  generalize e.after = x' at hstep
  cases hstep with
  | party hnode _ =>
      obtain ⟨i, q, prep, a, rfl, hintent, hprep, rfl, rfl, hsource, happroved⟩ := hpast.dispatch_sources hnode hw
      obtain ⟨prev, hpreview, hwell, hbound⟩ := hprep.previewedBy hpast hback hover.take
      rw [hbound] at hchecked happroved
      obtain ⟨hsame, hopen⟩ := checkPayload_previewed hwell hchecked
      refine ⟨i, q, prev, a, ⟨hintent, ⟨hprep.intentId, hprep.source⟩, hpreview, ⟨token, rfl, hsame⟩, hopen, hsource,
        happroved⟩, ?_⟩
      intro e' he' env' payload' hash' cmd' hissues' hpays'
      obtain ⟨event', _, _, hseen', _, _, hw'⟩ := hissues'.line
      obtain ⟨_, _, _, decoded', token', heffect, hchecked', rfl⟩ := execute_of_pays hpays' hissues'.command
      cases heffect
      obtain ⟨rfl, rfl⟩ := dispatch_repeats hrun (List.mem_of_getElem? he) he' hseen hseen' hw hw'
      -- the same payload holds the same token
      obtain ⟨_, hdecode, _, htoken, _⟩ := checkPayload_eq_ok.mp hchecked
      obtain ⟨_, hdecode', _, htoken', _⟩ := checkPayload_eq_ok.mp hchecked'
      rw [hbound] at hdecode'
      obtain rfl := Except.ok.inj (hdecode.symm.trans hdecode')
      rw [← htoken, ← htoken']

end

namespace Sample

/-- Every command prints the answer to a preview. -/
def wavecliEnv : WavecliEnv := (answering (.ok previewResponse)).wavecli

def overWavecli : ProcessEnv := { penv with adapter := wavelength.settlementAdapter py wavecliEnv }

theorem wavecliEnv_subprocess : wavecliEnv = .ofSubprocess py 0 fun _ => .completed 0 (previewResponse.dumps {}) "" := by
  have hline : Line (previewResponse.dumps {}).toList := (ObjectLine.default _ false).line
  have hstrip : pyStrip (previewResponse.dumps {}) = previewResponse.dumps {} := by
    rw [pyStrip, hline.stripped, String.ofList_toList]
  have hread : Json.loads py.readFloat (previewResponse.dumps {}) = some previewResponse := Json.loads_dumps (Json.standard_default _ _) _
  have hrun (cmd : List String) :
      SubprocessWavecliExecutor.run py (fun _ => .completed 0 (previewResponse.dumps {}) "") cmd = .ok previewResponse := by
    refine SubprocessWavecliExecutor.run_eq_ok.mpr ⟨_, _, rfl, ?_, rfl, ?_⟩
    · rw [hstrip]
      intro hempty
      exact hline.nonempty (by rw [hempty]; rfl)
    · rw [hstrip, hread]
  exact congrArg (WavecliEnv.mk 0) (funext fun cmd => (hrun cmd).symm)

theorem overWavecli_line : OverWavecli wavelength py overWavecli wavecliEnv := ⟨rfl, 0, _, wavecliEnv_subprocess⟩

theorem overWavecli_approved : ∃ r,
    (commands process overWavecli booted approving).2.orchestrator.firstIn APPROVED = some ("i", r) ∧
      r.prepared = some ⟨2, "hash", .LIGHTNING, preparedPayload preview "invoice A" 10⟩ := ⟨_, rfl, rfl⟩

theorem overWavecli_dispatches : .peer (.policy (.executeCall "i" (preparedPayload preview "invoice A" 10) "hash")) ∈
    ((commands process overWavecli booted approving).2.handle process overWavecli (.ok .execute)).effects := by
  obtain ⟨r, hfirst, hprep⟩ := overWavecli_approved
  have hcall := execute_dispatches process.policy overWavecli.env hfirst hprep
  have hexecute : call process.policy overWavecli.env .execute =
    execute process.policy overWavecli.env >>= fun receipt => pure (.receipt receipt) := rfl
  rw [hexecute, (Proc.run_map _ _ _).1] at hcall
  rw [(handle_eq process overWavecli _ .execute).2]
  exact List.mem_append_left _ (Proc.mem_effects_bind (List.mem_map_of_mem (List.mem_map_of_mem hcall)))

theorem overWavecli_performs (board : List PaymentMessage) (result : Except Exc String) :
    .peer (.policy (.executeCall "i" (preparedPayload preview "invoice A" 10) "hash")) ∈
      NodeEvent.performed process ((alone board ⟨(commands process overWavecli booted approving).1,
        some (commands process overWavecli booted approving).2⟩).nodes .payer) (.handled overWavecli (.ok .execute) result) := by
  rw [alone_nodes, performed_handled]
  exact overWavecli_dispatches

theorem sendCmd_mem : wavelength.sendCmd (.str "si-1") ∈
    ProcessEffect.commands wavelength py wavecliEnv
      (.peer (.policy (.executeCall "i" (preparedPayload preview "invoice A" 10) "hash"))) := by
  have hchecked : checkPayload py wavecliEnv (preparedPayload preview "invoice A" 10) "hash" = .ok (payload, .str "si-1") :=
    payload_checked _
  rw [ProcessEffect.commands, effects_execute hchecked]
  exact List.mem_singleton_self _

/-- The wallet of each party. -/
def wallets : Party → WavelengthAdapter := fun _ => wavelength

theorem overWavecli_lines {h : ExchangeHistory Party} (hh : ∀ e ∈ h, e.seen = .party .payer (.started pass) ∨
    ∃ c result, e.seen = .party .payer (.handled overWavecli (.ok c) result)) : LinesOverWavecli wallets py h := by
  intro e he p event hseen penv parsed hline
  rcases hh e he with hstarted | ⟨c, result, hhandled⟩
  · cases hseen.symm.trans hstarted
    cases hline
  · cases hseen.symm.trans hhandled
    cases hline
    exact ⟨_, overWavecli_line⟩

theorem overWavecli_run : ∃ h x e, ExchangeRun parties (h ++ [e]) x ∧ LinesOverWavecli wallets py (h ++ [e]) ∧
    Issues parties wallets py e .payer wavecliEnv
      (.peer (.policy (.executeCall "i" (preparedPayload preview "invoice A" 10) "hash"))) (wavelength.sendCmd (.str "si-1")) := by
  obtain ⟨g, board, hrun, hg⟩ := @alone_commands overWavecli penv_silent _ _ _ alone_started approving
  have hlast := hrun.snoc (alone_step (.handled _ _ overWavecli (.ok .execute)) (by
    intro _ _ hline
    cases hline
    exact penv_silent))
  refine ⟨_, _, _, hlast, overWavecli_lines ?_,
    ⟨⟨_, _, _, rfl, rfl, overWavecli_line, overWavecli_performs board _⟩, rfl, sendCmd_mem⟩⟩
  intro e he
  rcases List.mem_append.mp he with he | he
  · rcases List.mem_append.mp he with he | he
    · rw [List.mem_singleton.mp he]
      exact .inl rfl
    · exact .inr (hg e he)
  · rw [List.mem_singleton.mp he]
    exact .inr ⟨_, _, rfl⟩

end Sample

/-- A payment over wavecli, from the intent to the `Send`. -/
theorem sends_prepared_payment : ∃ h x j e env effect cmd, ExchangeRun Sample.parties h x ∧
    LinesOverWavecli Sample.wallets Sample.py h ∧ h[j]? = some e ∧
    Issues Sample.parties Sample.wallets Sample.py e .payer env effect cmd ∧ Pays Sample.wavelength cmd ∧
    ∃ i q prev a, Backed Sample.parties Sample.wallets Sample.py (h.take j) .payer env cmd i q prev a ∧
      ∀ e' ∈ h, ∀ env' payload hash cmd',
        Issues Sample.parties Sample.wallets Sample.py e' .payer env' (.peer (.policy (.executeCall i.id payload hash))) cmd' →
          Pays Sample.wavelength cmd' → cmd' = cmd := by
  obtain ⟨h, x, e, hrun, hover, hissues⟩ := Sample.overWavecli_run
  have hpays : Pays Sample.wavelength (Sample.wavelength.sendCmd (.str "si-1")) := ⟨_, rfl⟩
  have hback : Json.ReadsBack Sample.py.readFloat := fun _ => rfl
  exact ⟨_, _, _, _, _, _, _, hrun, hover, List.getElem?_concat_length, hissues, hpays,
    sends_prepared hrun hback hover List.getElem?_concat_length hissues hpays⟩

end HermesPayments
