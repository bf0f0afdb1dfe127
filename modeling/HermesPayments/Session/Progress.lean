import HermesPayments.Process.Jsonl.RoundTrip
import HermesPayments.Session.Provenance

/-!
# `HermesPayments.Session.Progress` — what can still happen

A supervisor that has stopped can be launched again, from whatever state the children were killed in, and it comes up as
long as the state roots can be opened (`comes_up`). A supervisor that listens takes any line with a command for a child: the
child handles it as it would in the exchange, what it answers is printed, and the supervisor listens again (`carried_out`).
An answer that is waited for can always still come (`answer_reachable`).
-/

namespace HermesPayments

open Lib

/-! ## The exchange, moved on -/

section

variable {ι : Type} [DecidableEq ι] (config : ι → ProcessConfig)

/-- A party has handled a line. -/
def Exchange.handled (x : Exchange ι) (p : ι) (penv : ProcessEnv) (parsed : Except Exc Command) : Exchange ι :=
  match (x.nodes p).proc with
  | none => x
  | some s =>
      let out := s.handle (config p) penv parsed
      ⟨x.board ++ sends out.effects, Function.update x.nodes p ⟨(x.nodes p).world.after out.effects, some out.state⟩⟩

/-- A party has been started. -/
def Exchange.started (x : Exchange ι) (p : ι) (pass : StartPass) : Exchange ι :=
  let out := (x.nodes p).world.start (config p) pass
  ⟨x.board ++ sends out.effects, Function.update x.nodes p ⟨(x.nodes p).world.after out.effects, some out.state⟩⟩

variable {config} {x : Exchange ι} {p : ι}

/-- Whatever the transport hands out to the command is on the board. -/
def ProcessEnv.ReadsFrom (penv : ProcessEnv) (board : List PaymentMessage) : Prop :=
  ∀ limit ms, penv.transport.receive limit = .ok ms → ∀ m ∈ ms, m.message ∈ board

theorem Exchange.handled_step {s : ProcessState} (hs : (x.nodes p).proc = some s) {penv : ProcessEnv}
    (hpenv : penv.ReadsFrom x.board) (parsed : Except Exc Command) :
    ExchangeStep config x (.party p (.handled penv parsed (s.handle (config p) penv parsed).result))
      (x.handled config p penv parsed) := by
  have heq : (⟨(x.nodes p).world, some s⟩ : Node) = x.nodes p := by rw [← hs]
  have hnode : NodeStep (config p) ⟨(x.nodes p).world, some s⟩ _ _ := .handled _ s penv parsed
  rw [heq] at hnode
  have hstep := ExchangeStep.party (x := x) hnode (by
    intro penv' parsed' hline limit ms hms m hm
    cases hline
    exact hpenv limit ms hms m hm)
  rw [Exchange.handled, hs]
  rwa [NodeEvent.performed, hs] at hstep

theorem Exchange.started_step {pass : StartPass} (hnone : (x.nodes p).proc = none) (hopens : (x.nodes p).world.audit.opens = true)
    (hok : ((x.nodes p).world.start (config p) pass).result = .ok ()) :
    ExchangeStep config x (.party p (.started pass)) (x.started config p pass) := by
  have heq : (⟨(x.nodes p).world, none⟩ : Node) = x.nodes p := by rw [← hnone]
  have hnode : NodeStep (config p) ⟨(x.nodes p).world, none⟩ _ _ := .started _ pass hopens hok
  rw [heq] at hnode
  exact .party hnode (by intro penv parsed hline; cases hline)

theorem Exchange.started_other {pass : StartPass} {q : ι} (hq : q ≠ p) : (x.started config p pass).nodes q = x.nodes q :=
  Function.update_of_ne hq _ _

theorem Exchange.started_proc {pass : StartPass} {q : ι} (h : q = p ∨ (x.nodes q).proc.isSome = true) :
    ((x.started config p pass).nodes q).proc.isSome = true := by
  show (Function.update x.nodes p _ q).proc.isSome = true
  by_cases hq : q = p
  · subst hq
    rw [Function.update_self]
    rfl
  · rw [Function.update_of_ne hq]
    exact h.resolve_left hq

theorem Exchange.handled_proc {penv : ProcessEnv} {parsed : Except Exc Command} {q : ι} (h : (x.nodes q).proc.isSome = true) :
    ((x.handled config p penv parsed).nodes q).proc.isSome = true := by
  unfold Exchange.handled
  split
  · exact h
  · show (Function.update x.nodes p _ q).proc.isSome = true
    by_cases hq : q = p
    · subst hq
      rw [Function.update_self]
      rfl
    · rw [Function.update_of_ne hq]
      exact h

end

/-! ## Sessions at rest -/

/-- Both children run and have nothing to do. -/
def atRest (y : Exchange Role) (p : Phase) (printed : List String) : Session := ⟨y, fun _ => .fresh, p, printed⟩

section

variable {rt : LineRuntime} {config : Role → ProcessConfig} {x x' : Session} {r : Role} {h : SessionHistory}

theorem Orderly.atRest {S : List Query} {W : List (Query × String)} {A : List Reply} (ho : Orderly rt x S W A)
    (hphase : x.phase = .listening) (hrunning : ∀ r, (x.child r).running = true) :
    x = HermesPayments.atRest x.exchange .listening x.printed ∧ ∀ r, (x.exchange.nodes r).proc.isSome = true := by
  have hat := ho.at_phase (by rw [hphase]; intro code h; cases h)
  rw [hphase] at hat
  obtain ⟨_, _, hquiet⟩ := hat
  refine ⟨?_, fun r => (hquiet r).2 (hrunning r)⟩
  have hchild : x.child = fun _ => .fresh := funext fun r => (hquiet r).1.eq_fresh (hrunning r)
  rw [HermesPayments.atRest, ← hchild, ← hphase]

/-- An object on one line is read, where it is within the limits of the interpreter. -/
theorem readObject_line {text : String} (hobject : ObjectLine text) (hlimit : rt.limit text = none) :
    ∃ response, readObject rt text.toList = some response := by
  have hstripped := hobject.stripped.1
  obtain ⟨o, ms, hstandard, _, rfl⟩ := hobject
  rw [readObject, hstripped, String.ofList_toList, jsonLoads, hlimit, Json.loads_dumps hstandard, Json.reread_obj]
  exact ⟨_, rfl⟩

/-- Any result has an answer. -/
theorem exists_answers (isAlnum : Char → Bool) (result : Except Exc String) : ∃ text, Answers isAlnum result text := by
  cases result with
  | ok line => exact ⟨line, .response line⟩
  | error e =>
      have htext : ∀ m, e.text? = some m → e.text?.getD "" = m := by
        intro m hm
        rw [hm]
        rfl
      exact ⟨_, .error htext⟩

/-! ## One child at a time -/

/-- One child is in a state, the others as given. -/
def serving (y : Exchange Role) (others : Role → Worker) (r : Role) (w : Worker) (p : Phase) (printed : List String) : Session :=
  ⟨y, Function.update others r w, p, printed⟩

section

variable {y y' : Exchange Role} {others : Role → Worker} {w w' : Worker} {act : WorkerAct} {p : Phase} {printed : List String}

theorem serving_child : (serving y others r w p printed).child r = w := by
  show Function.update others r w r = w
  exact Function.update_self r w others

theorem serving_fresh : serving y (fun _ => .fresh) r .fresh p printed = atRest y p printed := by
  have hchild : Function.update (fun _ : Role => Worker.fresh) r .fresh = fun _ => .fresh :=
    Function.update_eq_self r fun _ => Worker.fresh
  rw [serving, hchild, atRest]

theorem serving_acted {event : NodeEvent} (hstep : Worker.Step w act w') (hruns : Runs rt r (config r) w act (some event))
    (hparty : ExchangeStep config y (.party r event) y') :
    SessionStep rt config (serving y others r w p printed) (.child r act (some event)) (serving y' others r w' p printed) := by
  have hacted : SessionStep rt config (serving y others r w p printed) _ _ :=
    .acted (w := w') (by rw [serving_child]; exact hstep) (by rw [serving_child]; exact hruns) hparty
  rwa [serving, Function.update_idem] at hacted

theorem serving_piped (hstep : Worker.Step w act w') (hruns : Runs rt r (config r) w act none) :
    SessionStep rt config (serving y others r w p printed) (.child r act none) (serving y others r w' p printed) := by
  have hpiped : SessionStep rt config (serving y others r w p printed) _ _ :=
    .piped (w := w') (by rw [serving_child]; exact hstep) (by rw [serving_child]; exact hruns)
  rwa [serving, Function.update_idem] at hpiped

/-- What the supervisor reads of a child that has passed a line on. -/
theorem serving_read {text : List Char} (hunbroken : Unbroken text) :
    readLine (!((serving y others r ⟨true, [], [], text ++ ['\n']⟩ p printed).child r).running)
      ((serving y others r ⟨true, [], [], text ++ ['\n']⟩ p printed).child r).stdout = some (text, []) := by
  rw [serving_child]
  exact readLine_line hunbroken []

theorem serving_shown {q : Query} {text : List Char} {response : List (PyStr × Json)} (hunbroken : Unbroken text)
    (hresponse : readObject rt text = some response) :
    SessionStep rt config (serving y others q.target ⟨true, [], [], text ++ ['\n']⟩ (.awaiting q) printed)
      (.shown q (q.render response)) (serving y others q.target .fresh q.next (printed ++ [q.render response])) := by
  have hshown : SessionStep rt config (serving y others q.target ⟨true, [], [], text ++ ['\n']⟩ (.awaiting q) printed) _ _ :=
    .shown (q := q) rfl (serving_read hunbroken) hresponse
  rw [serving_child] at hshown
  rwa [serving, Function.update_idem] at hshown

end

/-- A child that has written a line passes it on. -/
theorem flush_step {text : List Char} (stdin : List Char) : Worker.Step ⟨true, stdin, text ++ ['\n'], []⟩ .flushed
    ⟨true, stdin, [], text ++ ['\n']⟩ := by
  have hall : text ++ ['\n'] = (text ++ ['\n']) ++ [] := (List.append_nil _).symm
  exact Worker.Step.flushed (w := ⟨true, stdin, text ++ ['\n'], []⟩) rfl hall

/-- A child handles a request that it reads. -/
theorem Runs.of_request {w : Worker} {request text : String} {penv : ProcessEnv} {s : ProcessState} (hobject : ObjectLine request)
    (htext : Answers (config r).isAlnum (s.handle (config r) penv (readCommand rt request)).result text) :
    Runs rt r (config r) w (.answered request.toList text.toList)
      (some (.handled penv (readCommand rt request) (s.handle (config r) penv (readCommand rt request)).result)) := by
  obtain ⟨hstripped, hblank⟩ := hobject.stripped
  have hcommand : readCommand rt (String.ofList (stripWhere spaceChar request.toList)) = readCommand rt request := by
    rw [hstripped, String.ofList_toList]
  have hruns : Runs rt r (config r) w (.answered request.toList text.toList) (some (.handled penv
      (readCommand rt (String.ofList (stripWhere spaceChar request.toList))) _)) := .handled (by rwa [hstripped]) htext
  rwa [hcommand] at hruns

/-- **A request is carried out**: the child handles it and writes an answer, which comes through, and it is printed. -/
theorem query_reachable {y : Exchange Role} {p : Phase} {printed : List String} {q : Query} {penv : ProcessEnv}
    {s : ProcessState} {text : String} (hrun : SessionRun rt config h (atRest y p printed))
    (hsend : SessionStep rt config (atRest y p printed) (.sent q)
      (serving y (fun _ => .fresh) q.target (Worker.fresh.asked q.request.toList) (.awaiting q) printed))
    (hobject : ObjectLine q.request) (hs : (y.nodes q.target).proc = some s) (hpenv : penv.ReadsFrom y.board)
    (htext : Answers (config q.target).isAlnum
      (s.handle (config q.target) penv (readCommand rt q.request)).result text) (hlimit : rt.limit text = none) :
    ∃ es response, readObject rt text.toList = some response ∧
      SessionRun rt config (h ++ es)
        (atRest (y.handled config q.target penv (readCommand rt q.request)) q.next (printed ++ [q.render response])) ∧
      ∃ e ∈ es, e.before.exchange = y ∧ e.seen = .child q.target (.answered q.request.toList text.toList)
        (some (.handled penv (readCommand rt q.request)
          (s.handle (config q.target) penv (readCommand rt q.request)).result)) := by
  have hline := htext.object
  obtain ⟨response, hresponse⟩ := readObject_line hline hlimit
  have hread : readLine false (Worker.fresh.asked q.request.toList).stdin = some (q.request.toList, []) :=
    readLine_line hobject.line.unbroken []
  have hanswered : SessionStep rt config
      (serving y (fun _ => .fresh) q.target (Worker.fresh.asked q.request.toList) (.awaiting q) printed) _
      (serving (y.handled config q.target penv (readCommand rt q.request)) (fun _ => .fresh) q.target
        ⟨true, [], text.toList ++ ['\n'], []⟩ (.awaiting q) printed) :=
    serving_acted (.answered rfl rfl hread text.toList) (.of_request hobject htext)
      (Exchange.handled_step hs hpenv (readCommand rt q.request))
  have hflushed : SessionStep rt config
      (serving (y.handled config q.target penv (readCommand rt q.request)) (fun _ => .fresh) q.target
        ⟨true, [], text.toList ++ ['\n'], []⟩ (.awaiting q) printed) _
      (serving (y.handled config q.target penv (readCommand rt q.request)) (fun _ => .fresh) q.target
        ⟨true, [], [], text.toList ++ ['\n']⟩ (.awaiting q) printed) := serving_piped (flush_step []) .flushed
  have hshown : SessionStep rt config
      (serving (y.handled config q.target penv (readCommand rt q.request)) (fun _ => .fresh) q.target
        ⟨true, [], [], text.toList ++ ['\n']⟩ (.awaiting q) printed) _ _ :=
    serving_shown hline.line.unbroken hresponse
  rw [serving_fresh] at hshown
  have hall := (((hrun.snoc hsend).snoc hanswered).snoc hflushed).snoc hshown
  simp only [List.append_assoc] at hall
  refine ⟨_, response, hresponse, hall, ⟨_, _, _⟩, List.mem_append_right _ (List.mem_append_left _ (List.mem_singleton_self _)),
    rfl, rfl⟩

/-! ## A line of the operator -/

/-- **A line is carried out.** A supervisor that listens while both children run takes any line with a command for a child;
    the child handles it as a party of the exchange would, its answer is printed, and the supervisor listens again. -/
theorem carried_out (hrun : SessionRun rt config h x) (hphase : x.phase = .listening)
    (hrunning : ∀ r, (x.child r).running = true) {q : Query} (hforwarded : q.Forwarded rt) {penv : ProcessEnv}
    (hpenv : penv.ReadsFrom x.exchange.board)
    (hlimit : ∀ s text, Answers (config q.target).isAlnum
      (ProcessState.handle (config q.target) s penv (readCommand rt q.request)).result text → rt.limit text = none) :
    ∃ es response, SessionRun rt config (h ++ es)
        (atRest (x.exchange.handled config q.target penv (readCommand rt q.request)) .listening
          (x.printed ++ [q.render response])) ∧
      ∃ e ∈ es, e.before.exchange = x.exchange ∧ ∃ act result, e.seen = .child q.target act
        (some (.handled penv (readCommand rt q.request) result)) := by
  obtain ⟨line, htyped, hmove⟩ := hforwarded
  obtain ⟨hrest, hproc⟩ := hrun.orderly.atRest hphase hrunning
  obtain ⟨s, hs⟩ := Option.isSome_iff_exists.mp (hproc q.target)
  obtain ⟨text, htext⟩ := exists_answers (config q.target).isAlnum
    (s.handle (config q.target) penv (readCommand rt q.request)).result
  obtain ⟨_, members, _, _, _, hrequest⟩ := operatorMove_forward hmove
  have hobject : ObjectLine q.request := by
    rw [hrequest]
    exact .default _ true
  rw [hrest] at hrun
  have hchecked : SessionStep rt config (atRest x.exchange .listening x.printed) .looped (atRest x.exchange .reading x.printed) :=
    .checked rfl fun _ => rfl
  obtain ⟨typed, target, request⟩ := q
  obtain rfl : typed = some line := htyped
  have hsend : SessionStep rt config (atRest x.exchange .reading x.printed) (.sent ⟨some line, target, request⟩)
      (serving x.exchange (fun _ => .fresh) target (Worker.fresh.asked request.toList) (.awaiting ⟨some line, target, request⟩)
        x.printed) := .forwarded rfl hmove rfl
  obtain ⟨es, response, _, hrun', e, he, hbefore, hseen⟩ := query_reachable (q := ⟨some line, target, request⟩)
    (hrun.snoc hchecked) hsend hobject hs hpenv htext (hlimit s text htext)
  rw [List.append_assoc] at hrun'
  exact ⟨_, response, hrun', e, List.mem_append_right _ he, hbefore, _, _, hseen⟩

/-! ## A launch -/

theorem NodeStep.proc_killed {config : ProcessConfig} {n n' : Node} {penv : ProcessEnv} {parsed : Except Exc Command}
    {performed : List ProcessEffect} (h : NodeStep config n (.killed penv parsed performed) n') : n'.proc = none := by
  cases h with
  | killed _ _ _ _ _ => rfl

theorem NodeStep.proc_startCut {config : ProcessConfig} {n n' : Node} {pass : StartPass} {performed : List ProcessEffect}
    (h : NodeStep config n (.startCut pass performed) n') : n'.proc = none := by
  cases h with
  | startCut _ _ _ _ => rfl

/-- A child that is down has no process. -/
theorem SessionRun.off (hrun : SessionRun rt config h x) : ∀ r, (x.child r).running = false → (x.exchange.nodes r).proc = none := by
  refine hrun.invariant (I := fun x => ∀ r, (x.child r).running = false → (x.exchange.nodes r).proc = none) ?_ ?_
  · rintro x ⟨⟨_, hfresh⟩, _, _, _⟩ r _
    rw [hfresh r]
  · intro x e x' ih hstep r' hdown
    -- where the supervisor reads from a child or writes to it, it runs as before
    have hreads {r : Role} {w : Worker} (hw : w.running = (x.child r).running)
        (hdown : (Function.update x.child r w r').running = false) : (x.exchange.nodes r').proc = none := by
      by_cases hr : r' = r
      · subst hr
        rw [Function.update_self, hw] at hdown
        exact ih r' hdown
      · rw [Function.update_of_ne hr] at hdown
        exact ih r' hdown
    cases hstep with
    | @acted r act event w y hact hruns hparty =>
        obtain ⟨n', hnode, hnodes⟩ := hparty.of_party
        show (y.nodes r').proc = none
        replace hdown : (Function.update x.child r w r').running = false := hdown
        rw [hnodes]
        by_cases hr : r' = r
        · subst hr
          rw [Function.update_self] at hdown ⊢
          cases hact with
          | spoke hrunning _ | answered hrunning _ _ _ | skipped hrunning _ | flushed hrunning _ =>
              cases hrunning.symm.trans hdown
          | killed _ =>
              cases hruns with
              | killed _ _ | died => exact hnode.proc_killed
              | startCut => exact hnode.proc_startCut
        · rw [Function.update_of_ne hr] at hdown ⊢
          exact ih r' hdown
    | @piped r act w hact hruns =>
        replace hdown : (Function.update x.child r w r').running = false := hdown
        by_cases hr : r' = r
        · subst hr
          rw [Function.update_self] at hdown
          cases hact with
          | spoke hrunning _ | answered hrunning _ _ _ | skipped hrunning _ | flushed hrunning _ =>
              cases hrunning.symm.trans hdown
          | killed _ => cases hruns
        · rw [Function.update_of_ne hr] at hdown
          exact ih r' hdown
    | @failed r w hact hnone =>
        replace hdown : (Function.update x.child r w r').running = false := hdown
        by_cases hr : r' = r
        · subst hr
          exact hnone
        · rw [Function.update_of_ne hr] at hdown
          exact ih r' hdown
    | others hothers =>
        cases hothers with
        | others _ => exact ih r' hdown
    | launched _ hall => exact ih r' (hall r')
    | @readyAlice text rest _ _ _ =>
        cases r' with
        | bob => cases hdown
        | alice => exact ih .alice hdown
    | readyBob _ _ _ | greeted _ _ | forwarded _ _ _ | shown _ _ _ =>
        refine hreads ?_ hdown
        rfl
    | unready _ _ _ | brokenGreeting _ _ | brokenForward _ _ _ | unanswered _ _ _ | exited _ _ | ended _ _ | interrupted _
      | checked _ _ | again _ => exact ih r' hdown

/-- The ready line is read as what it is. -/
theorem isReady_readyLine (hlimit : rt.limit (readyLine r.name) = none) : isReady rt r (readyLine r.name).toList = true := by
  have hobject : ObjectLine (readyLine r.name) := .default _ false
  have hloads : Json.loads rt.readFloat (readyLine r.name) =
      some (.obj [("event", .str "ready"), ("role", .str r.name)]) := by
    rw [readyLine, Json.loads_dumps (Json.standard_default _ _)]
    have hkeys : (([("event", .str "ready"), ("role", .str r.name)] : List (PyStr × Json)).map Prod.fst).Nodup := by
      show [PyStr.text "event", PyStr.text "role"].Nodup
      decide
    refine congrArg some (Json.reread_obj_self rt.readFloat {} rfl hkeys ?_)
    intro m hm
    rcases List.mem_cons.mp hm with rfl | hm
    · rw [Json.reread]
    · rw [List.mem_singleton.mp hm, Json.reread]
  have hread : readObject rt (readyLine r.name).toList =
      some [(.text "event", .str "ready"), (.text "role", .str r.name)] := by
    rw [readObject, hobject.stripped.1, String.ofList_toList, jsonLoads, hlimit, hloads]
    rfl
  rw [isReady, hread]
  cases r with
  | alice => decide
  | bob => decide

/-- A child that has been started says so. -/
theorem ready_reachable {y : Exchange Role} {others : Role → Worker} {p : Phase} {printed : List String} {pass : StartPass}
    (hrun : SessionRun rt config h (serving y others r .fresh p printed)) (hnone : (y.nodes r).proc = none)
    (hopens : (y.nodes r).world.audit.opens = true) (hok : ((y.nodes r).world.start (config r) pass).result = .ok ()) :
    ∃ es, SessionRun rt config (h ++ es) (serving (y.started config r pass) others r
      ⟨true, [], [], (readyLine r.name).toList ++ ['\n']⟩ p printed) := by
  generalize htext : (readyLine r.name).toList = text
  have hruns : Runs rt r (config r) .fresh (.spoke text) (some (.started pass)) := htext ▸ .started pass
  have hspoke : SessionStep rt config (serving y others r .fresh p printed) _
      (serving (y.started config r pass) others r ⟨true, [], text ++ ['\n'], []⟩ p printed) :=
    serving_acted (.spoke rfl text) hruns (Exchange.started_step hnone hopens hok)
  have hflushed : SessionStep rt config _ _ (serving (y.started config r pass) others r ⟨true, [], [], text ++ ['\n']⟩ p printed) :=
    serving_piped (flush_step []) .flushed
  exact ⟨_, by simpa using (hrun.snoc hspoke).snoc hflushed⟩

/-- The status command of the supervisor is carried out. -/
theorem status_reachable {y : Exchange Role} {printed : List String} {penv : ProcessEnv}
    (hrun : SessionRun rt config h (atRest y (.greeting r) printed)) (hproc : (y.nodes r).proc.isSome = true)
    (hpenv : penv.ReadsFrom y.board) (hlimit : ∀ s text, Answers (config r).isAlnum
      (ProcessState.handle (config r) s penv (readCommand rt (Query.status r).request)).result text → rt.limit text = none) :
    ∃ es text, SessionRun rt config (h ++ es) (atRest (y.handled config r penv (readCommand rt (Query.status r).request))
      (Query.status r).next (printed ++ [text])) := by
  obtain ⟨s, hs⟩ := Option.isSome_iff_exists.mp hproc
  obtain ⟨text, htext⟩ := exists_answers (config r).isAlnum
    (s.handle (config r) penv (readCommand rt (Query.status r).request)).result
  have hsend : SessionStep rt config (atRest y (.greeting r) printed) (.sent (.status r))
      (serving y (fun _ => .fresh) r (Worker.fresh.asked (Query.status r).request.toList) (.awaiting (.status r)) printed) :=
    .greeted rfl rfl
  obtain ⟨es, response, _, hrun', _⟩ := query_reachable (q := .status r) hrun hsend (Query.status_object r) hs hpenv htext
    (hlimit s text htext)
  exact ⟨es, _, hrun'⟩

/-- The exchange after a launch: both children have been started, and have handled the status commands. -/
def Exchange.launched (rt : LineRuntime) (config : Role → ProcessConfig) (y : Exchange Role) (pass : Role → StartPass)
    (penv : Role → ProcessEnv) : Exchange Role :=
  let up := (y.started config .alice (pass .alice)).started config .bob (pass .bob)
  (up.handled config .alice (penv .alice) (readCommand rt (Query.status .alice).request)).handled config .bob (penv .bob)
    (readCommand rt (Query.status .bob).request)

/-- Both children are as if just started. -/
theorem update_fresh {others : Role → Worker} :
    Function.update (Function.update others .alice .fresh) .bob .fresh = fun _ => .fresh := by
  funext r
  cases r with
  | alice => rfl
  | bob => rfl

/-- Alice is ready, and Bob is started. -/
theorem serving_readyAlice {y : Exchange Role} {text : List Char} (hunbroken : Unbroken text)
    (hready : isReady rt .alice text = true) :
    SessionStep rt config (serving y (fun _ => .absent) .alice ⟨true, [], [], text ++ ['\n']⟩ (.starting .alice) [])
      (.ready .alice) (serving y (fun _ => .fresh) .bob .fresh (.starting .bob) []) := by
  have hstep : SessionStep rt config
      (serving y (fun _ => .absent) .alice ⟨true, [], [], text ++ ['\n']⟩ (.starting .alice) []) (.ready .alice)
      ⟨y, Function.update (Function.update (Function.update _ _ _) .alice .fresh) .bob .fresh, .starting .bob, []⟩ :=
    .readyAlice rfl (serving_read hunbroken) hready
  rw [update_fresh] at hstep
  rwa [serving_fresh]

/-- Bob is ready as well. -/
theorem serving_readyBob {y : Exchange Role} {text : List Char} (hunbroken : Unbroken text)
    (hready : isReady rt .bob text = true) :
    SessionStep rt config (serving y (fun _ => .fresh) .bob ⟨true, [], [], text ++ ['\n']⟩ (.starting .bob) [])
      (.ready .bob) (atRest y (.greeting .alice) []) := by
  have hstep : SessionStep rt config
      (serving y (fun _ => .fresh) .bob ⟨true, [], [], text ++ ['\n']⟩ (.starting .bob) []) (.ready .bob)
      ⟨y, Function.update (Function.update _ _ _) .bob .fresh, .greeting .alice, []⟩ :=
    .readyBob rfl (serving_read hunbroken) hready
  rw [Function.update_idem] at hstep
  exact (serving_fresh (y := y)) ▸ hstep

theorem ProcessEnv.ReadsFrom.mono {penv : ProcessEnv} {board more : List PaymentMessage} (h : penv.ReadsFrom board) :
    penv.ReadsFrom (board ++ more) := fun limit ms hms m hm => List.mem_append_left _ (h limit ms hms m hm)

theorem ProcessEnv.ReadsFrom.handled {penv penv' : ProcessEnv} {y : Exchange Role} {parsed : Except Exc Command}
    (h : penv.ReadsFrom y.board) : penv.ReadsFrom (y.handled config r penv' parsed).board := by
  unfold Exchange.handled
  split
  · exact h
  · exact h.mono

/-- **A supervisor that has stopped can be launched again** once its children are down, and it comes up: wherever the children
    were killed, if the state roots can be opened. -/
theorem comes_up (hrun : SessionRun rt config h x) {code : Nat} (hphase : x.phase = .stopped code)
    (hdown : ∀ r, (x.child r).running = false) {pass : Role → StartPass} {penv : Role → ProcessEnv}
    (hopens : ∀ r, (x.exchange.nodes r).world.audit.opens = true)
    (hok : ∀ r, ((x.exchange.nodes r).world.start (config r) (pass r)).result = .ok ())
    (hpenv : ∀ r, (penv r).ReadsFrom x.exchange.board) (hready : ∀ r : Role, rt.limit (readyLine r.name) = none)
    (hlimit : ∀ r s text, Answers (config r).isAlnum
      (ProcessState.handle (config r) s (penv r) (readCommand rt (Query.status r).request)).result text → rt.limit text = none) :
    ∃ es texts, texts.length = 2 ∧
      SessionRun rt config (h ++ es) (atRest (x.exchange.launched rt config pass penv) .listening texts) := by
  have hoff := hrun.off
  have hline (r : Role) : Unbroken (readyLine r.name).toList := (ObjectLine.default _ false).line.unbroken
  -- the children are started, one after the other
  let first := x.exchange.started config .alice (pass .alice)
  let up := first.started config .bob (pass .bob)
  have hlaunched : SessionStep rt config x .launched
      (serving x.exchange (fun _ => .absent) .alice .fresh (.starting .alice) []) := .launched hphase hdown
  obtain ⟨es₁, hrun₁⟩ := ready_reachable (hrun.snoc hlaunched) (hoff .alice (hdown .alice)) (hopens .alice) (hok .alice)
  have hready₁ : SessionStep rt config (serving first (fun _ => .absent) .alice _ (.starting .alice) []) (.ready .alice)
      (serving first (fun _ => .fresh) .bob .fresh (.starting .bob) []) :=
    serving_readyAlice (hline .alice) (isReady_readyLine (hready .alice))
  have hbob : first.nodes .bob = x.exchange.nodes .bob := Exchange.started_other (by decide)
  have hokbob : ((first.nodes .bob).world.start (config .bob) (pass .bob)).result = .ok () := by
    rw [hbob]
    exact hok .bob
  obtain ⟨es₂, hrun₂⟩ := ready_reachable (hrun₁.snoc hready₁) (by rw [hbob]; exact hoff .bob (hdown .bob))
    (by rw [hbob]; exact hopens .bob) hokbob
  have hready₂ : SessionStep rt config (serving up (fun _ => .fresh) .bob _ (.starting .bob) []) (.ready .bob)
      (atRest up (.greeting .alice) []) := serving_readyBob (hline .bob) (isReady_readyLine (hready .bob))
  -- and asked for their status
  have hup (r : Role) : (up.nodes r).proc.isSome = true := by
    cases r with
    | alice => exact Exchange.started_proc (.inr (Exchange.started_proc (.inl rfl)))
    | bob => exact Exchange.started_proc (.inl rfl)
  have hboard (r : Role) : (penv r).ReadsFrom up.board := (hpenv r).mono.mono
  obtain ⟨es₃, text, hrun₃⟩ := status_reachable (hrun₂.snoc hready₂) (hup .alice) (hboard .alice) (hlimit .alice)
  obtain ⟨es₄, text', hrun₄⟩ := status_reachable (r := .bob) hrun₃ (Exchange.handled_proc (hup .bob)) (hboard .bob).handled
    (hlimit .bob)
  simp only [List.append_assoc] at hrun₄
  exact ⟨_, [text, text'], rfl, hrun₄⟩

/-! ## A conversation -/

/-- The targets of the queries handle their requests one after the other, and nothing runs into a limit. -/
inductive Served (rt : LineRuntime) (config : Role → ProcessConfig) : Exchange Role → List Query → Exchange Role → Prop
  | nil (y : Exchange Role) : Served rt config y [] y
  | cons {y z : Exchange Role} {q : Query} {qs : List Query} {penv : ProcessEnv} (hforwarded : q.Forwarded rt)
      (hpenv : penv.ReadsFrom y.board)
      (hlimit : ∀ s text, Answers (config q.target).isAlnum
        (ProcessState.handle (config q.target) s penv (readCommand rt q.request)).result text → rt.limit text = none)
      (hrest : Served rt config (y.handled config q.target penv (readCommand rt q.request)) qs z) :
      Served rt config y (q :: qs) z

theorem Served.reachable {y z : Exchange Role} {qs : List Query} (hserved : Served rt config y qs z) {texts : List String}
    (hrun : SessionRun rt config h (atRest y .listening texts)) :
    ∃ es more, more.length = qs.length ∧ SessionRun rt config (h ++ es) (atRest z .listening (texts ++ more)) := by
  induction hserved generalizing h texts with
  | nil y => exact ⟨[], [], rfl, by simpa using hrun⟩
  | @cons y z q qs penv hforwarded hpenv hlimit _ ih =>
      obtain ⟨es, response, hrun', _⟩ := carried_out hrun rfl (fun _ => rfl) hforwarded hpenv hlimit
      obtain ⟨es', more, hlength, hrun''⟩ := ih hrun'
      rw [List.append_assoc] at hrun''
      replace hrun'' : SessionRun rt config (h ++ (es ++ es')) (atRest z .listening (texts ++ [q.render response] ++ more)) := hrun''
      rw [List.append_assoc] at hrun''
      exact ⟨es ++ es', q.render response :: more, by rw [List.length_cons, List.length_cons, hlength], hrun''⟩

end

namespace Sample

def children : Role → ProcessConfig
  | .alice => parties .payer
  | .bob   => parties .recipient

/-- The line of an operator with these members, and what it comes to. -/
def query (target : Role) (members : List (PyStr × Json)) : Query :=
  ⟨some ((Json.obj (("target", .str target.name) :: members)).dumps {}), target, (Json.obj members).dumps requestOptions⟩

theorem query_forwarded {target : Role} {members : List (PyStr × Json)}
    (hself : Json.reread lineRuntime.readFloat {} (.obj (("target", .str target.name) :: members)) =
      .obj (("target", .str target.name) :: members))
    (hmembers : (members.filter fun m => m.1 ≠ .text "target") = members)
    (hcommand : (((.text "target", .str target.name) :: members).lookup (.text "command")).bind Json.str? ≠ some "shutdown") :
    (query target members).Forwarded lineRuntime := by
  refine ⟨_, rfl, ?_⟩
  have hobject : ObjectLine ((Json.obj (("target", .str target.name) :: members)).dumps {}) := .default _ false
  have hloads : jsonLoads lineRuntime.toRuntime ((Json.obj (("target", .str target.name) :: members)).dumps {}) =
      .ok (.obj (("target", .str target.name) :: members)) := by
    rw [jsonLoads, show lineRuntime.limit _ = none from rfl, Json.loads_dumps (Json.standard_default _ _), hself]
    rfl
  have htarget : ((((.text "target", Json.str target.name) :: members).lookup (.text "target")).bind Json.str?).bind Role.ofName? =
      some target := by
    cases target with
    | alice => rfl
    | bob => rfl
  dsimp only [operatorMove]
  rw [hobject.stripped.1, if_neg hobject.stripped.2, hloads]
  dsimp only
  rw [if_neg hcommand, htarget]
  dsimp only
  rw [List.filter_cons_of_neg (by simp), hmembers]
  rfl

/-- The payment of one intent, as an operator types it. -/
def submitting : Query :=
  query .alice [("command", .str "submit_intent"), ("intent", (PaymentMessage.intent (intent "i" 100)).payload)]

def quoting : Query := query .alice
  [("command", .str "submit_quote_local"), ("quote", (PaymentMessage.quote (quote "i" "invoice A" 100)).payload)]

def preparing : Query := query .alice [("command", .str "prepare")]

def consenting : Query := query .alice
  [("command", .str "approve"), ("intent_id", .str "i"), ("quote_id", .str "quote 1"), ("prepared_hash", .str "hash")]

def executing : Query := query .alice [("command", .str "execute")]

theorem submitting_forwarded : submitting.Forwarded lineRuntime := query_forwarded rfl rfl (by decide)

theorem quoting_forwarded : quoting.Forwarded lineRuntime := query_forwarded rfl rfl (by decide)

theorem preparing_forwarded : preparing.Forwarded lineRuntime := query_forwarded rfl rfl (by decide)

theorem consenting_forwarded : consenting.Forwarded lineRuntime := query_forwarded rfl rfl (by decide)

theorem executing_forwarded : executing.Forwarded lineRuntime := query_forwarded rfl rfl (by decide)

/-- What a child reads of a request. -/
theorem query_reads (target : Role) (members : List (PyStr × Json)) : readCommand lineRuntime (query target members).request =
    (JsonlCommand.ofJson (Json.reread lineRuntime.readFloat requestOptions (.obj members))).map
      (JsonlCommand.command lineRuntime) := by
  have hloads : jsonLoads lineRuntime.toRuntime (query target members).request =
      .ok (Json.reread lineRuntime.readFloat requestOptions (.obj members)) := by
    rw [jsonLoads, show lineRuntime.limit _ = none from rfl, query, Json.loads_dumps standard_requestOptions]
    rfl
  rw [readCommand, JsonlCommand.parse, hloads]

/-- Before the first launch. -/
def unlaunched : Session := ⟨⟨[], fun _ => ⟨.empty, none⟩⟩, fun _ => .absent, .stopped 0, []⟩

theorem unlaunched_run : SessionRun lineRuntime children [] unlaunched :=
  .nil ⟨⟨rfl, fun _ => rfl⟩, fun _ => rfl, ⟨0, rfl⟩, rfl⟩

theorem unlaunched_starts (r : Role) : ((unlaunched.exchange.nodes r).world.start (children r) pass).result = .ok () := by
  cases r with
  | alice => rfl
  | bob => rfl

/-- The exchange after a command of Alice. -/
def commanded (y : Exchange Role) (c : Command) : Exchange Role := y.handled children .alice penv (.ok c)

def launchedUp : Exchange Role :=
  (commanded ((unlaunched.exchange.started children .alice pass).started children .bob pass) .status).handled children .bob penv
    (.ok .status)

/-- The exchange when the payment has been approved. -/
def consented : Exchange Role :=
  [Command.submitIntent (intent "i" 100), .submitQuoteLocal (quote "i" "invoice A" 100), .prepare,
    .approve "i" "quote 1" "hash"].foldl commanded launchedUp

theorem launched_launchedUp :
    unlaunched.exchange.launched lineRuntime children (fun _ => pass) (fun _ => penv) = launchedUp := by
  have hstatus (r : Role) : readCommand lineRuntime (Query.status r).request = .ok .status :=
    query_reads r [("command", .str "status")]
  rw [Exchange.launched, hstatus, hstatus]
  rfl

theorem penv_readsFrom (board : List PaymentMessage) : penv.ReadsFrom board := by
  intro limit ms hms m hm
  cases hms
  cases hm

theorem consented_served : Served lineRuntime children launchedUp [submitting, quoting, preparing, consenting] consented := by
  have hcons {y z : Exchange Role} {members : List (PyStr × Json)} {qs : List Query} {c : Command}
      (hforwarded : (query .alice members).Forwarded lineRuntime)
      (hread : (JsonlCommand.ofJson (Json.reread lineRuntime.readFloat requestOptions (.obj members))).map
        (JsonlCommand.command lineRuntime) = .ok c) (hrest : Served lineRuntime children (commanded y c) qs z) :
      Served lineRuntime children y (query .alice members :: qs) z := by
    refine .cons hforwarded (penv_readsFrom y.board) (fun _ _ _ => rfl) ?_
    rwa [query_reads, hread]
  exact hcons submitting_forwarded rfl (hcons quoting_forwarded rfl (hcons preparing_forwarded rfl
    (hcons consenting_forwarded rfl (.nil consented))))

/-- A session up to the approval. -/
theorem consented_run : ∃ h texts, texts.length = 6 ∧ SessionRun lineRuntime children h (atRest consented .listening texts) := by
  obtain ⟨es, texts, htwo, hup⟩ := comes_up unlaunched_run rfl (fun _ => rfl) (fun _ => rfl) unlaunched_starts
    (fun _ => penv_readsFrom _) (fun _ => rfl) (fun _ _ _ _ => rfl)
  rw [launched_launchedUp] at hup
  obtain ⟨es', more, hfour, hrun⟩ := consented_served.reachable hup
  exact ⟨_, texts ++ more, by rw [List.length_append, htwo, hfour]; rfl, hrun⟩

/-- The operator has typed that the payment be executed. -/
theorem executing_run : ∃ h texts, SessionRun lineRuntime children h (serving consented (fun _ => .fresh) .alice
    (Worker.fresh.asked executing.request.toList) (.awaiting executing) texts) := by
  obtain ⟨h, texts, _, hrun⟩ := consented_run
  obtain ⟨line, hline, hmove⟩ := executing_forwarded
  have hchecked : SessionStep lineRuntime children (atRest consented .listening texts) .looped
      (atRest consented .reading texts) := .checked rfl fun _ => rfl
  have hsent : SessionStep lineRuntime children (atRest consented .reading texts) (.sent ⟨some line, .alice, executing.request⟩)
      (serving consented (fun _ => .fresh) .alice (Worker.fresh.asked executing.request.toList)
        (.awaiting ⟨some line, .alice, executing.request⟩) texts) := .forwarded rfl hmove rfl
  rw [← hline] at hsent
  exact ⟨_, texts, (hrun.snoc hchecked).snoc hsent⟩

end Sample

section

variable {rt : LineRuntime} {config : Role → ProcessConfig} {x x' : Session} {r : Role} {h : SessionHistory}

/-- **A supervisor that has stopped**, wherever its children were killed, can be launched again, and whatever the operator then
    types for the children is carried out, line by line, as the exchange would. -/
theorem operator_served (hrun : SessionRun rt config h x) {code : Nat} (hphase : x.phase = .stopped code)
    (hdown : ∀ r, (x.child r).running = false) {pass : Role → StartPass} {penv : Role → ProcessEnv}
    (hopens : ∀ r, (x.exchange.nodes r).world.audit.opens = true)
    (hok : ∀ r, ((x.exchange.nodes r).world.start (config r) (pass r)).result = .ok ())
    (hpenv : ∀ r, (penv r).ReadsFrom x.exchange.board) (hready : ∀ r : Role, rt.limit (readyLine r.name) = none)
    (hlimit : ∀ r s text, Answers (config r).isAlnum
      (ProcessState.handle (config r) s (penv r) (readCommand rt (Query.status r).request)).result text → rt.limit text = none)
    {qs : List Query} {z : Exchange Role} (hserved : Served rt config (x.exchange.launched rt config pass penv) qs z) :
    ∃ es texts, texts.length = qs.length + 2 ∧ SessionRun rt config (h ++ es) (atRest z .listening texts) := by
  obtain ⟨es, texts, htwo, hup⟩ := comes_up hrun hphase hdown hopens hok hpenv hready hlimit
  obtain ⟨es', more, hlength, hall⟩ := hserved.reachable hup
  refine ⟨es ++ es', texts ++ more, ?_, ?_⟩
  · rw [List.length_append, htwo, hlength]
    omega
  · rwa [← List.append_assoc]

theorem operator_served_payment : ∃ h texts, texts.length = 6 ∧
    SessionRun Sample.lineRuntime Sample.children h (atRest Sample.consented .listening texts) := by
  have hserved := Sample.consented_served
  rw [← Sample.launched_launchedUp] at hserved
  obtain ⟨es, texts, hlength, hrun⟩ := operator_served Sample.unlaunched_run rfl (fun _ => rfl) (fun _ => rfl)
    Sample.unlaunched_starts (fun _ => Sample.penv_readsFrom _) (fun _ => rfl) (fun _ _ _ _ => rfl) hserved
  exact ⟨_, texts, hlength, hrun⟩

/-! ## Answers come -/

/-- The events are those of a child that is not killed. -/
def Lives (r : Role) (es : SessionHistory) : Prop := ∀ e ∈ es, ∃ act event, e.seen = .child r act event ∧ act ≠ .killed

theorem Lives.nil (r : Role) : Lives r [] := by
  intro e he
  cases he

theorem Lives.cons {r : Role} {e : Event Session SessionEvent} {es : SessionHistory} {act : WorkerAct}
    {event : Option NodeEvent} (hseen : e.seen = .child r act event) (hact : act ≠ .killed) (hes : Lives r es) :
    Lives r (e :: es) := by
  intro e' he'
  rcases List.mem_cons.mp he' with rfl | he'
  · exact ⟨act, event, hseen, hact⟩
  · exact hes e' he'

/-- An answer that a child has given comes through. -/
theorem answering_reachable (hrun : SessionRun rt config h x) {r : Role} {text : List Char}
    (hanswering : (x.child r).Answering text) (htext : Unbroken text) :
    ∃ es x', es.length ≤ 1 ∧ Lives r es ∧ SessionRun rt config (h ++ es) x' ∧ x'.phase = x.phase ∧
      (readLine (!(x'.child r).running) (x'.child r).stdout).isSome = true := by
  rcases hanswering.progress htext with hready | ⟨w, hstep, hready⟩
  · exact ⟨[], x, Nat.zero_le 1, .nil r, by rwa [List.append_nil], rfl, hready⟩
  · have hflushed : SessionStep rt config x (.child r .flushed none) { x with child := Function.update x.child r w } :=
      .piped hstep .flushed
    refine ⟨[⟨x, _, _⟩], _, Nat.le_refl 1, .cons rfl ?_ (.nil r), hrun.snoc hflushed, rfl, ?_⟩
    · intro hkilled
      cases hkilled
    · show (readLine (!(Function.update x.child r w r).running) (Function.update x.child r w r).stdout).isSome = true
      rw [Function.update_self]
      exact hready

/-- A child that has been asked handles the request. -/
theorem handling_reachable (hrun : SessionRun rt config h x) {r : Role} {request : String}
    (hobject : ObjectLine request) (hasked : (x.child r).Asked request.toList) (hup : x.Up r)
    (hrunning : (x.child r).running = true) {penv : ProcessEnv}
    (hpenv : penv.ReadsFrom x.exchange.board) :
    ∃ es x', es.length = 1 ∧ Lives r es ∧ SessionRun rt config (h ++ es) x' ∧ x'.phase = x.phase ∧
      ∃ text, ObjectLine text ∧ (x'.child r).Answering text.toList := by
  obtain ⟨s, hs⟩ := Option.isSome_iff_exists.mp (hup hrunning)
  have hread : readLine false (x.child r).stdin = some (request.toList, []) := by
    rw [hasked.stdin hrunning]
    exact readLine_line hobject.line.unbroken []
  obtain ⟨text, htext⟩ := exists_answers (config r).isAlnum (s.handle (config r) penv (readCommand rt request)).result
  have hanswered := Worker.Step.answered hrunning (hasked.buffer hrunning) hread text.toList
  have hstep : SessionStep rt config x _ _ :=
    .acted hanswered (.of_request hobject htext) (Exchange.handled_step hs hpenv (readCommand rt request))
  refine ⟨[⟨x, _, _⟩], _, rfl, .cons rfl ?_ (.nil r), hrun.snoc hstep, rfl, text, htext.object, ?_⟩
  · intro hkilled
    cases hkilled
  · show (Function.update x.child r _ r).Answering text.toList
    rw [Function.update_self]
    rcases hasked.step hobject.line.unbroken hanswered with ⟨_, hact⟩ | hact | ⟨_, hact, hanswering⟩ | ⟨hact | hact, _⟩
    · cases hact
    · cases hact
    · cases hact
      exact hanswering
    · cases hact
    · cases hact

/-- **An answer that is waited for can still come**, whatever the wallet and the transport say to it: at most two steps of the
    child, and there is a line to read. -/
theorem answer_reachable (hrun : SessionRun rt config h x) {q : Query} (hphase : x.phase = .awaiting q) {penv : ProcessEnv}
    (hpenv : penv.ReadsFrom x.exchange.board) :
    ∃ es x', es.length ≤ 2 ∧ Lives q.target es ∧ SessionRun rt config (h ++ es) x' ∧ x'.phase = .awaiting q ∧
      (readLine (!(x'.child q.target).running) (x'.child q.target).stdout).isSome = true := by
  have hat := Orderly.at_phase hrun.orderly (by rw [hphase]; intro code hcode; cases hcode)
  rw [hphase] at hat
  obtain ⟨_, hobject, _, hup, ⟨_, hasked⟩ | ⟨_, text, _, _, hline, hanswering⟩⟩ := hat
  · cases hrunning : (x.child q.target).running with
    | false =>
        refine ⟨[], x, Nat.zero_le 2, .nil _, by rwa [List.append_nil], hphase, ?_⟩
        rw [hrunning, hasked.stdout]
        rfl
    | true =>
        obtain ⟨es, x₁, hone, hlives, hrun₁, hphase₁, text, hline, hanswering⟩ :=
          handling_reachable hrun hobject hasked (hup _) hrunning hpenv
        obtain ⟨es', x₂, hlen, hlives', hrun₂, hphase₂, hready⟩ := answering_reachable hrun₁ hanswering hline.line.unbroken
        refine ⟨es ++ es', x₂, ?_, ?_, ?_, ?_, hready⟩
        · rw [List.length_append, hone]
          omega
        · intro e he
          rcases List.mem_append.mp he with he | he
          · exact hlives e he
          · exact hlives' e he
        · rwa [← List.append_assoc]
        · rw [hphase₂, hphase₁, hphase]
  · obtain ⟨es, x', hlen, hlives, hrun', hphase', hready⟩ := answering_reachable hrun hanswering hline.line.unbroken
    exact ⟨es, x', hlen.trans (by decide), hlives, hrun', hphase'.trans hphase, hready⟩

theorem answer_reachable_executing : ∃ h x', SessionRun Sample.lineRuntime Sample.children h x' ∧
    x'.phase = .awaiting Sample.executing ∧ (readLine (!(x'.child .alice).running) (x'.child .alice).stdout).isSome = true := by
  obtain ⟨h, texts, hrun⟩ := Sample.executing_run
  obtain ⟨es, x', _, _, hrun', hphase, hready⟩ := answer_reachable hrun rfl (Sample.penv_readsFrom _)
  exact ⟨_, x', hrun', hphase, hready⟩

end

end HermesPayments
