import HermesPayments.Exchange.Correctness.Payments
import HermesPayments.Session.Progress

/-!
# `HermesPayments.Session.Correctness.Operator` — what the operator sees and says

What is printed for a command is what its target answered to that command and to no other (`session_transcript`), an answer
that is waited for can always still come (`answer_reachable`), a supervisor that has lost a child sends at most one more
command (`fail_closed`), and nothing is paid that the operator has not approved and then told to be executed, each on a
line of its own (`payment_typed`). All of it in every run: whenever the children are killed, wherever their output is cut
off, and however often the supervisor is launched again.
-/

namespace HermesPayments

open Lib

/-! ## The transcript -/

def queriesOf (h : SessionHistory) : List Query := (since h).filterMap SessionEvent.query?

def shownOf (h : SessionHistory) : List (Query × String) := (since h).filterMap SessionEvent.shown?

def repliesOf (h : SessionHistory) : List Reply := (since h).filterMap SessionEvent.reply?

/-- What has been sent and not shown, and its answer that has not been read: at most one of each. -/
inductive Outstanding : List Query → List Reply → Prop
  | none : Outstanding [] []
  | unanswered (q : Query) : Outstanding [q] []
  | unread (q : Query) (text : String) : Outstanding [q] [⟨q.target, q.request, text⟩]

section

variable {rt : LineRuntime} {config : Role → ProcessConfig} {x : Session} {h : SessionHistory}

/-- **The transcript** of a supervisor: it sends the two status commands and then what the operator's lines come to; the
    children handle what has been sent, in that order and nothing else; and what is printed shows their answers one by one.
    At most one command is not answered or not shown, and none when the supervisor listens or has ended well. -/
theorem session_transcript (hrun : SessionRun rt config h x) :
    x.printed = (shownOf h).map Prod.snd ∧ SentAt rt (queriesOf h) x.phase ∧
      ∃ read unread pending, repliesOf h = read ++ unread ∧ List.Forall₂ (Prints rt) read (shownOf h) ∧
        queriesOf h = (shownOf h).map Prod.fst ++ pending ∧ Outstanding pending unread ∧
        ((∀ q, x.phase ≠ .awaiting q) → (∀ code, x.phase = .stopped code → code = 0) → pending = []) := by
  refine ⟨hrun.printed, hrun.sent, ?_⟩
  obtain ⟨p, ho, hphase⟩ := hrun.orderly
  have hnone (hA : List.Forall₂ (Prints rt) (repliesOf h) (shownOf h)) (hS : queriesOf h = (shownOf h).map Prod.fst) :
      ∃ read unread pending, repliesOf h = read ++ unread ∧ List.Forall₂ (Prints rt) read (shownOf h) ∧
        queriesOf h = (shownOf h).map Prod.fst ++ pending ∧ Outstanding pending unread ∧
        ((∀ q, x.phase ≠ .awaiting q) → (∀ code, x.phase = .stopped code → code = 0) → pending = []) :=
    ⟨repliesOf h, [], [], (List.append_nil _).symm, hA, hS.trans (List.append_nil _).symm, .none, fun _ _ => rfl⟩
  cases p with
  | stopped _ => exact ho.elim
  | starting _ =>
      obtain ⟨hS, hW, hA, _, _⟩ := ho
      refine hnone ?_ ?_
      · rw [repliesOf, shownOf, hA, hW]
        exact .nil
      · rw [queriesOf, shownOf, hS, hW]
        rfl
  | greeting _ | listening | reading => exact hnone ho.2.1 ho.1
  | awaiting q =>
      obtain ⟨hS, _, _, _, hstate⟩ := ho
      have hwaiting (hno : ∀ q, x.phase ≠ .awaiting q) (hzero : ∀ code, x.phase = .stopped code → code = 0) : [q] = [] := by
        rcases hphase with hphase | ⟨code, hstopped, hcode⟩
        · exact absurd hphase (hno q)
        · exact absurd rfl (hcode (hzero code hstopped) q)
      rcases hstate with ⟨hprints, _⟩ | ⟨A', text, hA, hprints, _, _⟩
      · exact ⟨repliesOf h, [], [q], (List.append_nil _).symm, hprints, hS, .unanswered q, hwaiting⟩
      · exact ⟨A', _, [q], hA, hprints, hS, .unread q text, hwaiting⟩

theorem session_transcript_consented : ∃ h, (shownOf h).length = 6 ∧ queriesOf h = (shownOf h).map Prod.fst ∧
    List.Forall₂ (Prints Sample.lineRuntime) (repliesOf h) (shownOf h) := by
  obtain ⟨h, texts, hlength, hrun⟩ := Sample.consented_run
  obtain ⟨hprinted, _, read, unread, pending, hreplies, hprints, hqueries, houtstanding, hpending⟩ := session_transcript hrun
  have hnone : pending = [] := by
    refine hpending ?_ ?_
    · intro q hq
      cases hq
    · intro code hcode
      cases hcode
  subst hnone
  cases houtstanding with
  | none =>
      rw [List.append_nil] at hreplies hqueries
      rw [← hreplies] at hprints
      refine ⟨h, ?_, hqueries, hprints⟩
      rw [← List.length_map Prod.snd, ← hprinted]
      exact hlength

/-! ## What a child reads -/

/-- **What the operator types is what a child executes**: the child reads of the request, which the supervisor has written anew
    and without the target, the command that stands on the operator's own line. -/
theorem forwarded_command {line request : String} {target : Role} (hsound : rt.Sound)
    (hmove : operatorMove rt (some line) = .forward target request) (hlimit : rt.limit request = none) :
    readCommand rt request = readCommand rt line := by
  obtain ⟨_, members, hline, hloads, _, rfl⟩ := operatorMove_forward hmove
  cases hline
  have hwell : (Json.obj members).WellRead rt.readFloat :=
    Json.wellRead_of_loads hsound.readsBack (loads_of_jsonLoads hloads)
  have hfiltered : (Json.obj (members.filter fun m => m.1 ≠ "target")).WellRead rt.readFloat := by
    cases hwell with
    | obj hnd hmembers =>
        refine .obj (hnd.sublist (List.filter_sublist.map _)) fun m hm => hmembers m (List.mem_filter.mp hm).1
  rw [readCommand_dumps hsound standard_requestOptions hfiltered hlimit,
    JsonlCommand.ofJson_filter (by decide) (by decide), readCommand, JsonlCommand.parse, hloads]

theorem forwarded_command_consenting : ∃ line, Sample.consenting.typed = some line ∧
    readCommand Sample.lineRuntime Sample.consenting.request = readCommand Sample.lineRuntime line ∧
    readCommand Sample.lineRuntime line = .ok (.approve "i" "quote 1" "hash") := by
  obtain ⟨line, htyped, hmove⟩ := Sample.consenting_forwarded
  have hsame := forwarded_command Sample.lineRuntime_sound hmove rfl
  exact ⟨line, htyped, hsame, hsame.symm.trans (Sample.query_reads _ _)⟩

/-! ## A child that is lost -/

/-- How many more requests a supervisor sends at most when a child is down. -/
def budget (lost : Role) : Phase → Nat
  | .reading => 1
  | .starting .bob => if lost = .bob then 1 else 0
  | .greeting r => if r = lost then 0 else 1
  | .awaiting ⟨none, .alice, _⟩ => if lost = .alice then 1 else 0
  | .starting .alice | .awaiting _ | .listening | .stopped _ => 0

theorem budget_le (lost : Role) (p : Phase) : budget lost p ≤ 1 := by
  unfold budget
  split
  · exact Nat.le_refl 1
  · split
    · exact Nat.le_refl 1
    · exact Nat.zero_le 1
  · split
    · exact Nat.zero_le 1
    · exact Nat.le_refl 1
  · split
    · exact Nat.le_refl 1
    · exact Nat.zero_le 1
  · exact Nat.zero_le 1
  · exact Nat.zero_le 1
  · exact Nat.zero_le 1
  · exact Nat.zero_le 1

/-- A child that was started is down. -/
structure Down (r : Role) (x : Session) : Prop where
  stopped : (x.child r).running = false
  started : x.phase = .starting .alice → r = .alice

/-- **What a step spends** while a child is down. -/
theorem Down.step {r : Role} {x' : Session} {e : SessionEvent} (hdown : Down r x) (hstep : SessionStep rt config x e x')
    (he : e ≠ .launched) : Down r x' ∧ (e.query?.toList.length + budget r x'.phase ≤ budget r x.phase) := by
  obtain ⟨hstopped, hstarted⟩ := hdown
  -- the child does not act
  have hacts {r' : Role} {act : WorkerAct} {w : Worker} (hact : Worker.Step (x.child r') act w) :
      (Function.update x.child r' w r).running = false := by
    by_cases hr : r = r'
    · subst hr
      rw [hact.running] at hstopped
      cases hstopped
    · rw [Function.update_of_ne hr]
      exact hstopped
  have hreads {r' : Role} {w : Worker} (hw : w.running = (x.child r').running) :
      (Function.update x.child r' w r).running = false := by
    by_cases hr : r = r'
    · subst hr
      rw [Function.update_self, hw]
      exact hstopped
    · rw [Function.update_of_ne hr]
      exact hstopped
  have hstop {code : Nat} : Down r { x with phase := .stopped code } ∧ 0 + budget r (.stopped code) ≤ budget r x.phase :=
    ⟨⟨hstopped, by intro h; cases h⟩, Nat.zero_le _⟩
  cases hstep with
  | launched _ _ => exact absurd rfl he
  | acted hact _ _ | piped hact _ | failed hact _ => exact ⟨⟨hacts hact, hstarted⟩, (Nat.zero_add _).le⟩
  | others _ => exact ⟨⟨hstopped, hstarted⟩, (Nat.zero_add _).le⟩
  | unready _ _ _ | brokenGreeting _ _ | brokenForward _ _ _ | unanswered _ _ _ | exited _ _ | ended _ _ | interrupted _ =>
      exact hstop
  | @readyAlice text rest hphase _ _ =>
      -- Bob is started only now, so it is Alice who is down
      obtain rfl := hstarted hphase
      have hne : Role.alice ≠ Role.bob := by decide
      refine ⟨⟨?_, by intro h; cases h⟩, Nat.zero_le _⟩
      show (Function.update (Function.update x.child .alice { x.child .alice with stdout := rest }) .bob .fresh .alice).running = false
      rw [Function.update_of_ne hne]
      exact hreads rfl
  | readyBob hphase _ _ =>
      refine ⟨⟨hreads rfl, by intro h; cases h⟩, ?_⟩
      rw [hphase]
      show 0 + budget r (.greeting .alice) ≤ budget r (.starting .bob)
      cases r with
      | alice => exact Nat.le_refl 0
      | bob => exact Nat.le_refl 1
  | checked _ hup =>
      rw [hup r] at hstopped
      cases hstopped
  | again hphase => exact ⟨⟨hstopped, by intro h; cases h⟩, Nat.zero_le _⟩
  | @greeted r' hphase hrunning =>
      refine ⟨⟨hreads rfl, by intro h; cases h⟩, ?_⟩
      rw [hphase]
      show 1 + budget r (.awaiting (.status r')) ≤ budget r (.greeting r')
      cases r with
      | alice =>
          cases r' with
          | alice =>
              rw [hrunning] at hstopped
              cases hstopped
          | bob => exact Nat.le_refl 1
      | bob =>
          cases r' with
          | alice => exact Nat.le_refl 1
          | bob =>
              rw [hrunning] at hstopped
              cases hstopped
  | @forwarded line request target hphase _ _ =>
      refine ⟨⟨hreads rfl, by intro h; cases h⟩, ?_⟩
      rw [hphase]
      exact Nat.le_refl 1
  | @shown q _ _ _ hphase _ _ =>
      refine ⟨⟨hreads rfl, ?_⟩, ?_⟩
      · intro hstarting
        rcases q.next_cases with hnext | hnext
        · rw [show q.next = .starting .alice from hstarting] at hnext
          cases hnext
        · rw [show q.next = .starting .alice from hstarting] at hnext
          cases hnext
      · rw [hphase]
        show 0 + budget r q.next ≤ budget r (.awaiting q)
        obtain ⟨typed, target, request⟩ := q
        cases typed with
        | some _ => exact Nat.le_refl 0
        | none =>
            cases target with
            | bob => exact Nat.le_refl 0
            | alice =>
                cases r with
                | alice => exact Nat.le_refl 1
                | bob => exact Nat.le_refl 0

/-- A request is sent to a child that runs. -/
theorem Down.sent {r : Role} {x' : Session} {q : Query} (hdown : Down r x) (hstep : SessionStep rt config x (.sent q) x') :
    q.target ≠ r := by
  rintro rfl
  have hstopped := hdown.stopped
  cases hstep with
  | greeted _ hrunning | forwarded _ _ hrunning =>
      cases hrunning.symm.trans hstopped

/-- **A supervisor that has lost a child** sends at most one more request before it is launched again, and to the other. -/
theorem fail_closed (hrun : SessionRun rt config h x) {j : Nat} {e : Event Session SessionEvent} (he : h[j]? = some e)
    {r : Role} (hdown : Down r e.before) (hlaunch : ∀ e' ∈ h.drop j, e'.seen ≠ .launched) :
    ((h.drop j).filterMap fun e' => e'.seen.query?).length ≤ 1 ∧
      ∀ q, (∃ e' ∈ h.drop j, e'.seen = .sent q) → q.target ≠ r := by
  have hkeep (x : Session) (e : SessionEvent) (x' : Session) (hdown : Down r x) (hstep : SessionStep rt config x e x')
      (he : e ≠ .launched) := hdown.step hstep he
  refine ⟨?_, ?_⟩
  · obtain ⟨_, hspent⟩ := hrun.spends hkeep he hdown hlaunch
    have hle := budget_le r e.before.phase
    rw [List.filterMap_eq_flatMap_toList]
    omega
  · rintro q ⟨e', he', hseen⟩
    obtain ⟨i, hi⟩ := List.getElem?_of_mem he'
    rw [List.getElem?_drop] at hi
    obtain ⟨hpast, hstep⟩ := hrun.at_position hi
    rw [hseen] at hstep
    refine Down.sent ?_ hstep
    cases i with
    | zero =>
        obtain rfl : e = e' := Option.some.inj (he.symm.trans hi)
        exact hdown
    | succ i =>
        have hearlier : (h.take (j + (i + 1)))[j]? = some e := by
          rw [List.getElem?_take_of_lt (by omega)]
          exact he
        refine (hpast.spends hkeep hearlier hdown fun e'' he'' => hlaunch e'' ?_).1
        rw [List.drop_take] at he''
        exact List.mem_of_mem_take he''

theorem fail_closed_executing : ∃ (h : SessionHistory) (j : Nat), (∃ e ∈ h.drop j, e.seen = .sent Sample.executing) ∧
    ((h.drop j).filterMap fun e' => e'.seen.query?).length ≤ 1 := by
  obtain ⟨h, texts, _, hrun⟩ := Sample.consented_run
  have hchecked : SessionStep Sample.lineRuntime Sample.children (atRest Sample.consented .listening texts) .looped
      (atRest Sample.consented .reading texts) := .checked rfl fun _ => rfl
  -- Bob is killed while the operator types
  have hcut : ∃ n', NodeStep (Sample.children .bob) (Sample.consented.nodes .bob)
      (.killed Sample.penv (.error .argumentError) []) n' :=
    ⟨_, .killed _ _ Sample.penv (.error .argumentError) ⟨0, .nothing⟩⟩
  obtain ⟨n', hcut⟩ := hcut
  let down (y : Exchange Role) : Session := serving y (fun _ => .fresh) .bob ⟨false, [], [], []⟩ .reading texts
  obtain ⟨y, hkilled⟩ : ∃ y, SessionStep Sample.lineRuntime Sample.children (atRest Sample.consented .reading texts)
      (.child .bob .killed (some (.killed Sample.penv (.error .argumentError) []))) (down y) := by
    rw [← serving_fresh]
    refine ⟨_, serving_acted (.killed rfl) .died (.party hcut ?_)⟩
    intro penv parsed hline limit ms hms m hm
    cases hline
    cases hms
    cases hm
  obtain ⟨line, htyped, hmove⟩ := Sample.executing_forwarded
  have hdown : Down .bob (down y) := ⟨rfl, by intro h; cases h⟩
  have hsent : SessionStep Sample.lineRuntime Sample.children (down y) (.sent ⟨some line, .alice, Sample.executing.request⟩) _ :=
    .forwarded rfl hmove rfl
  rw [← htyped] at hsent
  have hlost := ((hrun.snoc hchecked).snoc hkilled).snoc hsent
  refine ⟨_, _, ?_, (fail_closed hlost List.getElem?_concat_length hdown ?_).1⟩
  · rw [List.drop_left]
    exact ⟨_, List.mem_singleton_self _, rfl⟩
  · intro e he
    rw [List.drop_left] at he
    rw [List.mem_singleton.mp he]
    intro h
    cases h

/-! ## What is paid -/

/-- **A payment is typed**: when a child pays for an intent, the operator has forwarded to it an `approve` with the intent's id
    and with the hash or what is shown of it, and an `execute`. -/
theorem payment_typed (hrun : SessionRun rt config h x) {j : Nat} {e : Event Session SessionEvent} {r : Role} {act : WorkerAct}
    {event : NodeEvent} {id hash : String} {payload : Bytes} (he : h[j]? = some e) (hseen : e.seen = .child r act (some event))
    (hw : .peer (.policy (.executeCall id payload hash)) ∈ event.performed (config r) (e.before.exchange.nodes r)) :
    Typed rt (h.take j) r "execute" [] ∧ ∃ shown, (shown = hash ∨ shown = redactedIdentifier hash) ∧
      Typed rt (h.take j) r "approve" [("intent_id", id), ("prepared_hash", shown)] := by
  obtain ⟨hpast, hstep⟩ := hrun.at_position he
  replace hpast : SessionRun rt config (h.take j) e.before := hpast
  have hparty : ∃ n', NodeStep (config r) (e.before.exchange.nodes r) event n' := by
    rw [hseen] at hstep
    generalize e.after = x' at hstep
    cases hstep with
    | acted _ _ hparty =>
        obtain ⟨n', hnode, _⟩ := hparty.of_party
        exact ⟨n', hnode⟩
  obtain ⟨n', hnode⟩ := hparty
  refine ⟨?_, ?_⟩
  · obtain ⟨_, _, _, hline, _⟩ := hnode.dispatches hw
    obtain ⟨q, hsent, rfl, _, hread⟩ := hpast.told hstep hseen hline
    obtain ⟨ms, hloads, _⟩ := readCommand_eq_ok hread
    exact hpast.typed hsent hread (by decide) hloads (by intro f hf; cases hf)
  · obtain ⟨_, _, _, a, _, _, _, _, _, happroval, rfl⟩ := ExchangeRun.dispatch_sources hpast.exchange hnode hw
    obtain ⟨shown, htold, hshown⟩ := happroval.told
    obtain ⟨q, hsent, rfl, hread⟩ := hpast.sent_of_told htold
    obtain ⟨ms, hloads, _, hid, _, hhash⟩ := readCommand_approve hread
    refine ⟨shown, hshown, hpast.typed hsent hread (show "approve" ≠ "status" by decide) hloads ?_⟩
    intro f hf
    rcases List.mem_cons.mp hf with rfl | hf
    · exact ⟨show "intent_id" ≠ "target" by decide, hid⟩
    · rw [List.mem_singleton.mp hf]
      exact ⟨show "prepared_hash" ≠ "target" by decide, hhash⟩

theorem payment_typed_executing : ∃ h : SessionHistory, Typed Sample.lineRuntime h .alice "execute" [] ∧
    ∃ shown, (shown = "hash" ∨ shown = redactedIdentifier "hash") ∧
      Typed Sample.lineRuntime h .alice "approve" [("intent_id", "i"), ("prepared_hash", shown)] := by
  obtain ⟨h, texts, _, hrun⟩ := Sample.consented_run
  have hread : readCommand Sample.lineRuntime Sample.executing.request = .ok .execute := Sample.query_reads _ _
  obtain ⟨es, response, hpaid, e, he, hbefore, act, result, hseen⟩ := carried_out hrun rfl (fun _ => rfl)
    Sample.executing_forwarded (Sample.penv_readsFrom _) (fun _ _ _ => rfl)
  obtain ⟨j, hj⟩ := List.getElem?_of_mem (List.mem_append_right h he)
  rw [hread] at hseen
  have hpays : .peer (.policy (.executeCall "i" [1, 2, 3] "hash")) ∈ (Sample.consented.nodes .alice).proc.elim []
      fun s => (s.handle (Sample.children .alice) Sample.penv (.ok .execute)).effects := by decide
  have hw : .peer (.policy (.executeCall "i" [1, 2, 3] "hash")) ∈
      (NodeEvent.handled Sample.penv (.ok .execute) result).performed (Sample.children .alice)
        (e.before.exchange.nodes .alice) := by
    rw [hbefore]
    exact hpays
  exact ⟨_, payment_typed hpaid hj hseen hw⟩

end

end HermesPayments
