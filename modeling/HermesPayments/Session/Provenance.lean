import HermesPayments.Exchange.Provenance
import HermesPayments.Session.Lockstep

/-!
# `HermesPayments.Session.Provenance` — the operator's lines behind what the processes do

The processes of a session are parties of an exchange (`SessionRun.exchange`), so what is known of their records holds
here. And a command that a child handles was on a line that the supervisor had sent to it (`SessionRun.told`): its own
status command, or what a line typed by the operator comes to, member for member.
-/

namespace HermesPayments

open Lib

/-! ## The exchange -/

/-- What the exchange sees of a step. -/
def SessionEvent.exchange? : SessionEvent → Option (ExchangeEvent Role)
  | .child r _ (some event) => some (.party r event)
  | .others ms => some (.others ms)
  | _ => none

/-- What the exchange sees of a history. -/
abbrev exchangeHistory (h : SessionHistory) : ExchangeHistory Role := project Session.exchange SessionEvent.exchange? h

section

variable {rt : LineRuntime} {config : Role → ProcessConfig} {x x' : Session} {r : Role} {h : SessionHistory}

/-- **The processes of a session are parties of an exchange.** -/
theorem SessionRun.exchange (hrun : SessionRun rt config h x) : ExchangeRun config (exchangeHistory h) x.exchange := by
  refine hrun.project ?_ ?_ ?_
  · intro x hinit
    exact hinit.1
  · intro x e x' seen hstep hseen
    cases hstep with
    | acted _ _ hparty =>
        cases hseen
        exact hparty
    | others hothers =>
        cases hseen
        exact hothers
    | piped _ _ | failed _ _ | launched _ _ | readyAlice _ _ _ | readyBob _ _ _ | unready _ _ _ | greeted _ _
      | forwarded _ _ _ | brokenGreeting _ _ | brokenForward _ _ _ | shown _ _ _ | unanswered _ _ _ | checked _ _ | exited _ _
      | again _ | ended _ _ | interrupted _ => cases hseen
  · intro x e x' hstep hseen
    cases hstep with
    | acted _ _ _ | others _ => cases hseen
    | piped _ _ | failed _ _ | launched _ _ | readyAlice _ _ _ | readyBob _ _ _ | unready _ _ _ | greeted _ _
      | forwarded _ _ _ | brokenGreeting _ _ | brokenForward _ _ _ | shown _ _ _ | unanswered _ _ _ | checked _ _ | exited _ _
      | again _ | ended _ _ | interrupted _ => rfl

/-! ## What a child has been told -/

/-- A line that a running child reads is a request that the supervisor has sent to it. -/
theorem Orderly.asked {S : List Query} {W : List (Query × String)} {A : List Reply} (ho : Orderly rt x S W A)
    (hrunning : (x.child r).running = true) {line rest : List Char} (hread : readLine false (x.child r).stdin = some (line, rest)) :
    ∃ q ∈ S, q.target = r ∧ line = q.request.toList ∧ ObjectLine q.request := by
  have hidle (hstdin : (x.child r).stdin = []) : False := by
    rw [hstdin, Worker.readLine_nil] at hread
    cases hread
  obtain ⟨p, ho, _⟩ := ho
  cases p with
  | stopped _ => exact ho.elim
  | greeting _ | listening | reading => exact (hidle ((ho.2.2 r).1.stdin hrunning)).elim
  | starting r₀ =>
      obtain ⟨_, _, _, hothers, hstarting⟩ := ho
      by_cases hr : r = r₀
      · subst hr
        rcases hstarting with h | ⟨h, _⟩
        · exact (hidle (h.stdin hrunning)).elim
        · exact (hidle (h.stdin hrunning)).elim
      · exact (hidle ((hothers r hr).1.stdin hrunning)).elim
  | awaiting q =>
      obtain ⟨hsent, hobject, hothers, _, hstate⟩ := ho
      by_cases hr : r = q.target
      · subst hr
        rcases hstate with ⟨_, hasked⟩ | ⟨_, _, _, _, _, hanswering⟩
        · rw [hasked.stdin hrunning, readLine_line hobject.line.unbroken] at hread
          refine ⟨q, ?_, rfl, ?_, hobject⟩
          · rw [hsent]
            exact List.mem_append_right _ (List.mem_singleton_self q)
          · cases hread
            rfl
        · exact (hidle (hanswering.stdin hrunning)).elim
      · exact (hidle ((hothers r hr).stdin hrunning)).elim

/-- The supervisor has sent the query. -/
def Requested (h : SessionHistory) (q : Query) : Prop := ∃ e ∈ h, e.seen = .sent q

/-- What was sent since the launch was sent. -/
theorem sent_of_since {q : Query} (hq : q ∈ (since h).filterMap SessionEvent.query?) : Requested h q := by
  obtain ⟨event, hevent, hquery⟩ := List.mem_filterMap.mp hq
  have hmem (es past : List SessionEvent) (hevent : event ∈ es.foldl SessionEvent.keep past) :
      event ∈ es ∨ event ∈ past := by
    induction es generalizing past with
    | nil => exact .inr hevent
    | cons e es ih =>
        rcases ih _ hevent with hmem | hmem
        · exact .inl (List.mem_cons_of_mem e hmem)
        · unfold SessionEvent.keep at hmem
          split at hmem
          · cases hmem
          · rcases List.mem_append.mp hmem with hmem | hmem
            · exact .inr hmem
            · rw [List.mem_singleton.mp hmem]
              exact .inl List.mem_cons_self
  rcases hmem _ _ hevent with hmem | hmem
  · obtain ⟨e, he, rfl⟩ := List.mem_map.mp hmem
    refine ⟨e, he, ?_⟩
    generalize e.seen = seen at hquery
    cases seen with
    | sent q' =>
        cases hquery
        rfl
    | child _ _ _ | others _ | launched | ready _ | shown _ _ | looped | stopped _ => cases hquery
  · cases hmem

/-- Everything that was sent is a child's status command or has been forwarded. -/
theorem SessionRun.sent_cases (hrun : SessionRun rt config h x) {q : Query} (hsent : Requested h q) :
    q = .status q.target ∨ q.Forwarded rt := by
  obtain ⟨e, he, hseen⟩ := hsent
  obtain ⟨_, _, hstep⟩ := hrun.of_mem he
  rw [hseen] at hstep
  generalize e.after = x' at hstep
  cases hstep with
  | greeted _ _ => exact .inl rfl
  | forwarded _ hmove _ => exact .inr ⟨_, rfl, hmove⟩

/-- The line that a step of a child's process is about. -/
theorem Runs.of_line {w w' : Worker} {act : WorkerAct} {event : NodeEvent} (hruns : Runs rt r (config r) w act (some event))
    (hstep : Worker.Step w act w') {penv : ProcessEnv} {c : Command} (hline : event.line? = some (penv, .ok c)) :
    ∃ line rest, readLine false w.stdin = some (line, rest) ∧
      readCommand rt (String.ofList (stripWhere spaceChar line)) = .ok c := by
  generalize hsome : some event = found at hruns
  cases hruns with
  | skipped _ | flushed => cases hsome
  | started pass | died | startCut =>
      cases hsome
      cases hline
  | killed hread _ =>
      cases hsome
      exact ⟨_, _, hread, (Prod.mk.inj (Option.some.inj hline)).2⟩
  | handled _ _ =>
      cases hsome
      cases hstep with
      | answered _ _ hread _ => exact ⟨_, _, hread, (Prod.mk.inj (Option.some.inj hline)).2⟩

/-- **A command that a child handles** was on a line that the supervisor had sent to it. -/
theorem SessionRun.told (hrun : SessionRun rt config h x) {act : WorkerAct} {event : NodeEvent} {e : SessionEvent}
    (hstep : SessionStep rt config x e x') (hseen : e = .child r act (some event)) {penv : ProcessEnv} {c : Command}
    (hline : event.line? = some (penv, .ok c)) :
    ∃ q, Requested h q ∧ q.target = r ∧ ObjectLine q.request ∧ readCommand rt q.request = .ok c := by
  cases hstep with
  | acted hact hruns _ =>
      cases hseen
      obtain ⟨line, rest, hread, hcommand⟩ := hruns.of_line hact hline
      obtain ⟨q, hq, htarget, rfl, hobject⟩ := Orderly.asked hrun.orderly hact.running hread
      rw [hobject.stripped.1, String.ofList_toList] at hcommand
      exact ⟨q, sent_of_since hq, htarget, hobject, hcommand⟩
  | piped _ _ | failed _ _ | others _ | launched _ _ | readyAlice _ _ _ | readyBob _ _ _ | unready _ _ _ | greeted _ _
    | forwarded _ _ _ | brokenGreeting _ _ | brokenForward _ _ _ | shown _ _ _ | unanswered _ _ _ | checked _ _ | exited _ _
    | again _ | ended _ _ | interrupted _ => cases hseen

/-- … also as the exchange sees it. -/
theorem SessionRun.sent_of_told (hrun : SessionRun rt config h x) {c : Command} (htold : Told (exchangeHistory h) r c) :
    ∃ q, Requested h q ∧ q.target = r ∧ readCommand rt q.request = .ok c := by
  obtain ⟨e', he', s, penv, _, event, hparty, hline⟩ := htold
  obtain ⟨e, he, hview⟩ := List.mem_filterMap.mp he'
  obtain ⟨seen, hseen, rfl⟩ := Option.map_eq_some_iff.mp hview
  obtain rfl : seen = .party r event := hparty
  obtain ⟨k, hk⟩ := List.getElem?_of_mem he
  obtain ⟨hpast, hstep⟩ := hrun.at_position hk
  obtain ⟨act, hchild⟩ : ∃ act, e.seen = .child r act (some event) := by
    generalize e.seen = seen at hseen
    cases seen with
    | child r' act event' =>
        cases event' with
        | none => cases hseen
        | some event' =>
            cases hseen
            exact ⟨act, rfl⟩
    | others _ | launched | ready _ | sent _ | shown _ _ | looped | stopped _ => cases hseen
  obtain ⟨q, ⟨e', he', hsent⟩, htarget, _, hread⟩ := SessionRun.told hpast hstep hchild hline
  exact ⟨q, ⟨e', List.mem_of_mem_take he', hsent⟩, htarget, hread⟩

/-! ## What the operator has typed -/

/-- The operator has typed a command for the child, with these members, and it was forwarded. -/
def Typed (rt : LineRuntime) (h : SessionHistory) (r : Role) (name : String) (fields : List (String × String)) : Prop :=
  ∃ q line members, Requested h q ∧ q.typed = some line ∧ jsonLoads rt.toRuntime line = .ok (.obj members) ∧
    members.lookup (.text "target") = some (.str r.name) ∧ members.lookup (.text "command") = some (.str name) ∧
    ∀ f ∈ fields, members.lookup (.text f.1) = some (.str f.2)

theorem loads_of_jsonLoads {text : String} {j : Json} (h : jsonLoads rt.toRuntime text = .ok j) :
    Json.loads rt.readFloat text = some j := by
  unfold jsonLoads at h
  split at h
  · cases h
  · cases h
  · cases hloads : Json.loads rt.readFloat text with
    | none =>
        rw [hloads] at h
        cases h
    | some found =>
        rw [hloads] at h
        exact congrArg some (Except.ok.inj h)

/-- A text that is read back was a text. -/
theorem eq_str_of_reread {readFloat : String → PyFloat} {o : Json.DumpsOptions} {j : Json} {s : PyStr}
    (h : Json.reread readFloat o j = .str s) : j = .str s := by
  cases j with
  | str t =>
      rw [Json.reread] at h
      exact h
  | null | bool _ | int _ | float _ | arr _ => rw [Json.reread] at h; cases h
  | obj ms =>
      rw [Json.reread_obj] at h
      cases h

theorem Role.ofName?_eq_some {name : String} (h : Role.ofName? name = some r) : name = r.name := by
  unfold Role.ofName? at h
  split at h
  · next heq =>
      cases h
      exact heq
  · split at h
    · next heq =>
        cases h
        exact heq
    · cases h

theorem standard_requestOptions : requestOptions.Standard := Json.standard_default _ _

/-- What a request shows when it is read. -/
theorem lookup_request {members ms : List (PyStr × Json)} (hnd : (members.map Prod.fst).Nodup)
    (h : jsonLoads rt.toRuntime ((Json.obj members).dumps requestOptions) = .ok (.obj ms)) (k : String) :
    ms.lookup (.text k) = (members.lookup (.text k)).map (Json.reread rt.readFloat requestOptions) := by
  have hread := loads_of_jsonLoads h
  rw [Json.loads_dumps standard_requestOptions] at hread
  rw [← Json.get?_reread rt.readFloat requestOptions hnd k, Option.some.inj hread]
  rfl

/-- **What a forwarded request says**, the operator's line says, of every member but the target. -/
theorem Query.Forwarded.members {q : Query} (hq : q.Forwarded rt) {ms : List (PyStr × Json)}
    (hrequest : jsonLoads rt.toRuntime q.request = .ok (.obj ms)) :
    ∃ line members, q.typed = some line ∧ jsonLoads rt.toRuntime line = .ok (.obj members) ∧
      members.lookup (.text "target") = some (.str q.target.name) ∧
      ∀ k (s : String), k ≠ "target" → ms.lookup (.text k) = some (.str s) → members.lookup (.text k) = some (.str s) := by
  obtain ⟨line, htyped, hmove⟩ := hq
  obtain ⟨_, members, hline, hloads, htarget, heq⟩ := operatorMove_forward hmove
  cases hline
  refine ⟨line, members, htyped, hloads, ?_, fun k s hk hs => ?_⟩
  · obtain ⟨name, hname, hrole⟩ := Option.bind_eq_some_iff.mp htarget
    obtain ⟨j, hj, hstr⟩ := Option.bind_eq_some_iff.mp hname
    rw [hj, Json.str?_eq_some hstr, Role.ofName?_eq_some hrole]
  · have hnodup : ((members.filter fun m => m.1 ≠ .text "target").map Prod.fst).Nodup :=
      (Json.nodup_of_loads (loads_of_jsonLoads hloads)).sublist (List.filter_sublist.map _)
    rw [heq] at hrequest
    rw [lookup_request hnodup hrequest, lookup_filter_ne hk] at hs
    obtain ⟨j, hj, hreread⟩ := Option.map_eq_some_iff.mp hs
    rw [hj, eq_str_of_reread hreread]

/-- The command on a status request. -/
theorem Query.status_reads {c : Command} (hread : readCommand rt (Query.status r).request = .ok c) : c.name = "status" := by
  obtain ⟨ms, hloads, hname, _⟩ := readCommand_eq_ok hread
  have hnodup : (([("command", .str "status")] : List (PyStr × Json)).map Prod.fst).Nodup := List.nodup_singleton _
  rw [lookup_request hnodup hloads] at hname
  have heq : Json.reread rt.readFloat requestOptions (.str "status") = Json.str c.name := Option.some.inj hname
  rw [Json.reread] at heq
  exact (PyStr.text.inj (Json.str.inj heq)).symm

/-- **A command other than `status`** that a child has been told was typed by the operator, with all the texts that the
    child has read. -/
theorem SessionRun.typed (hrun : SessionRun rt config h x) {q : Query} (hsent : Requested h q) {c : Command}
    (hread : readCommand rt q.request = .ok c) (hname : c.name ≠ "status") {ms : List (PyStr × Json)}
    (hloads : jsonLoads rt.toRuntime q.request = .ok (.obj ms)) {fields : List (String × String)}
    (hfields : ∀ f ∈ fields, f.1 ≠ "target" ∧ ms.lookup (.text f.1) = some (.str f.2)) : Typed rt h q.target c.name fields := by
  rcases hrun.sent_cases hsent with hstatus | hforwarded
  · rw [hstatus] at hread
    exact absurd (Query.status_reads hread) hname
  · obtain ⟨line, members, htyped, hline, htarget, hmembers⟩ := hforwarded.members hloads
    obtain ⟨ms', hloads', hcommand, _⟩ := readCommand_eq_ok hread
    rw [hloads] at hloads'
    obtain rfl : ms = ms' := by cases hloads'; rfl
    refine ⟨q, line, members, hsent, htyped, hline, htarget, hmembers _ _ (by decide) hcommand, fun f hf => ?_⟩
    exact hmembers f.1 f.2 (hfields f hf).1 (hfields f hf).2

end

end HermesPayments
