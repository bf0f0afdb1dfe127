import HermesPayments.Lib.Json.Prefix
import HermesPayments.Session
import Mathlib.Data.List.Forall2

/-!
# `HermesPayments.Session.Lockstep` — one question at a time

Whatever the children do and whenever they are killed, at most one line that the supervisor has sent is not answered and
printed, and the pipes hold nothing but that line, or its answer (`OrderlyAt`). A supervisor that has stopped leaves them
as they were: `p` is where it was then.
-/

namespace HermesPayments

open Lib

/-! ## What has been said since the launch -/

/-- A line that a child has handled, and what it wrote. -/
structure Reply where
  child : Role
  line  : String
  text  : String

namespace SessionEvent

def query? : SessionEvent → Option Query
  | .sent q => some q
  | _       => none

def shown? : SessionEvent → Option (Query × String)
  | .shown q text => some (q, text)
  | _             => none

def reply? : SessionEvent → Option Reply
  | .child r (.answered line text) _ => some ⟨r, String.ofList line, String.ofList text⟩
  | _ => none

/-- The events, or none of them after a launch. -/
def keep (past : List SessionEvent) : SessionEvent → List SessionEvent
  | .launched => []
  | event     => past ++ [event]

end SessionEvent

/-- The events since the last launch. -/
def since (h : SessionHistory) : List SessionEvent := (h.map Event.seen).foldl SessionEvent.keep []

theorem since_snoc (h : SessionHistory) (e : Event Session SessionEvent) :
    since (h ++ [e]) = SessionEvent.keep (since h) e.seen := by
  rw [since, List.map_append, List.foldl_append]
  rfl

section

variable (rt : LineRuntime)

/-- What is printed for a query shows the answer of its target to its request. -/
structure Prints (a : Reply) (w : Query × String) : Prop where
  target : a.child = w.1.target
  line   : a.line = w.1.request
  text   : ∃ response, readObject rt a.text.toList = some response ∧ w.2 = w.1.render response

/-- A child that runs has a process. -/
def Session.Up (x : Session) (r : Role) : Prop := (x.child r).running = true → (x.exchange.nodes r).proc.isSome = true

/-- No child has anything to do. -/
def Session.Quiet (x : Session) : Prop := ∀ r, (x.child r).Idle ∧ x.Up r

/-- The pipes when the supervisor is at `p`, having sent `S` and printed `W` since its launch, with the answers `A`. -/
def OrderlyAt (p : Phase) (x : Session) (S : List Query) (W : List (Query × String)) (A : List Reply) : Prop :=
  match p with
  | .starting r => S = [] ∧ W = [] ∧ A = [] ∧ (∀ r', r' ≠ r → (x.child r').Idle ∧ x.Up r') ∧
      ((x.child r).Idle ∨ (x.child r).Answering (readyLine r.name).toList ∧ x.Up r)
  | .greeting _ | .listening | .reading => S = W.map Prod.fst ∧ List.Forall₂ (Prints rt) A W ∧ x.Quiet
  | .awaiting q => S = W.map Prod.fst ++ [q] ∧ ObjectLine q.request ∧
      (∀ r', r' ≠ q.target → (x.child r').Idle) ∧ (∀ r, x.Up r) ∧
      (List.Forall₂ (Prints rt) A W ∧ (x.child q.target).Asked q.request.toList ∨
        ∃ A' text, A = A' ++ [⟨q.target, q.request, text⟩] ∧ List.Forall₂ (Prints rt) A' W ∧ ObjectLine text ∧
          (x.child q.target).Answering text.toList)
  | .stopped _ => False

/-- The session is orderly; a supervisor that has ended well was not waiting for an answer. -/
def Orderly (x : Session) (S : List Query) (W : List (Query × String)) (A : List Reply) : Prop :=
  ∃ p, OrderlyAt rt p x S W A ∧
    (x.phase = p ∨ ∃ code, x.phase = .stopped code ∧ (code = 0 → ∀ q, p ≠ .awaiting q))

end

/-! ## The children -/

theorem ObjectLine.stripped {line : String} (h : ObjectLine line) : stripWhere spaceChar line.toList = line.toList ∧
    line.toList ≠ [] := ⟨h.line.stripped, h.line.nonempty⟩

/-- What an act of a child is to the others, and to its process. -/
structure Acted (x : Session) (r : Role) (act : WorkerAct) (x' : Session) : Prop where
  step     : Worker.Step (x.child r) act (x'.child r)
  others   : ∀ r', r' ≠ r → x'.child r' = x.child r' ∧ x'.exchange.nodes r' = x.exchange.nodes r'
  spoke    : ∀ text, act = .spoke text → text = (readyLine r.name).toList ∧ (x.exchange.nodes r).proc = none ∧
    (x'.exchange.nodes r).proc.isSome = true
  answered : ∀ line text, act = .answered line text → ObjectLine (String.ofList text)
  skipped  : ∀ line, act = .skipped line → stripWhere spaceChar line = []
  up       : act = .killed ∨ (x'.exchange.nodes r).proc.isSome = true ∨ x'.exchange.nodes r = x.exchange.nodes r

section

variable {rt : LineRuntime} {config : Role → ProcessConfig} {x x' : Session} {r : Role} {act : WorkerAct}

/-! What an act of the runner says about the process. -/

theorem Runs.of_spoke {w : Worker} {text : List Char} {event : Option NodeEvent}
    (h : Runs rt r (config r) w (.spoke text) event) :
    text = (readyLine r.name).toList ∧ ∃ pass, event = some (.started pass) := by
  generalize hact : WorkerAct.spoke text = act at h
  cases h with
  | started pass => exact ⟨WorkerAct.spoke.inj hact, pass, rfl⟩
  | handled _ _ | skipped _ | flushed | killed _ _ | died | startCut => cases hact

theorem Runs.of_answered {w : Worker} {line text : List Char} {event : Option NodeEvent}
    (h : Runs rt r (config r) w (.answered line text) event) :
    ∃ penv result answer, text = answer.toList ∧ Answers (config r).isAlnum result answer ∧
      event = some (.handled penv (readCommand rt (String.ofList (stripWhere spaceChar line))) result) := by
  generalize hact : WorkerAct.answered line text = act at h
  cases h with
  | @handled line answer penv result _ hanswers =>
      obtain ⟨rfl, rfl⟩ := WorkerAct.answered.inj hact
      exact ⟨penv, result, answer, rfl, hanswers, rfl⟩
  | started _ | skipped _ | flushed | killed _ _ | died | startCut => cases hact

theorem Runs.of_skipped {w : Worker} {line : List Char} {event : Option NodeEvent}
    (h : Runs rt r (config r) w (.skipped line) event) : stripWhere spaceChar line = [] := by
  cases h with
  | skipped hline => exact hline

theorem NodeStep.proc_started {config : ProcessConfig} {n n' : Node} {pass : StartPass}
    (h : NodeStep config n (.started pass) n') : n.proc = none ∧ n'.proc.isSome = true := by
  cases h with
  | started _ _ _ _ => exact ⟨rfl, rfl⟩

theorem NodeStep.proc_handled {config : ProcessConfig} {n n' : Node} {penv : ProcessEnv} {parsed : Except Exc Command}
    {result : Except Exc String} (h : NodeStep config n (.handled penv parsed result) n') :
    n'.proc.isSome = true ∧ ∃ s : ProcessState, result = (s.handle config penv parsed).result := by
  cases h with
  | handled _ s _ _ => exact ⟨rfl, s, rfl⟩

/-- What a step of a party is. -/
theorem ExchangeStep.of_party {y z : Exchange Role} {event : NodeEvent} (h : ExchangeStep config y (.party r event) z) :
    ∃ n', NodeStep (config r) (y.nodes r) event n' ∧ z.nodes = Function.update y.nodes r n' := by
  cases h with
  | party hnode _ => exact ⟨_, hnode, rfl⟩

theorem Acted.of_node {event : NodeEvent} {w : Worker} {y : Exchange Role} (hstep : Worker.Step (x.child r) act w)
    (hruns : Runs rt r (config r) (x.child r) act (some event)) (hparty : ExchangeStep config x.exchange (.party r event) y) :
    Acted x r act { x with exchange := y, child := Function.update x.child r w } := by
  obtain ⟨n', hnode, hnodes⟩ := hparty.of_party
  refine ⟨by simpa using hstep, ?_, ?_, ?_, ?_, ?_⟩
  · intro r' hr'
    refine ⟨Function.update_of_ne hr' _ _, ?_⟩
    show y.nodes r' = _
    rw [hnodes, Function.update_of_ne hr']
  · rintro text rfl
    obtain ⟨htext, pass, hevent⟩ := hruns.of_spoke
    cases hevent
    refine ⟨htext, hnode.proc_started.1, ?_⟩
    show (y.nodes r).proc.isSome = true
    rw [hnodes, Function.update_self]
    exact hnode.proc_started.2
  · rintro line text rfl
    obtain ⟨penv, result, answer, rfl, hanswers, hevent⟩ := hruns.of_answered
    cases hevent
    obtain ⟨_, s, rfl⟩ := hnode.proc_handled
    rw [String.ofList_toList]
    exact hanswers.object
  · rintro line rfl
    exact hruns.of_skipped
  · show act = .killed ∨ (y.nodes r).proc.isSome = true ∨ y.nodes r = _
    rw [hnodes, Function.update_self]
    generalize hsome : some event = found at hruns
    cases hruns with
    | started pass =>
        cases hsome
        exact .inr (.inl hnode.proc_started.2)
    | handled _ _ =>
        cases hsome
        exact .inr (.inl hnode.proc_handled.1)
    | skipped _ | flushed => cases hsome
    | killed _ _ | died | startCut => exact .inl rfl

theorem Acted.of_pipe {w : Worker} (hstep : Worker.Step (x.child r) act w)
    (hruns : Runs rt r (config r) (x.child r) act none) : Acted x r act { x with child := Function.update x.child r w } := by
  refine ⟨by simpa using hstep, ?_, ?_, ?_, ?_, .inr (.inr rfl)⟩
  · intro r' hr'
    exact ⟨Function.update_of_ne hr' _ _, rfl⟩
  · rintro text rfl
    obtain ⟨_, _, hevent⟩ := hruns.of_spoke
    cases hevent
  · rintro line text rfl
    obtain ⟨_, _, _, _, _, hevent⟩ := hruns.of_answered
    cases hevent
  · rintro line rfl
    exact hruns.of_skipped

theorem Acted.of_failed {w : Worker} (hstep : Worker.Step (x.child r) .killed w) :
    Acted x r .killed { x with child := Function.update x.child r w } := by
  refine ⟨by simpa using hstep, ?_, ?_, ?_, ?_, .inl rfl⟩
  · intro r' hr'
    exact ⟨Function.update_of_ne hr' _ _, rfl⟩
  · rintro text hact
    cases hact
  · rintro line text hact
    cases hact
  · rintro line hact
    cases hact

/-! ## One act -/

/-- An act leaves a running child with a process. -/
theorem Acted.keeps_up (ha : Acted x r act x') {r' : Role} (hup : x.Up r') : x'.Up r' := by
  intro hrunning
  by_cases hr : r' = r
  · subst hr
    rcases ha.up with rfl | hup' | hsame
    · rw [ha.step.down_of_killed] at hrunning
      cases hrunning
    · exact hup'
    · rw [hsame]
      exact hup ha.step.running
  · obtain ⟨hchild, hnode⟩ := ha.others r' hr
    rw [hchild] at hrunning
    rw [hnode]
    exact hup hrunning

/-- A child with a process does not speak unasked. -/
theorem Acted.not_spoke (ha : Acted x r act x') (hup : x.Up r) {text : List Char} : act ≠ .spoke text := by
  rintro rfl
  have hnone := (ha.spoke text rfl).2.1
  have hsome := hup ha.step.running
  rw [hnone] at hsome
  cases hsome

/-- What an act adds to the answers. -/
def replies (r : Role) (act : WorkerAct) : List Reply := (SessionEvent.child r act none).reply?.toList

theorem replies_of_quiet (r : Role) (h : act = .flushed ∨ act = .killed) : replies r act = [] := by
  rcases h with rfl | rfl
  · rfl
  · rfl

/-- A child that has nothing to do stays so. -/
theorem Acted.idle (ha : Acted x r act x') (hup : x.Up r) (hidle : (x.child r).Idle) :
    replies r act = [] ∧ (x'.child r).Idle := by
  rcases hidle.step ha.step with ⟨text, hspoke, _⟩ | ⟨hact, hidle'⟩
  · exact absurd hspoke (ha.not_spoke hup)
  · exact ⟨replies_of_quiet r hact, hidle'⟩

/-- **An act of a child** leaves the session orderly: the one child that has been asked answers, and nothing else. -/
theorem OrderlyAt.acted {p : Phase} {S : List Query} {W : List (Query × String)} {A : List Reply}
    (ho : OrderlyAt rt p x S W A) (ha : Acted x r act x') : OrderlyAt rt p x' S W (A ++ replies r act) := by
  have hother {r' : Role} (hr : r' ≠ r) (hidle : (x.child r').Idle) : (x'.child r').Idle := by
    rw [(ha.others r' hr).1]
    exact hidle
  have hquiet (h : x.Quiet) : replies r act = [] ∧ x'.Quiet := by
    obtain ⟨hnone, hidle⟩ := ha.idle (h r).2 (h r).1
    refine ⟨hnone, fun r' => ⟨?_, ha.keeps_up (h r').2⟩⟩
    by_cases hr : r' = r
    · rw [hr]
      exact hidle
    · exact hother hr (h r').1
  cases p with
  | stopped _ => exact ho.elim
  | greeting _ | listening | reading =>
      obtain ⟨hsent, hprints, h⟩ := ho
      obtain ⟨hnone, h'⟩ := hquiet h
      rw [hnone, List.append_nil]
      exact ⟨hsent, hprints, h'⟩
  | starting r₀ =>
      obtain ⟨rfl, rfl, rfl, hothers, hstarting⟩ := ho
      have hothers' (hr : r ≠ r₀ → (x'.child r).Idle) (r' : Role) (hr' : r' ≠ r₀) : (x'.child r').Idle ∧ x'.Up r' := by
        refine ⟨?_, ha.keeps_up (hothers r' hr').2⟩
        by_cases heq : r' = r
        · subst heq
          exact hr hr'
        · exact hother heq (hothers r' hr').1
      by_cases hr : r = r₀
      · subst hr
        have hnone : replies r act = [] ∧ ((x'.child r).Idle ∨ (x'.child r).Answering (readyLine r.name).toList ∧ x'.Up r) := by
          rcases hstarting with hidle | ⟨hanswering, hup⟩
          · rcases hidle.step ha.step with ⟨text, rfl, hanswering⟩ | ⟨hact, hidle'⟩
            · have hready := ha.spoke text rfl
              rw [hready.1] at hanswering
              exact ⟨rfl, .inr ⟨hanswering, fun _ => hready.2.2⟩⟩
            · exact ⟨replies_of_quiet r hact, .inl hidle'⟩
          · rcases hanswering.step ha.step with ⟨text, hspoke⟩ | ⟨hact, hanswering'⟩
            · exact absurd hspoke (ha.not_spoke hup)
            · exact ⟨replies_of_quiet r hact, .inr ⟨hanswering', ha.keeps_up hup⟩⟩
        rw [hnone.1]
        exact ⟨rfl, rfl, rfl, hothers' (fun h => absurd rfl h), hnone.2⟩
      · obtain ⟨hnone, hidle⟩ := ha.idle (hothers r hr).2 (hothers r hr).1
        rw [hnone]
        refine ⟨rfl, rfl, rfl, hothers' (fun _ => hidle), ?_⟩
        rw [(ha.others r₀ (Ne.symm hr)).1]
        refine hstarting.imp id fun h => ⟨h.1, ha.keeps_up h.2⟩
  | awaiting q =>
      obtain ⟨hsent, hobject, hothers, hup, hstate⟩ := ho
      have hups (r' : Role) : x'.Up r' := ha.keeps_up (hup r')
      have hothers' (hr : r ≠ q.target → (x'.child r).Idle) (r' : Role) (hr' : r' ≠ q.target) : (x'.child r').Idle := by
        by_cases heq : r' = r
        · subst heq
          exact hr hr'
        · exact hother heq (hothers r' hr')
      by_cases hr : r = q.target
      · subst hr
        refine ⟨hsent, hobject, hothers' (fun h => absurd rfl h), hups, ?_⟩
        rcases hstate with ⟨hprints, hasked⟩ | ⟨A', text, rfl, hprints, hline, hanswering⟩
        · rcases hasked.step hobject.line.unbroken ha.step with ⟨text, hspoke⟩ | hskipped | ⟨text, rfl, hanswering⟩ |
            ⟨hact, hasked'⟩
          · exact absurd hspoke (ha.not_spoke (hup _))
          · have hblank := ha.skipped _ hskipped
            rw [hobject.stripped.1] at hblank
            exact absurd hblank hobject.stripped.2
          · refine .inr ⟨A, String.ofList text, ?_, hprints, ha.answered _ _ rfl, by simpa using hanswering⟩
            show A ++ [⟨_, String.ofList q.request.toList, _⟩] = _
            rw [String.ofList_toList]
          · rw [replies_of_quiet _ hact, List.append_nil]
            exact .inl ⟨hprints, hasked'⟩
        · rcases hanswering.step ha.step with ⟨text, hspoke⟩ | ⟨hact, hanswering'⟩
          · exact absurd hspoke (ha.not_spoke (hup _))
          · rw [replies_of_quiet _ hact, List.append_nil]
            exact .inr ⟨A', text, rfl, hprints, hline, hanswering'⟩
      · obtain ⟨hnone, hidle⟩ := ha.idle (hup r) (hothers r hr)
        rw [hnone, List.append_nil]
        refine ⟨hsent, hobject, hothers' (fun _ => hidle), hups, ?_⟩
        rw [(ha.others q.target (Ne.symm hr)).1]
        exact hstate

/-! ## What the supervisor reads -/

theorem readObject_nil : readObject rt [] = none := by
  have hloads : jsonLoads rt.toRuntime (String.ofList (stripWhere spaceChar [])) = jsonLoads rt.toRuntime "" := rfl
  rw [readObject, hloads, jsonLoads]
  cases rt.limit "" with
  | none => rfl
  | some limit => cases limit <;> rfl

/-- **An object that was cut short is not read.** -/
theorem readObject_cut {text : String} (hobject : ObjectLine text) {read more : List Char} (hne : more ≠ [])
    (hcut : read ++ more = text.toList) : readObject rt read = none := by
  obtain ⟨o, ms, hstandard, _, rfl⟩ := hobject
  -- stripping takes nothing off the brace
  have hprefix : stripWhere spaceChar read <+: read := by
    cases read with
    | nil => exact List.prefix_rfl
    | cons c cs =>
        obtain ⟨rest, hrest⟩ := Json.dumps_obj_cons (o := o) ms
        obtain rfl : c = '\x7b' := by
          rw [hrest] at hcut
          exact (List.cons.inj hcut).1
        rw [stripWhere, List.dropWhile_cons_of_neg (by decide)]
        have hsuffix := List.dropWhile_suffix (l := ('\x7b' :: cs).reverse) spaceChar
        rwa [← List.reverse_prefix, List.reverse_reverse] at hsuffix
  obtain ⟨tail, htail⟩ := hprefix
  have hloads : Json.loads rt.readFloat (String.ofList (stripWhere spaceChar read)) = none := by
    have hmore : tail ++ more ≠ [] := fun hnil => hne (List.append_eq_nil_iff.mp hnil).2
    have htext : stripWhere spaceChar read ++ (tail ++ more) = ((Json.obj ms).dumps o).toList := by
      rw [← List.append_assoc, htail, hcut]
    exact Json.loads_cut hstandard htext hmore
  rw [readObject, jsonLoads, hloads]
  cases rt.limit (String.ofList (stripWhere spaceChar read)) with
  | none => rfl
  | some limit => cases limit <;> rfl

/-- What is read as an object of a child that has been asked is its answer, and then the child has nothing to do. -/
theorem read_answer {w : Worker} {text : String} {read rest : List Char} {response : List (PyStr × Json)}
    (hanswering : w.Answering text.toList) (hobject : ObjectLine text)
    (hread : readLine (!w.running) w.stdout = some (read, rest)) (hresponse : readObject rt read = some response) :
    read = text.toList ∧ Worker.Idle { w with stdout := rest } := by
  rcases hanswering.read hobject.line.unbroken hread with hwhole | ⟨_, more, hne, hcut⟩
  · exact hwhole
  · rw [readObject_cut hobject hne hcut] at hresponse
    cases hresponse

/-- … and of one that has written nothing, no object is read. -/
theorem no_answer {w : Worker} {read rest : List Char} {response : List (PyStr × Json)} (hstdout : w.stdout = [])
    (hread : readLine (!w.running) w.stdout = some (read, rest)) (hresponse : readObject rt read = some response) : False := by
  obtain ⟨_, rfl⟩ := Worker.read_of_no_output hstdout hread
  rw [readObject_nil] at hresponse
  cases hresponse

theorem isReady_eq_true {line : List Char} (h : isReady rt r line = true) : ∃ members, readObject rt line = some members := by
  unfold isReady at h
  split at h
  · next members hread => exact ⟨members, hread⟩
  · cases h

/-! ## Steps and runs -/

/-- The session is orderly, by what has happened since the launch. -/
def OrderlySince (rt : LineRuntime) (x : Session) (es : List SessionEvent) : Prop :=
  Orderly rt x (es.filterMap SessionEvent.query?) (es.filterMap SessionEvent.shown?) (es.filterMap SessionEvent.reply?)

/-- A supervisor that is not stopped is where it is. -/
theorem Orderly.at_phase {S : List Query} {W : List (Query × String)} {A : List Reply} (ho : Orderly rt x S W A)
    (hphase : ∀ code, x.phase ≠ .stopped code) : OrderlyAt rt x.phase x S W A := by
  obtain ⟨p, ho, rfl | ⟨code, hstopped, _⟩⟩ := ho
  · exact ho
  · exact absurd hstopped (hphase code)

/-- Where the supervisor reads from one child or writes to it, the others are as they were. -/
theorem up_update {w : Worker} {p : Phase} {ps : List String} (hup : ∀ r, x.Up r) (hw : w.running = (x.child r).running) (r' : Role) :
    (⟨x.exchange, Function.update x.child r w, p, ps⟩ : Session).Up r' := by
  intro hrunning
  replace hrunning : (Function.update x.child r w r').running = true := hrunning
  by_cases hr : r' = r
  · subst hr
    rw [Function.update_self, hw] at hrunning
    exact hup r' hrunning
  · rw [Function.update_of_ne hr] at hrunning
    exact hup r' hrunning

theorem quiet_update {w : Worker} {p : Phase} {ps : List String} (hup : ∀ r, x.Up r)
    (hothers : ∀ r', r' ≠ r → (x.child r').Idle) (hidle : w.Idle) (hw : w.running = (x.child r).running) :
    (⟨x.exchange, Function.update x.child r w, p, ps⟩ : Session).Quiet := by
  intro r'
  refine ⟨?_, up_update hup hw r'⟩
  show (Function.update x.child r w r').Idle
  by_cases hr : r' = r
  · subst hr
    rw [Function.update_self]
    exact hidle
  · rw [Function.update_of_ne hr]
    exact hothers r' hr

/-- A query is sent where all is quiet. -/
theorem OrderlyAt.asked {q : Query} {S : List Query} {W : List (Query × String)} {A : List Reply} (hsent : S = W.map Prod.fst)
    (hprints : List.Forall₂ (Prints rt) A W) (hquiet : x.Quiet) (hobject : ObjectLine q.request) :
    OrderlyAt rt (.awaiting q) { x with
      child := Function.update x.child q.target ((x.child q.target).asked q.request.toList), phase := .awaiting q }
      (S ++ [q]) W A := by
  refine ⟨by rw [hsent], hobject, fun r' hr' => ?_, up_update (fun r => (hquiet r).2) rfl, .inl ⟨hprints, ?_⟩⟩
  · show (Function.update x.child q.target _ r').Idle
    rw [Function.update_of_ne hr']
    exact (hquiet r').1
  · show (Function.update x.child q.target _ q.target).Asked _
    rw [Function.update_self]
    exact (hquiet q.target).1.asked _

/-- A child whose ready line was read has nothing to do. -/
theorem OrderlyAt.read_ready {S : List Query} {W : List (Query × String)} {A : List Reply}
    (ho : OrderlyAt rt (.starting r) x S W A) {text rest : List Char}
    (hread : readLine (!(x.child r).running) (x.child r).stdout = some (text, rest)) (hready : isReady rt r text = true) :
    Worker.Idle { x.child r with stdout := rest } ∧ x.Up r := by
  obtain ⟨members, hmembers⟩ := isReady_eq_true hready
  obtain ⟨_, _, _, _, hidle | ⟨hanswering, hup⟩⟩ := ho
  · exact (no_answer hidle.stdout hread hmembers).elim
  · exact ⟨(read_answer hanswering (.default _ false) hread hmembers).2, hup⟩

/-- The supervisor stops where it is. -/
theorem Orderly.stop {S : List Query} {W : List (Query × String)} {A : List Reply} (ho : Orderly rt x S W A)
    (hphase : ∀ code, x.phase ≠ .stopped code) {code : Nat} (hcode : code = 0 → ∀ q, x.phase ≠ .awaiting q) :
    Orderly rt { x with phase := .stopped code } S W A := by
  have hat := ho.at_phase hphase
  refine ⟨x.phase, ?_, .inr ⟨code, rfl, hcode⟩⟩
  cases hp : x.phase with
  | stopped code => exact absurd hp (hphase code)
  | starting _ | greeting _ | awaiting _ | listening | reading =>
      rw [hp] at hat
      exact hat

/-- What an operator's line comes to is an object on one line. -/
theorem operatorMove_forward {typed : Option String} {target : Role} {request : String}
    (h : operatorMove rt typed = .forward target request) : ∃ line members, typed = some line ∧
      jsonLoads rt.toRuntime line = .ok (.obj members) ∧
      ((members.lookup (.text "target")).bind Json.str?).bind Role.ofName? = some target ∧
      request = (Json.obj (members.filter fun m => m.1 ≠ .text "target")).dumps requestOptions := by
  unfold operatorMove at h
  split at h
  · cases h
  · next line =>
      split at h
      · cases h
      · split at h
        · next members hloads =>
            split at h
            · cases h
            · split at h
              · cases h
              · next target' htarget =>
                  cases h
                  exact ⟨line, members, rfl, hloads, htarget, rfl⟩
        · cases h

theorem OrderlyAt.congr {p : Phase} {S : List Query} {W : List (Query × String)} {A : List Reply}
    (ho : OrderlyAt rt p x S W A) (hchild : x'.child = x.child) (hnodes : x'.exchange.nodes = x.exchange.nodes) :
    OrderlyAt rt p x' S W A := by
  unfold OrderlyAt Session.Quiet Session.Up at *
  rw [hchild, hnodes]
  exact ho

/-- After an answer the supervisor asks again or listens. -/
theorem Query.next_cases (q : Query) : q.next = .greeting .bob ∨ q.next = .listening := by
  unfold Query.next
  split
  · exact .inl rfl
  · exact .inr rfl

/-- The request of a query that may be sent is an object on one line. -/
theorem Query.status_object (r : Role) : ObjectLine (Query.status r).request := .default _ true

/-- **Every step** leaves the session orderly. -/
theorem OrderlySince.step {es : List SessionEvent} {e : SessionEvent} (ho : OrderlySince rt x es)
    (hstep : SessionStep rt config x e x') : OrderlySince rt x' (e.keep es) := by
  -- what a step adds to the lists
  have hsnoc {y : Session} {e : SessionEvent} (hkeep : e.keep es = es ++ [e])
      (h : Orderly rt y (es.filterMap SessionEvent.query? ++ e.query?.toList)
        (es.filterMap SessionEvent.shown? ++ e.shown?.toList) (es.filterMap SessionEvent.reply? ++ e.reply?.toList)) :
      OrderlySince rt y (e.keep es) := by
    have hone {β : Type} (f : SessionEvent → Option β) : [e].filterMap f = (f e).toList := by
      cases hf : f e with
      | none => simp [hf]
      | some b => simp [hf]
    rw [OrderlySince, hkeep, List.filterMap_append, List.filterMap_append, List.filterMap_append, hone, hone, hone]
    exact h
  have hquietly {y : Session} {e : SessionEvent} (hkeep : e.keep es = es ++ [e]) (hq : e.query? = none)
      (hs : e.shown? = none) (hr : e.reply? = none) (h : Orderly rt y (es.filterMap SessionEvent.query?)
        (es.filterMap SessionEvent.shown?) (es.filterMap SessionEvent.reply?)) : OrderlySince rt y (e.keep es) := by
    refine hsnoc hkeep ?_
    rw [hq, hs, hr]
    simpa using h
  have hsending {y : Session} {q : Query} (hphase : y.phase = .awaiting q)
      (h : OrderlyAt rt (.awaiting q) y (es.filterMap SessionEvent.query? ++ [q]) (es.filterMap SessionEvent.shown?)
        (es.filterMap SessionEvent.reply?)) : OrderlySince rt y (SessionEvent.keep es (.sent q)) := by
    refine hsnoc rfl ⟨_, ?_, .inl hphase⟩
    rw [show (SessionEvent.sent q).shown?.toList = [] from rfl, List.append_nil,
      show (SessionEvent.sent q).reply?.toList = [] from rfl, List.append_nil]
    exact h
  have hacted {y : Session} {r : Role} {act : WorkerAct} {event : Option NodeEvent} (ha : Acted x r act y)
      (hphase : y.phase = x.phase) : OrderlySince rt y (SessionEvent.keep es (.child r act event)) := by
    obtain ⟨p, hat, hp⟩ := ho
    have hreplies : (SessionEvent.child r act event).reply?.toList = replies r act := by
      cases act with
      | spoke _ | answered _ _ | skipped _ | flushed | killed => rfl
    refine hsnoc rfl ⟨p, ?_, by rwa [hphase]⟩
    rw [hreplies, show (SessionEvent.child r act event).query?.toList = [] from rfl, List.append_nil,
      show (SessionEvent.child r act event).shown?.toList = [] from rfl, List.append_nil]
    exact hat.acted ha
  cases hstep with
  | acted hstep hruns hparty => exact hacted (.of_node hstep hruns hparty) rfl
  | piped hstep hruns => exact hacted (.of_pipe hstep hruns) rfl
  | failed hstep _ => exact hacted (.of_failed hstep) rfl
  | others hothers =>
      obtain ⟨p, hat, hp⟩ := ho
      cases hothers with
      | others _ => exact hquietly rfl rfl rfl rfl ⟨p, hat.congr rfl rfl, hp⟩
  | launched _ _ =>
      refine ⟨.starting .alice, ⟨rfl, rfl, rfl, ?_, .inl .fresh⟩, .inl rfl⟩
      intro r hr
      cases r with
      | alice => exact absurd rfl hr
      | bob => exact ⟨.absent, by intro hrunning; cases hrunning⟩
  | readyAlice hphase hread hready =>
      have hat := ho.at_phase (by rw [hphase]; intro code h; cases h)
      rw [hphase] at hat
      obtain ⟨hidle, hup⟩ := hat.read_ready hread hready
      obtain ⟨hS, hW, hA, _, _⟩ := hat
      refine hquietly rfl rfl rfl rfl ⟨.starting .bob, ⟨hS, hW, hA, ?_, .inl .fresh⟩, .inl rfl⟩
      intro r hr
      cases r with
      | bob => exact absurd rfl hr
      | alice => exact ⟨hidle, hup⟩
  | readyBob hphase hread hready =>
      have hat := ho.at_phase (by rw [hphase]; intro code h; cases h)
      rw [hphase] at hat
      obtain ⟨hidle, hup⟩ := hat.read_ready hread hready
      obtain ⟨hS, hW, hA, hothers, _⟩ := hat
      have hups (r : Role) : x.Up r := by
        cases r with
        | alice => exact (hothers .alice (by decide)).2
        | bob => exact hup
      have hsent : es.filterMap SessionEvent.query? = (es.filterMap SessionEvent.shown?).map Prod.fst := by
        rw [hS, hW]
        rfl
      have hprints : List.Forall₂ (Prints rt) (es.filterMap SessionEvent.reply?) (es.filterMap SessionEvent.shown?) := by
        rw [hA, hW]
        exact .nil
      refine hquietly rfl rfl rfl rfl ⟨.greeting .alice, ⟨hsent, hprints, ?_⟩, .inl rfl⟩
      exact quiet_update hups (fun r hr => (hothers r hr).1) hidle rfl
  | unready hphase _ _ =>
      exact hquietly rfl rfl rfl rfl (ho.stop (by rw [hphase]; intro code h; cases h) (by intro h; cases h))
  | @greeted r hphase _ =>
      have hat := ho.at_phase (by rw [hphase]; intro code h; cases h)
      rw [hphase] at hat
      obtain ⟨hS, hprints, hquiet⟩ := hat
      exact hsending rfl (OrderlyAt.asked hS hprints hquiet (Query.status_object r))
  | @forwarded line request target hphase hmove _ =>
      have hat := ho.at_phase (by rw [hphase]; intro code h; cases h)
      rw [hphase] at hat
      obtain ⟨hS, hprints, hquiet⟩ := hat
      obtain ⟨_, members, _, _, _, rfl⟩ := operatorMove_forward hmove
      exact hsending rfl (OrderlyAt.asked hS hprints hquiet (.default _ true))
  | brokenGreeting hphase _ =>
      exact hquietly rfl rfl rfl rfl (ho.stop (by rw [hphase]; intro code h; cases h) (by intro h; cases h))
  | brokenForward hphase _ _ =>
      exact hquietly rfl rfl rfl rfl (ho.stop (by rw [hphase]; intro code h; cases h) (by intro h; cases h))
  | @shown q text rest response hphase hread hresponse =>
      have hat := ho.at_phase (by rw [hphase]; intro code h; cases h)
      rw [hphase] at hat
      obtain ⟨hS, _, hothers, hup, hstate⟩ := hat
      rcases hstate with ⟨_, hasked⟩ | ⟨A', answer, hA, hprints, hline, hanswering⟩
      · exact (no_answer hasked.stdout hread hresponse).elim
      · obtain ⟨rfl, hidle⟩ := read_answer hanswering hline hread hresponse
        have hsent : es.filterMap SessionEvent.query? ++ (SessionEvent.shown q (q.render response)).query?.toList =
            (es.filterMap SessionEvent.shown? ++ [(q, q.render response)]).map Prod.fst := by
          rw [hS, List.map_append]
          exact List.append_nil _
        have hall : List.Forall₂ (Prints rt) (es.filterMap SessionEvent.reply?)
            (es.filterMap SessionEvent.shown? ++ [(q, q.render response)]) := by
          rw [hA]
          exact List.rel_append hprints (.cons ⟨rfl, rfl, response, hresponse, rfl⟩ .nil)
        refine hsnoc rfl ⟨q.next, ?_, .inl rfl⟩
        rw [show (SessionEvent.shown q (q.render response)).reply?.toList = [] from rfl, List.append_nil]
        rcases q.next_cases with hnext | hnext
        · rw [hnext]
          exact ⟨hsent, hall, quiet_update hup hothers hidle rfl⟩
        · rw [hnext]
          exact ⟨hsent, hall, quiet_update hup hothers hidle rfl⟩
  | unanswered hphase _ _ =>
      exact hquietly rfl rfl rfl rfl (ho.stop (by rw [hphase]; intro code h; cases h) (by intro h; cases h))
  | checked hphase _ =>
      have hat := ho.at_phase (by rw [hphase]; intro code h; cases h)
      rw [hphase] at hat
      exact hquietly rfl rfl rfl rfl ⟨.reading, hat, .inl rfl⟩
  | exited hphase _ =>
      exact hquietly rfl rfl rfl rfl (ho.stop (by rw [hphase]; intro code h; cases h) (by intro h; cases h))
  | again hphase =>
      have hat := ho.at_phase (by rw [hphase]; intro code h; cases h)
      rw [hphase] at hat
      exact hquietly rfl rfl rfl rfl ⟨.listening, hat, .inl rfl⟩
  | ended hphase _ =>
      refine hquietly rfl rfl rfl rfl (ho.stop (by rw [hphase]; intro code h; cases h) ?_)
      rw [hphase]
      intro _ q h
      cases h
  | interrupted hphase => exact hquietly rfl rfl rfl rfl (ho.stop hphase (by intro h; cases h))

/-- **Every run** keeps the session orderly. -/
theorem SessionRun.orderly {h : SessionHistory} (hrun : SessionRun rt config h x) : OrderlySince rt x (since h) := by
  refine hrun.history (P := fun h x => OrderlySince rt x (since h)) ?_ ?_
  · rintro x ⟨_, hchild, ⟨code, hphase⟩, _⟩
    refine ⟨.listening, ⟨rfl, .nil, fun r => ?_⟩, .inr ⟨code, hphase, ?_⟩⟩
    · rw [Session.Up, hchild r]
      exact ⟨.absent, by intro hrunning; cases hrunning⟩
    · intro _ q h
      cases h
  · intro h x e x' _ ih hstep
    rw [since_snoc]
    exact ih.step hstep

/-- What is printed is what was shown. -/
theorem SessionRun.printed {h : SessionHistory} (hrun : SessionRun rt config h x) :
    x.printed = ((since h).filterMap SessionEvent.shown?).map Prod.snd := by
  refine hrun.history (P := fun h x => x.printed = ((since h).filterMap SessionEvent.shown?).map Prod.snd) ?_ ?_
  · intro x hinit
    exact hinit.2.2.2
  · intro h x e x' _ ih hstep
    rw [since_snoc]
    have hsame {e : SessionEvent} (hkeep : e.keep (since h) = since h ++ [e]) (hs : e.shown? = none) :
        x.printed = ((e.keep (since h)).filterMap SessionEvent.shown?).map Prod.snd := by
      rw [hkeep, List.filterMap_append, ih]
      simp [hs]
    cases hstep with
    | launched _ _ => rfl
    | @shown q _ _ response _ _ _ =>
        show x.printed ++ [q.render response] =
          ((since h ++ [SessionEvent.shown q (q.render response)]).filterMap SessionEvent.shown?).map Prod.snd
        rw [List.filterMap_append, List.map_append, ← ih]
        rfl
    | acted _ _ _ | piped _ _ | failed _ _ | others _ | readyAlice _ _ _ | readyBob _ _ _ | unready _ _ _ | greeted _ _
      | forwarded _ _ _ | brokenGreeting _ _ | brokenForward _ _ _ | unanswered _ _ _ | checked _ _ | exited _ _ | again _
      | ended _ _ | interrupted _ => exact hsame rfl rfl

/-! ## What the operator has forwarded -/

/-- The query is what an operator's line comes to. -/
def Query.Forwarded (rt : LineRuntime) (q : Query) : Prop :=
  ∃ line, q.typed = some line ∧ operatorMove rt (some line) = .forward q.target q.request

/-- The queries of a supervisor that has greeted its children. -/
def Greeted (rt : LineRuntime) (S : List Query) : Prop :=
  ∃ forwarded, S = [.status .alice, .status .bob] ++ forwarded ∧ ∀ q ∈ forwarded, q.Forwarded rt

/-- The queries at a phase: the status of each child, and then what has been forwarded. -/
def SentAt (rt : LineRuntime) (S : List Query) : Phase → Prop
  | .starting _ | .greeting .alice => S = []
  | .greeting .bob => S = [.status .alice]
  | .awaiting q => q = .status .alice ∧ S = [.status .alice] ∨ q.next = .listening ∧ Greeted rt S
  | .listening | .reading => Greeted rt S
  | .stopped _ => S <+: [.status .alice, .status .bob] ∨ Greeted rt S

/-- Wherever the supervisor is, it has sent what it sends by then. -/
theorem SentAt.stopped {S : List Query} {p : Phase} (h : SentAt rt S p) {code : Nat} : SentAt rt S (.stopped code) := by
  cases p with
  | starting r =>
      obtain rfl : S = [] := h
      exact .inl List.nil_prefix
  | greeting r =>
      cases r with
      | alice =>
          obtain rfl : S = [] := h
          exact .inl List.nil_prefix
      | bob =>
          obtain rfl : S = [.status .alice] := h
          exact .inl ⟨[.status .bob], rfl⟩
  | awaiting q =>
      rcases h with ⟨_, rfl⟩ | ⟨_, h⟩
      · exact .inl ⟨[.status .bob], rfl⟩
      · exact .inr h
  | listening | reading => exact .inr h
  | stopped _ => exact h

theorem SessionRun.sent {h : SessionHistory} (hrun : SessionRun rt config h x) :
    SentAt rt ((since h).filterMap SessionEvent.query?) x.phase := by
  refine hrun.history (P := fun h x => SentAt rt ((since h).filterMap SessionEvent.query?) x.phase) ?_ ?_
  · rintro x ⟨_, _, ⟨code, hphase⟩, _⟩
    rw [hphase]
    exact .inl List.nil_prefix
  · intro h x e x' _ ih hstep
    rw [since_snoc]
    have hsame {e : SessionEvent} {p : Phase} (hkeep : e.keep (since h) = since h ++ [e]) (hq : e.query? = none)
        (hp : SentAt rt ((since h).filterMap SessionEvent.query?) p) :
        SentAt rt ((e.keep (since h)).filterMap SessionEvent.query?) p := by
      rw [hkeep, List.filterMap_append]
      simpa [hq] using hp
    have hadds (q : Query) : ((SessionEvent.sent q).keep (since h)).filterMap SessionEvent.query? =
        (since h).filterMap SessionEvent.query? ++ [q] := by
      show (since h ++ [SessionEvent.sent q]).filterMap SessionEvent.query? = _
      rw [List.filterMap_append]
      rfl
    cases hstep with
    | acted _ _ _ | piped _ _ | failed _ _ | others _ => exact hsame rfl rfl ih
    | launched _ _ => rfl
    | unready _ _ _ | brokenGreeting _ _ | brokenForward _ _ _ | unanswered _ _ _ | exited _ _ | ended _ _ | interrupted _ =>
        exact hsame rfl rfl ih.stopped
    | readyAlice hphase _ _ | readyBob hphase _ _ =>
        rw [hphase] at ih
        exact hsame rfl rfl ih
    | checked hphase _ | again hphase =>
        rw [hphase] at ih
        exact hsame rfl rfl ih
    | @greeted r hphase _ =>
        rw [hphase] at ih
        show SentAt rt _ (.awaiting (.status r))
        rw [hadds]
        cases r with
        | alice =>
            rw [show (since h).filterMap SessionEvent.query? = [] from ih]
            exact .inl ⟨rfl, rfl⟩
        | bob =>
            rw [show (since h).filterMap SessionEvent.query? = [.status .alice] from ih]
            exact .inr ⟨rfl, [], rfl, by intro q hq; cases hq⟩
    | @forwarded line request target hphase hmove _ =>
        rw [hphase] at ih
        obtain ⟨forwarded, hall, hforwarded⟩ := ih
        show SentAt rt _ (.awaiting ⟨some line, target, request⟩)
        rw [hadds]
        refine .inr ⟨rfl, forwarded ++ [⟨some line, target, request⟩], ?_, ?_⟩
        · rw [hall, List.append_assoc]
        · intro q hq
          rcases List.mem_append.mp hq with hq | hq
          · exact hforwarded q hq
          · rw [List.mem_singleton.mp hq]
            exact ⟨line, rfl, hmove⟩
    | @shown q text rest response hphase _ _ =>
        rw [hphase] at ih
        show SentAt rt _ q.next
        rcases ih with ⟨rfl, hone⟩ | ⟨hnext, hgreeted⟩
        · exact hsame (p := .greeting .bob) rfl rfl hone
        · rw [hnext]
          exact hsame (p := .listening) rfl rfl hgreeted

end

end HermesPayments
