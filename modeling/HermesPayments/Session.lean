import HermesPayments.Exchange
import HermesPayments.Lib.Pipes
import HermesPayments.Process.Jsonl

/-!
# `HermesPayments.Session` — two processes under a supervisor

The supervisor starts Alice and Bob, waits for each to say that it is ready, asks each for its status, and then forwards
the lines that an operator types: each line names its target, the rest of it goes to the target's runner, and what comes
back is printed with its identifiers shortened. It stops when the operator says so (exit code 0), on the first thing that
goes wrong (1), or when it is interrupted (130). A supervisor may be launched again over the same state roots.

A `Session` is the exchange of the two processes with the pipes of their runners and with the supervisor. Its parts move
by themselves: a child handles a line, passes on some of its answer, or is killed at any point, and messages travel as
they do in the exchange.
-/

namespace HermesPayments

open Lib

/-! ## Display -/

inductive Role where
  | alice
  | bob
deriving DecidableEq

def Role.name : Role → String
  | alice => "alice"
  | bob   => "bob"

/-- The child of a name. -/
def Role.ofName? (name : String) : Option Role :=
  if name = Role.alice.name then some .alice else if name = Role.bob.name then some .bob else none

def redactIdentifierKeys : List PyStr :=
  ["id", "intent_id", "quote_id", "message_id", "prepared_hash", "settlement_ref", "payment_hash", "author", "pubkey",
    "channel", "state_root"]

mutual

/-- Redact identifiers without destroying diagnostic error messages. -/
def redactPayload : List (PyStr × Json) → List (PyStr × Json)
  | [] => []
  | (key, value) :: rest => (key, redactMember key value) :: redactPayload rest

/-- The value of one key. -/
def redactMember : PyStr → Json → Json
  | key, .str s   => if 32 ≤ s.length ∧ key ∈ redactIdentifierKeys then .str (redactedPyStr s) else .str s
  | _, .obj ms    => .obj (redactPayload ms)
  | _, .arr items => .arr (redactItems items)
  | _, value      => value

/-- The items of a list, of which only the objects are redacted. -/
def redactItems : List Json → List Json
  | [] => []
  | .obj ms :: rest => .obj (redactPayload ms) :: redactItems rest
  | item :: rest    => item :: redactItems rest

end

/-! ## The supervisor -/

/-- How the supervisor writes a command. -/
def requestOptions : Json.DumpsOptions := { sortKeys := true }

/-- A line the supervisor sends to a child: its own, or what an operator's line comes to. -/
structure Query where
  typed   : Option String
  target  : Role
  request : String

/-- Where the supervisor is. -/
inductive Phase where
  /-- It waits for the ready line of a child it has started. -/
  | starting (r : Role)
  /-- It is about to ask a child for its status. -/
  | greeting (r : Role)
  /-- It waits for the answer. -/
  | awaiting (q : Query)
  /-- At the top of the operator loop. -/
  | listening
  /-- The children were running when it looked. -/
  | reading
  | stopped (code : Nat)

/-- The status command that verifies a child. -/
def Query.status (r : Role) : Query := ⟨none, r, (Json.obj [("command", .str "status")]).dumps requestOptions⟩

/-- What is printed for an answer. -/
def Query.render (q : Query) (response : List (PyStr × Json)) : String :=
  match q.typed with
  | none => (Json.obj [("event", .str "status"), ("role", .str q.target.name),
      ("status", .obj (redactPayload response))]).dumps responseOptions
  | some _ => (Json.obj [("event", .str "response"), ("target", .str q.target.name),
      ("response", .obj (redactPayload response))]).dumps responseOptions

/-- Where the supervisor goes after an answer. -/
def Query.next (q : Query) : Phase :=
  match q.typed, q.target with
  | none, .alice => .greeting .bob
  | _, _         => .listening

/-- What a line of the operator makes the supervisor do. -/
inductive Move where
  | again
  | forward (target : Role) (request : String)
  | exit (code : Nat)

section

variable (rt : LineRuntime)

/-- `json.loads` of a stripped line, when it is an object. -/
def readObject (line : List Char) : Option (List (PyStr × Json)) :=
  match jsonLoads rt.toRuntime (String.ofList (stripWhere spaceChar line)) with
  | .ok (.obj members) => some members
  | _ => none

/-- Is it the ready line of the child? -/
def isReady (r : Role) (line : List Char) : Bool :=
  match readObject rt line with
  | some members => (members.lookup (.text "event")).bind Json.str? = some "ready" &&
      (members.lookup (.text "role")).bind Json.str? = some r.name
  | none => false

/-- One line of the operator, or the end of the input. Whatever is no command for a child ends the supervisor. -/
def operatorMove : Option String → Move
  | none => .exit 0
  | some line =>
      if stripWhere spaceChar line.toList = [] then .again
      else
        match jsonLoads rt.toRuntime line with
        | .ok (.obj members) =>
            if (members.lookup (.text "command")).bind Json.str? = some "shutdown" then .exit 0
            else
              match ((members.lookup (.text "target")).bind Json.str?).bind Role.ofName? with
              | none => .exit 1
              | some target =>
                  .forward target ((Json.obj (members.filter fun m => m.1 ≠ .text "target")).dumps requestOptions)
        | _ => .exit 1

/-! ## Sessions -/

structure Session where
  exchange : Exchange Role
  child    : Role → Worker
  phase    : Phase
  /-- What the supervisor has printed since it was launched. -/
  printed  : List String

inductive SessionEvent where
  /-- A child acts, with a step of its process if it takes one. -/
  | child (r : Role) (act : WorkerAct) (event : Option NodeEvent)
  | others (messages : List PaymentMessage)
  | launched
  /-- The supervisor reads the ready line of a child. -/
  | ready (r : Role)
  | sent (q : Query)
  | shown (q : Query) (text : String)
  /-- It goes round its loop. -/
  | looped
  | stopped (code : Nat)

/-- How an act of the runner goes with a step of its process: it writes that it is ready when it has started, it answers a
    line when it has handled it, and it may be killed while it starts, while it handles a line, or between. -/
inductive Runs (r : Role) (config : ProcessConfig) (w : Worker) : WorkerAct → Option NodeEvent → Prop
  | started (pass : StartPass) : Runs r config w (.spoke (readyLine r.name).toList) (some (.started pass))
  | handled {line : List Char} {text : String} {penv : ProcessEnv} {result : Except Exc String}
      (hline : stripWhere spaceChar line ≠ []) (hanswers : Answers config.isAlnum result text) :
      Runs r config w (.answered line text.toList)
        (some (.handled penv (readCommand rt (String.ofList (stripWhere spaceChar line))) result))
  | skipped {line : List Char} (hline : stripWhere spaceChar line = []) : Runs r config w (.skipped line) none
  | flushed : Runs r config w .flushed none
  | killed {line rest : List Char} {penv : ProcessEnv} {performed : List ProcessEffect}
      (hread : readLine false w.stdin = some (line, rest)) (hline : stripWhere spaceChar line ≠ []) :
      Runs r config w .killed
        (some (.killed penv (readCommand rt (String.ofList (stripWhere spaceChar line))) performed))
  | died {penv : ProcessEnv} {e : Exc} {performed : List ProcessEffect} :
      Runs r config w .killed (some (.killed penv (.error e) performed))
  | startCut {pass : StartPass} {performed : List ProcessEffect} :
      Runs r config w .killed (some (.startCut pass performed))

variable (config : Role → ProcessConfig)

/-- The steps of a session. -/
inductive SessionStep : Session → SessionEvent → Session → Prop
  | acted {x : Session} {r : Role} {act : WorkerAct} {event : NodeEvent} {w : Worker} {y : Exchange Role}
      (hstep : Worker.Step (x.child r) act w) (hruns : Runs rt r (config r) (x.child r) act (some event))
      (hparty : ExchangeStep config x.exchange (.party r event) y) :
      SessionStep x (.child r act (some event)) { x with exchange := y, child := Function.update x.child r w }
  | piped {x : Session} {r : Role} {act : WorkerAct} {w : Worker} (hstep : Worker.Step (x.child r) act w)
      (hruns : Runs rt r (config r) (x.child r) act none) :
      SessionStep x (.child r act none) { x with child := Function.update x.child r w }
  /-- The process fails before it is up. -/
  | failed {x : Session} {r : Role} {w : Worker} (hstep : Worker.Step (x.child r) .killed w)
      (hdown : (x.exchange.nodes r).proc = none) :
      SessionStep x (.child r .killed none) { x with child := Function.update x.child r w }
  | others {x : Session} {ms : List PaymentMessage} {y : Exchange Role}
      (hothers : ExchangeStep config x.exchange (.others ms) y) : SessionStep x (.others ms) { x with exchange := y }
  /-- A supervisor is launched where none is running. -/
  | launched {x : Session} {code : Nat} (hphase : x.phase = .stopped code) (hdown : ∀ r, (x.child r).running = false) :
      SessionStep x .launched
        ⟨x.exchange, Function.update (fun _ => Worker.absent) .alice .fresh, .starting .alice, []⟩
  | readyAlice {x : Session} {text rest : List Char} (hphase : x.phase = .starting .alice)
      (hread : readLine (!(x.child .alice).running) (x.child .alice).stdout = some (text, rest))
      (hready : isReady rt .alice text = true) :
      SessionStep x (.ready .alice)
        { x with
          child := Function.update (Function.update x.child .alice { x.child .alice with stdout := rest }) .bob .fresh
          phase := .starting .bob }
  | readyBob {x : Session} {text rest : List Char} (hphase : x.phase = .starting .bob)
      (hread : readLine (!(x.child .bob).running) (x.child .bob).stdout = some (text, rest))
      (hready : isReady rt .bob text = true) :
      SessionStep x (.ready .bob)
        { x with
          child := Function.update x.child .bob { x.child .bob with stdout := rest }
          phase := .greeting .alice }
  | unready {x : Session} {r : Role} {text rest : List Char} (hphase : x.phase = .starting r)
      (hread : readLine (!(x.child r).running) (x.child r).stdout = some (text, rest)) (hready : isReady rt r text = false) :
      SessionStep x (.stopped 1) { x with phase := .stopped 1 }
  | greeted {x : Session} {r : Role} (hphase : x.phase = .greeting r) (hrunning : (x.child r).running = true) :
      SessionStep x (.sent (.status r))
        { x with
          child := Function.update x.child r ((x.child r).asked (Query.status r).request.toList)
          phase := .awaiting (.status r) }
  | forwarded {x : Session} {line request : String} {target : Role} (hphase : x.phase = .reading)
      (hmove : operatorMove rt (some line) = .forward target request) (hrunning : (x.child target).running = true) :
      SessionStep x (.sent ⟨some line, target, request⟩)
        { x with
          child := Function.update x.child target ((x.child target).asked request.toList)
          phase := .awaiting ⟨some line, target, request⟩ }
  /-- Nobody reads the pipe any more. -/
  | brokenGreeting {x : Session} {r : Role} (hphase : x.phase = .greeting r) (hdown : (x.child r).running = false) :
      SessionStep x (.stopped 1) { x with phase := .stopped 1 }
  | brokenForward {x : Session} {line request : String} {target : Role} (hphase : x.phase = .reading)
      (hmove : operatorMove rt (some line) = .forward target request) (hdown : (x.child target).running = false) :
      SessionStep x (.stopped 1) { x with phase := .stopped 1 }
  | shown {x : Session} {q : Query} {text rest : List Char} {response : List (PyStr × Json)}
      (hphase : x.phase = .awaiting q)
      (hread : readLine (!(x.child q.target).running) (x.child q.target).stdout = some (text, rest))
      (hresponse : readObject rt text = some response) :
      SessionStep x (.shown q (q.render response))
        { x with
          child := Function.update x.child q.target { x.child q.target with stdout := rest }
          phase := q.next
          printed := x.printed ++ [q.render response] }
  | unanswered {x : Session} {q : Query} {text rest : List Char} (hphase : x.phase = .awaiting q)
      (hread : readLine (!(x.child q.target).running) (x.child q.target).stdout = some (text, rest))
      (hresponse : readObject rt text = none) : SessionStep x (.stopped 1) { x with phase := .stopped 1 }
  | checked {x : Session} (hphase : x.phase = .listening) (hup : ∀ r, (x.child r).running = true) :
      SessionStep x .looped { x with phase := .reading }
  /-- A child has exited. -/
  | exited {x : Session} {r : Role} (hphase : x.phase = .listening) (hdown : (x.child r).running = false) :
      SessionStep x (.stopped 1) { x with phase := .stopped 1 }
  /-- Nothing has been typed, or an empty line. -/
  | again {x : Session} (hphase : x.phase = .reading) : SessionStep x .looped { x with phase := .listening }
  | ended {x : Session} {typed : Option String} {code : Nat} (hphase : x.phase = .reading)
      (hmove : operatorMove rt typed = .exit code) : SessionStep x (.stopped code) { x with phase := .stopped code }
  | interrupted {x : Session} (hphase : ∀ code, x.phase ≠ .stopped code) :
      SessionStep x (.stopped 130) { x with phase := .stopped 130 }

/-- Fresh state roots, and nothing has been launched. -/
def SessionInit (x : Session) : Prop :=
  ExchangeInit x.exchange ∧ (∀ r, x.child r = .absent) ∧ (∃ code, x.phase = .stopped code) ∧ x.printed = []

abbrev SessionHistory := List (Event Session SessionEvent)

/-- The runs of a session. -/
abbrev SessionRun (h : SessionHistory) (x : Session) : Prop := Run SessionInit (SessionStep rt config) h x

end

end HermesPayments
