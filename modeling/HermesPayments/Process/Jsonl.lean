import HermesPayments.Lib.Json.Text
import HermesPayments.Process.Node
import HermesPayments.Process.Snapshot

/-!
# `HermesPayments.Process.Jsonl` — commands and responses as lines

An operator drives a process by lines, one JSON object each, and the runner answers each by one line: the response to the
command, or the text of the exception. `JsonlCommand.parse` reads a line, and `JsonlCommand.command` its arguments as the
handler of the command reads them. `Answers` says which line answers a result.

Whatever is in an object, it is one line (`Answers.object`), so neither a command nor a response can pass for two.
-/

namespace HermesPayments

open Lib

/-- What reading a command takes as given: besides the runtime of the decoder, the digits that `int` knows and the
    number that `float` makes of a value, if it makes one. -/
structure LineRuntime extends Runtime where
  decimal : Char → Option Nat
  toFloat : Json → Option PyFloat

/-! ## Commands -/

/-- A command as a line carries it. -/
structure JsonlCommand where
  name      : String
  arguments : List (PyStr × Json)

namespace JsonlCommand

def knownCommands : List String :=
  ["status", "receive", "submit_intent", "accept_intent", "publish_quote", "accept_quote", "prepare", "approve",
    "execute", "publish_receipt", "verify_publish_receipt", "accept_receipt", "recover", "submit_quote_local"]

section

variable (rt : LineRuntime)

/-- The command of a line that has been read. -/
def ofJson : Json → Except Exc JsonlCommand
  | .obj members =>
      match (members.lookup (.text "command")).bind Json.pyStr? with
      | some name =>
          if name = .text "" then .error (.processProtocolError "command name is required")
          else
            match knownCommands.find? fun known => name = .text known with
            | some known => .ok ⟨known, members.filter fun m => m.1 ≠ .text "command"⟩
            | none       => .error (.processProtocolError s!"unknown command: {name}")
      | none => .error (.processProtocolError "command name is required")
  | _ => .error (.processProtocolError "command must be valid JSON object")

def parse (line : String) : Except Exc JsonlCommand :=
  match jsonLoads rt.toRuntime line with
  | .error (.valueError .notJson) => .error (.processProtocolError "command must be valid JSON object")
  -- a line beyond the limits of the reader: that exception passes through
  | .error _ => .error .argumentError
  | .ok data => ofJson data

/-- The command as a line. An argument under the key of the name stands in its place. -/
def toJson (c : JsonlCommand) : String :=
  (Json.objectOf (("command", .str c.name) :: c.arguments)).dumps responseOptions

/-- The command for a `limit`: there may be none. -/
def receiveUpTo (limit : Json) : Option Command :=
  match limit with
  | .null => some (.receive none)
  | limit => (limit.toInt rt.decimal).toOption.map fun n => .receive (some n)

/-- How the handler of each command reads its arguments; none when it raises. -/
def argumentReaders : List (String × (Json → Option Command)) :=
  let model {α : Type} (args : Json) (key : String) (validate : Json → Option α) : Option α := (args.get? key).bind validate
  [("status", fun _ => some .status),
    ("receive", fun args => receiveUpTo rt (args.getD "limit" .null)),
    ("submit_intent", fun args => (model args "intent" (PaymentIntent.modelValidate rt.toRuntime)).map .submitIntent),
    ("accept_intent", fun args => (strField args "message_id").map .acceptIntent),
    ("publish_quote", fun args => (model args "quote" (PaymentQuote.modelValidate rt.toRuntime)).map .publishQuote),
    ("accept_quote", fun args => (strField args "message_id").map .acceptQuote),
    ("prepare", fun _ => some .prepare),
    ("approve", fun args => do
      let intentId ← strField args "intent_id"
      let preparedHash ← strField args "prepared_hash"
      let quoteId ← strField args "quote_id"
      some (.approve intentId quoteId preparedHash)),
    ("execute", fun _ => some .execute),
    ("publish_receipt", fun args =>
      (model args "receipt" (PaymentReceipt.modelValidate rt.toRuntime)).map .publishReceipt),
    ("verify_publish_receipt", fun args => do
      let intentId ← strField args "intent_id"
      let quoteId ← (args.get? "quote_id").map Json.str?
      let settlementRef ← strField args "settlement_ref"
      match args.get? "amount_sat" with
      | none        => some (.verifyPublishReceipt intentId quoteId settlementRef none)
      | some amount => (amount.toInt rt.decimal).toOption.map fun n =>
          .verifyPublishReceipt intentId quoteId settlementRef (some n)),
    ("accept_receipt", fun args => (strField args "message_id").map .acceptReceipt),
    ("recover", fun args => some (.recover (rt.toFloat (args.getD "max_wait_seconds" (.int 0)))
      (rt.toFloat (args.getD "poll_interval_seconds" (.int 1))))),
    ("submit_quote_local", fun args =>
      (model args "quote" (PaymentQuote.modelValidate rt.toRuntime)).map .submitQuoteLocal)]

/-- The command for the handler: `_handle_` and the name. -/
def command (c : JsonlCommand) : Command :=
  (((argumentReaders rt).lookup c.name).bind fun read => read (.obj c.arguments)).getD (.malformed c.name)

end

/-- No command that the parser knows is without a handler. -/
theorem argumentReaders_keys (rt : LineRuntime) : (argumentReaders rt).map Prod.fst = knownCommands := rfl

end JsonlCommand

/-- A line, as the process handles it. -/
def readCommand (rt : LineRuntime) (line : String) : Except Exc Command :=
  (JsonlCommand.parse rt line).map (JsonlCommand.command rt)

/-! ## Responses -/

/-- `str(e)`, for the exceptions whose text the model has. -/
def Exc.text? : Exc → Option String
  | .submissionRejected m | .recipientRejected m | .approvalRejected m | .stateError m | .unknownIntent m
  | .peerProtocolError m | .transportError m | .processProtocolError m => some m
  | .adapter e => some e.message
  | .validationError | .osError | .argumentError => none

def errorOptions : Json.DumpsOptions := { sortKeys := true }

/-- The line for an exception. -/
def errorLine (isAlnum : Char → Bool) (detail : String) : String :=
  (Json.obj [("event", .str "error"), ("error", .str (redactSensitive isAlnum detail))]).dumps errorOptions

/-- The line that the runner writes for the result of a command. -/
inductive Answers (isAlnum : Char → Bool) : Except Exc String → String → Prop
  | response (line : String) : Answers isAlnum (.ok line) line
  | error {e : Exc} {detail : String} (htext : ∀ m, e.text? = some m → detail = m) :
      Answers isAlnum (.error e) (errorLine isAlnum detail)

/-- The line that the runner writes before it reads any. -/
def readyLine (role : String) : String := (Json.obj [("event", .str "ready"), ("role", .str role)]).dumps {}

/-! ## What is written is one object on one line -/

/-- The text of an object, as one of the writers writes it. -/
def ObjectLine (line : String) : Prop :=
  ∃ o ms, Json.DumpsOptions.Standard o ∧ Json.DumpsOptions.Inline o ∧ line = (Json.obj ms).dumps o

theorem standard_responseOptions : responseOptions.Standard where
  item := ⟨[], rfl, by intro c hc; cases hc⟩
  key  := ⟨[], rfl, by intro c hc; cases hc⟩

theorem inline_responseOptions : responseOptions.Inline where
  item := by decide
  key  := by decide

theorem inline_default (sortKeys ensureAscii : Bool) :
    Json.DumpsOptions.Inline { sortKeys := sortKeys, ensureAscii := ensureAscii } where
  item := by
    show Json.Printable ", ".toList
    decide
  key := by
    show Json.Printable ": ".toList
    decide

/-- … with the separators of a response, or with the ones by default. -/
theorem ObjectLine.compact (ms : List (PyStr × Json)) : ObjectLine ((Json.obj ms).dumps responseOptions) :=
  ⟨_, ms, standard_responseOptions, inline_responseOptions, rfl⟩

theorem ObjectLine.default (ms : List (PyStr × Json)) (sortKeys : Bool) :
    ObjectLine ((Json.obj ms).dumps { sortKeys := sortKeys }) :=
  ⟨_, ms, Json.standard_default _ _, inline_default _ _, rfl⟩

theorem ObjectLine.line {line : String} (h : ObjectLine line) : Line line.toList := by
  obtain ⟨o, ms, _, hinline, rfl⟩ := h
  exact Json.line_dumps_obj hinline ms

/-- **Every answer is an object on one line.** -/
theorem Answers.object {config : ProcessConfig} {penv : ProcessEnv} {s : ProcessState} {parsed : Except Exc Command}
    {isAlnum : Char → Bool} {line : String} (h : Answers isAlnum (s.handle config penv parsed).result line) :
    ObjectLine line := by
  generalize hresult : (s.handle config penv parsed).result = result at h
  cases h with
  | error _ => exact .default _ true
  | response line =>
      cases parsed with
      | error e => cases hresult
      | ok c =>
          rw [ProcessState.handle, handleLine, Proc.run_bind] at hresult
          revert hresult
          generalize (Proc.tryFinally (handler config penv c) snapshotState).run s = out
          intro hresult
          obtain ⟨res, s', es⟩ := out
          cases res with
          | error e => cases hresult
          | ok result =>
              cases hresult
              exact .compact _

/-! ## What a command was read from -/

theorem lookup_filter_ne {ms : List (PyStr × Json)} {key other : String} (hne : key ≠ other) :
    (ms.filter fun m => m.1 ≠ .text other).lookup (.text key) = ms.lookup (.text key) := by
  induction ms with
  | nil => rfl
  | cons m ms ih =>
      obtain ⟨k, v⟩ := m
      by_cases hk : k = .text other
      · have hkey : (PyStr.text key == k) = false :=
          beq_eq_false_iff_ne.mpr fun h => hne (PyStr.text.inj (h.trans hk))
        rw [List.filter_cons_of_neg (by simp [hk]), ih, List.lookup_cons, hkey]
      · rw [List.filter_cons_of_pos (by simp [hk]), List.lookup_cons, List.lookup_cons, ih]

section

variable {rt : LineRuntime} {line : String}

/-- The parser has read the line as an object with the name of a known command. -/
theorem JsonlCommand.parse_eq_ok {c : JsonlCommand} (h : JsonlCommand.parse rt line = .ok c) :
    ∃ members, jsonLoads rt.toRuntime line = .ok (.obj members) ∧ members.lookup (.text "command") = some (.str c.name) ∧
      c.name ∈ knownCommands ∧ c.arguments = members.filter fun m => m.1 ≠ .text "command" := by
  unfold JsonlCommand.parse at h
  split at h
  · cases h
  · cases h
  · next data hloads =>
      cases data with
      | obj members =>
          dsimp only [JsonlCommand.ofJson] at h
          split at h
          · next name hname =>
              split at h
              · cases h
              · split at h
                · next known hknown =>
                    cases h
                    obtain ⟨j, hj, hstr⟩ := Option.bind_eq_some_iff.mp hname
                    have hequal : name = .text known := by simpa using List.find?_some hknown
                    rw [Json.pyStr?_eq_some hstr, hequal] at hj
                    exact ⟨members, hloads, hj, List.mem_of_find?_eq_some hknown, rfl⟩
                · cases h
          · cases h
      | null | bool _ | int _ | float _ | str _ | arr _ => cases h

theorem name_of_map {α : Type} {x : Option α} {f : α → Command} {name : String} {c : Command} (hf : ∀ a, (f a).name = name)
    (hc : x.map f = some c) : c.name = name := by
  obtain ⟨a, _, rfl⟩ := Option.map_eq_some_iff.mp hc
  exact hf a

/-- The reader of a command reads no other. -/
theorem JsonlCommand.argumentReaders_name {name : String} {read : Json → Option Command}
    (hread : (name, read) ∈ argumentReaders rt) {args : Json} {c : Command} (hc : read args = some c) : c.name = name := by
  simp only [argumentReaders, List.mem_cons, Prod.mk.injEq, List.not_mem_nil, or_false] at hread
  rcases hread with ⟨rfl, rfl⟩ | ⟨rfl, rfl⟩ | ⟨rfl, rfl⟩ | ⟨rfl, rfl⟩ | ⟨rfl, rfl⟩ | ⟨rfl, rfl⟩ | ⟨rfl, rfl⟩ | ⟨rfl, rfl⟩
    | ⟨rfl, rfl⟩ | ⟨rfl, rfl⟩ | ⟨rfl, rfl⟩ | ⟨rfl, rfl⟩ | ⟨rfl, rfl⟩ | ⟨rfl, rfl⟩
  · cases hc
    rfl
  · dsimp only [receiveUpTo] at hc
    split at hc
    · cases hc
      rfl
    · exact name_of_map (fun _ => rfl) hc
  · exact name_of_map (fun _ => rfl) hc
  · exact name_of_map (fun _ => rfl) hc
  · exact name_of_map (fun _ => rfl) hc
  · exact name_of_map (fun _ => rfl) hc
  · cases hc
    rfl
  · simp only [Option.bind_eq_bind, Option.bind_eq_some_iff, Option.some.injEq] at hc
    obtain ⟨_, _, _, _, _, _, rfl⟩ := hc
    rfl
  · cases hc
    rfl
  · exact name_of_map (fun _ => rfl) hc
  · simp only [Option.bind_eq_bind, Option.bind_eq_some_iff] at hc
    obtain ⟨_, _, _, _, _, _, hc⟩ := hc
    split at hc
    · cases hc
      rfl
    · exact name_of_map (fun _ => rfl) hc
  · exact name_of_map (fun _ => rfl) hc
  · cases hc
    rfl
  · exact name_of_map (fun _ => rfl) hc

/-- The reader of the command has read its arguments, or they are malformed. -/
theorem JsonlCommand.command_cases (c : JsonlCommand) :
    (∃ read, (argumentReaders rt).lookup c.name = some read ∧ read (.obj c.arguments) = some (c.command rt)) ∨
      c.command rt = .malformed c.name := by
  unfold JsonlCommand.command
  cases hread : (argumentReaders rt).lookup c.name with
  | none => exact .inr rfl
  | some read =>
      rw [Option.bind_some]
      cases hc : read (.obj c.arguments) with
      | none => exact .inr rfl
      | some command => exact .inl ⟨read, rfl, hc⟩

/-- The command for the handler has the name on the line. -/
theorem JsonlCommand.command_name (c : JsonlCommand) : (c.command rt).name = c.name := by
  rcases c.command_cases with ⟨read, hread, hc⟩ | hc
  · obtain ⟨front, back, hreaders, _⟩ := List.lookup_eq_some_iff.mp hread
    have hmem : (c.name, read) ∈ argumentReaders rt := by
      rw [hreaders]
      exact List.mem_append_right _ List.mem_cons_self
    exact argumentReaders_name hmem hc
  · rw [hc]
    rfl

/-- **A command that was read** stands on the line under its name, and its arguments were read from the other members. -/
theorem readCommand_eq_ok {c : Command} (h : readCommand rt line = .ok c) :
    ∃ members, jsonLoads rt.toRuntime line = .ok (.obj members) ∧ members.lookup (.text "command") = some (.str c.name) ∧
      ((∃ read, (JsonlCommand.argumentReaders rt).lookup c.name = some read ∧
          read (.obj (members.filter fun m => m.1 ≠ .text "command")) = some c) ∨ c = .malformed c.name) := by
  unfold readCommand at h
  cases hparse : JsonlCommand.parse rt line with
  | error e =>
      rw [hparse] at h
      cases h
  | ok command =>
      rw [hparse] at h
      obtain rfl := Except.ok.inj h
      obtain ⟨members, hloads, hname, _, hargs⟩ := JsonlCommand.parse_eq_ok hparse
      refine ⟨members, hloads, ?_, ?_⟩
      · rw [command.command_name]
        exact hname
      · rw [command.command_name, ← hargs]
        exact command.command_cases

/-- The members that an approval is read from. -/
theorem readCommand_approve {intentId quoteId preparedHash : String}
    (h : readCommand rt line = .ok (.approve intentId quoteId preparedHash)) :
    ∃ members, jsonLoads rt.toRuntime line = .ok (.obj members) ∧ members.lookup (.text "command") = some (.str "approve") ∧
      members.lookup (.text "intent_id") = some (.str intentId) ∧ members.lookup (.text "quote_id") = some (.str quoteId) ∧
      members.lookup (.text "prepared_hash") = some (.str preparedHash) := by
  obtain ⟨members, hloads, hname, ⟨read, hread, hc⟩ | hmalformed⟩ := readCommand_eq_ok h
  · have hfield {key s : String} (hne : key ≠ "command")
        (hs : strField (.obj (members.filter fun m => m.1 ≠ .text "command")) key = some s) :
        members.lookup (.text key) = some (.str s) := by
      obtain ⟨j, hj, hstr⟩ := Option.bind_eq_some_iff.mp hs
      rw [Json.str?_eq_some hstr] at hj
      rw [← lookup_filter_ne hne]
      exact hj
    obtain rfl := Option.some.inj hread
    simp only [Option.bind_eq_bind, Option.bind_eq_some_iff, Option.some.injEq] at hc
    obtain ⟨i, hi, hash, hhash, q, hq, hparts⟩ := hc
    cases hparts
    exact ⟨members, hloads, hname, hfield (by decide) hi, hfield (by decide) hq, hfield (by decide) hhash⟩
  · cases hmalformed

end

end HermesPayments
