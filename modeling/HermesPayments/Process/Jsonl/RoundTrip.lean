import HermesPayments.Envelope.RoundTrip
import HermesPayments.Lib.Json.WellRead
import HermesPayments.Process.Jsonl

/-!
# `HermesPayments.Process.Jsonl.RoundTrip` — a command survives being written

A command is a JSON object, and whoever passes it on writes it anew: in an order of its own, with separators of its own.
What the handler of a command reads are texts, numbers, and members under their keys, so it reads the same from what was
written (`readCommand_dumps`). In particular a command that was written as a line is read as that command
(`readCommand_toJson`).
-/

namespace HermesPayments

open Lib

/-- The readers do what is known of them: the text of a float reads as that float, and neither a list nor an object is a
    number. -/
structure LineRuntime.Sound (rt : LineRuntime) : Prop where
  readsBack   : Json.ReadsBack rt.readFloat
  toInt_arr   : ∀ items, rt.toInt (.arr items) = none
  toInt_obj   : ∀ ms, rt.toInt (.obj ms) = none
  toFloat_arr : ∀ items, rt.toFloat (.arr items) = none
  toFloat_obj : ∀ ms, rt.toFloat (.obj ms) = none

section

variable {readFloat : String → PyFloat} {o : Json.DumpsOptions} {j j' : Json}

/-! ## Fields -/

section

variable (h : Json.Rereads readFloat o j j')

include h

theorem strField_rereads (key : String) : strField j' key = strField j key := h.bind Json.stable_str? key

theorem optionalStrField_rereads (key : String) : optionalStrField j' key = optionalStrField j key := by
  unfold optionalStrField
  rw [h.get? key]
  cases hv : j.get? key with
  | none => rfl
  | some v =>
      have hwell := h.wellRead key v hv
      cases hwell with
      | null | bool _ | int _ | str _ => rw [Option.map_some, Json.reread]
      | float _ | arr _ =>
          rw [Option.map_some, Json.reread]
          rfl
      | obj _ _ =>
          rw [Option.map_some, Json.reread_obj]
          rfl

theorem versionField_rereads : versionField j' = versionField j := by
  unfold versionField
  rw [h.get? "protocol_version"]
  cases hv : j.get? "protocol_version" with
  | none => rfl
  | some v => simp only [Option.map_some, Json.stable_str? v (h.wellRead _ v hv)]

theorem feeConstraintField_rereads : feeConstraintField j' = feeConstraintField j := by
  unfold feeConstraintField
  rw [h.get? "fee_constraint"]
  cases hv : j.get? "fee_constraint" with
  | none => rfl
  | some v => simp only [Option.map_some, Json.stable_str? v (h.wellRead _ v hv)]

end

/-! ## Models -/

theorem AgentIdentity.stable_modelValidate : Json.Stable readFloat o AgentIdentity.modelValidate :=
  Json.stable_of_rereads fun h => by
    simp only [AgentIdentity.modelValidate, strField_rereads h, optionalStrField_rereads h]

theorem RailReceiveInstruction.stable_modelValidate : Json.Stable readFloat o RailReceiveInstruction.modelValidate :=
  Json.stable_of_rereads fun h => by
    simp only [RailReceiveInstruction.modelValidate, strField_rereads h, optionalStrField_rereads h]

variable {rt : Runtime} (hint : Json.Stable readFloat o rt.toInt)

include hint

theorem intField_rereads (h : Json.Rereads readFloat o j j') (key : String) : intField rt j' key = intField rt j key :=
  h.bind hint key

theorem PaymentIntent.stable_modelValidate : Json.Stable readFloat o (PaymentIntent.modelValidate rt) :=
  Json.stable_of_rereads fun h => by
    simp only [PaymentIntent.modelValidate, versionField_rereads h, strField_rereads h, intField_rereads hint h,
      h.bind AgentIdentity.stable_modelValidate]

theorem PaymentQuote.stable_modelValidate : Json.Stable readFloat o (PaymentQuote.modelValidate rt) :=
  Json.stable_of_rereads fun h => by
    simp only [PaymentQuote.modelValidate, versionField_rereads h, strField_rereads h, intField_rereads hint h,
      feeConstraintField_rereads h, h.bind AgentIdentity.stable_modelValidate,
      h.bind RailReceiveInstruction.stable_modelValidate]

theorem PaymentReceipt.stable_modelValidate : Json.Stable readFloat o (PaymentReceipt.modelValidate rt) :=
  Json.stable_of_rereads fun h => by
    simp only [PaymentReceipt.modelValidate, versionField_rereads h, strField_rereads h, intField_rereads hint h,
      h.bind AgentIdentity.stable_modelValidate]

end

section

variable {rt : LineRuntime} {o : Json.DumpsOptions} {line : String}

namespace LineRuntime.Sound

theorem stable_toInt (hsound : rt.Sound) : Json.Stable rt.readFloat o rt.toInt :=
  Json.stable_of_scalars hsound.toInt_arr hsound.toInt_obj

theorem stable_toFloat (hsound : rt.Sound) : Json.Stable rt.readFloat o rt.toFloat :=
  Json.stable_of_scalars hsound.toFloat_arr hsound.toFloat_obj

end LineRuntime.Sound

/-! ## Commands -/

namespace JsonlCommand

/-- **The handlers read the same** of arguments that were written and read back. -/
theorem argumentReaders_rereads (hsound : rt.Sound) {args args' : Json} (h : Json.Rereads rt.readFloat o args args')
    {name : String} {read : Json → Option Command} (hread : (name, read) ∈ argumentReaders rt) : read args' = read args := by
  have hint := hsound.stable_toInt (o := o)
  have htext := strField_rereads h
  have hinteger {α : Type} (f : Int → α) :
      Json.Stable rt.readFloat o fun j => (j.toInt rt.decimal).toOption.map f :=
    Json.stable_of_scalars (fun _ => rfl) fun _ => rfl
  have hfloat := h.getD hsound.stable_toFloat
  simp only [argumentReaders, List.mem_cons, Prod.mk.injEq, List.not_mem_nil, or_false] at hread
  rcases hread with ⟨-, rfl⟩ | ⟨-, rfl⟩ | ⟨-, rfl⟩ | ⟨-, rfl⟩ | ⟨-, rfl⟩ | ⟨-, rfl⟩ | ⟨-, rfl⟩ | ⟨-, rfl⟩ | ⟨-, rfl⟩ | ⟨-, rfl⟩
    | ⟨-, rfl⟩ | ⟨-, rfl⟩ | ⟨-, rfl⟩ | ⟨-, rfl⟩
  · rfl
  · have hlimit : Json.Stable rt.readFloat o (receiveUpTo rt) := Json.stable_of_scalars (fun _ => rfl) fun _ => rfl
    exact h.getD hlimit "limit" .null
  · simp only [h.bind (PaymentIntent.stable_modelValidate hint)]
  · simp only [htext]
  · simp only [h.bind (PaymentQuote.stable_modelValidate hint)]
  · simp only [htext]
  · rfl
  · simp only [htext]
  · rfl
  · simp only [h.bind (PaymentReceipt.stable_modelValidate hint)]
  · simp only [htext, h.map Json.stable_str? "quote_id", h.get? "amount_sat"]
    cases hv : args.get? "amount_sat" with
    | none => rfl
    | some v => simp only [Option.map_some, hinteger _ v (h.wellRead _ v hv)]
  · simp only [htext]
  · simp only [hfloat]
  · simp only [h.bind (PaymentQuote.stable_modelValidate hint)]

/-- The keys that the handlers read. -/
def argumentKeys : List String :=
  ["limit", "intent", "message_id", "quote", "intent_id", "prepared_hash", "quote_id", "receipt", "settlement_ref",
    "amount_sat", "max_wait_seconds", "poll_interval_seconds"]

/-- … and they read no other. -/
theorem argumentReaders_congr {args args' : Json} (h : ∀ k ∈ argumentKeys, args'.get? k = args.get? k) {name : String}
    {read : Json → Option Command} (hread : (name, read) ∈ argumentReaders rt) : read args' = read args := by
  have hkey (k : String) (hk : k ∈ argumentKeys := by decide) : args'.get? k = args.get? k := h k hk
  simp only [argumentReaders, List.mem_cons, Prod.mk.injEq, List.not_mem_nil, or_false] at hread
  rcases hread with ⟨-, rfl⟩ | ⟨-, rfl⟩ | ⟨-, rfl⟩ | ⟨-, rfl⟩ | ⟨-, rfl⟩ | ⟨-, rfl⟩ | ⟨-, rfl⟩ | ⟨-, rfl⟩ | ⟨-, rfl⟩ | ⟨-, rfl⟩
    | ⟨-, rfl⟩ | ⟨-, rfl⟩ | ⟨-, rfl⟩ | ⟨-, rfl⟩
  · rfl
  · simp only [Json.getD, hkey "limit"]
  · simp only [hkey "intent"]
  · simp only [strField, hkey "message_id"]
  · simp only [hkey "quote"]
  · simp only [strField, hkey "message_id"]
  · rfl
  · simp only [strField, hkey "intent_id", hkey "prepared_hash", hkey "quote_id"]
  · rfl
  · simp only [hkey "receipt"]
  · simp only [strField, hkey "intent_id", hkey "quote_id", hkey "settlement_ref", hkey "amount_sat"]
  · simp only [strField, hkey "message_id"]
  · simp only [Json.getD, hkey "max_wait_seconds", hkey "poll_interval_seconds"]
  · simp only [hkey "quote"]

/-- The command is made by the reader of its name. -/
theorem command_congr {c c' : JsonlCommand} (hname : c'.name = c.name)
    (h : ∀ read, (c.name, read) ∈ argumentReaders rt → read (.obj c'.arguments) = read (.obj c.arguments)) :
    c'.command rt = c.command rt := by
  unfold command
  rw [hname]
  cases hread : (argumentReaders rt).lookup c.name with
  | none => rfl
  | some read =>
      obtain ⟨front, back, hreaders, _⟩ := List.lookup_eq_some_iff.mp hread
      have hmem : (c.name, read) ∈ argumentReaders rt := by
        rw [hreaders]
        exact List.mem_append_right _ List.mem_cons_self
      rw [Option.bind_some, Option.bind_some, h read hmem]

end JsonlCommand

theorem lookup_filter_self {ms : List (PyStr × Json)} (key : String) :
    (ms.filter fun m => m.1 ≠ .text key).lookup (.text key) = none := by
  rw [List.lookup_eq_none_iff]
  intro m hm
  have hne : m.1 ≠ .text key := of_decide_eq_true (List.mem_filter.mp hm).2
  exact bne_iff_ne.mpr hne.symm

/-- Without one of its members, a value shows the others. -/
theorem rereads_filter {readFloat : String → PyFloat} {ms ms' : List (PyStr × Json)} (key : String)
    (h : Json.Rereads readFloat o (.obj ms) (.obj ms')) :
    Json.Rereads readFloat o (.obj (ms.filter fun m => m.1 ≠ .text key)) (.obj (ms'.filter fun m => m.1 ≠ .text key)) := by
  refine ⟨fun k => ?_, fun k v hv => ?_⟩
  · show (ms'.filter _).lookup (.text k) = ((ms.filter _).lookup (.text k)).map _
    by_cases hk : k = key
    · rw [hk, lookup_filter_self, lookup_filter_self]
      rfl
    · rw [lookup_filter_ne hk, lookup_filter_ne hk]
      exact h.get? k
  · replace hv : (ms.filter _).lookup (.text k) = some v := hv
    by_cases hk : k = key
    · rw [hk, lookup_filter_self] at hv
      cases hv
    · rw [lookup_filter_ne hk] at hv
      exact h.wellRead k v hv

/-- The command of an object that was written and read back. -/
theorem JsonlCommand.ofJson_reread (hsound : rt.Sound) {j : Json} (hj : j.WellRead rt.readFloat) :
    (JsonlCommand.ofJson (j.reread rt.readFloat o)).map (JsonlCommand.command rt) =
      (JsonlCommand.ofJson j).map (JsonlCommand.command rt) := by
  cases hj with
  | null | bool _ | int _ | str _ => rw [Json.reread]
  | float _ | arr _ =>
      rw [Json.reread]
      rfl
  | @obj ms hnd hmembers =>
      have hrereads := (Json.WellRead.obj hnd hmembers).rereads (o := o)
      obtain ⟨ms', hms'⟩ : ∃ ms', Json.reread rt.readFloat o (.obj ms) = .obj ms' := by
        rw [Json.reread_obj]
        exact ⟨_, rfl⟩
      rw [hms'] at hrereads ⊢
      have hname : (ms'.lookup (.text "command")).bind Json.pyStr? = (ms.lookup (.text "command")).bind Json.pyStr? :=
        hrereads.bind Json.stable_pyStr? "command"
      dsimp only [JsonlCommand.ofJson]
      rw [hname]
      cases (ms.lookup (.text "command")).bind Json.pyStr? with
      | none => rfl
      | some name =>
          dsimp only
          split
          · rfl
          · split
            · refine congrArg Except.ok (JsonlCommand.command_congr rfl fun read hread => ?_)
              exact JsonlCommand.argumentReaders_rereads hsound (rereads_filter "command" hrereads) hread
            · rfl

/-- **What a command is read as** from a line that a writer has made: the object's own command. -/
theorem readCommand_dumps (hsound : rt.Sound) (ho : o.Standard) {j : Json} (hj : j.WellRead rt.readFloat)
    (hlimit : rt.limit (j.dumps o) = none) :
    readCommand rt (j.dumps o) = (JsonlCommand.ofJson j).map (JsonlCommand.command rt) := by
  have hloads : jsonLoads rt.toRuntime (j.dumps o) = .ok (j.reread rt.readFloat o) := by
    rw [jsonLoads, hlimit, Json.loads_dumps ho]
    rfl
  rw [readCommand, JsonlCommand.parse, hloads]
  exact JsonlCommand.ofJson_reread hsound hj

/-- A member that no handler reads makes no difference to the command. -/
theorem JsonlCommand.ofJson_filter {ms : List (PyStr × Json)} {key : String} (hcommand : key ≠ "command")
    (hkey : key ∉ JsonlCommand.argumentKeys) :
    (JsonlCommand.ofJson (.obj (ms.filter fun m => m.1 ≠ .text key))).map (JsonlCommand.command rt) =
      (JsonlCommand.ofJson (.obj ms)).map (JsonlCommand.command rt) := by
  dsimp only [JsonlCommand.ofJson]
  rw [lookup_filter_ne hcommand.symm]
  cases (ms.lookup (.text "command")).bind Json.pyStr? with
  | none => rfl
  | some name =>
      dsimp only
      split
      · rfl
      · split
        · refine congrArg Except.ok (JsonlCommand.command_congr rfl fun read hread => ?_)
          refine JsonlCommand.argumentReaders_congr (fun k hk => ?_) hread
          have hne : k ≠ "command" := by
            rintro rfl
            exact absurd hk (by decide)
          show (List.filter _ (List.filter _ ms)).lookup (.text k) = (List.filter _ ms).lookup (.text k)
          rw [lookup_filter_ne hne, lookup_filter_ne hne, lookup_filter_ne (ne_of_mem_of_not_mem hk hkey)]
        · rfl

end

namespace Sample

/-- Nothing runs into a limit. -/
def lineRuntime : LineRuntime := { runtime with decimal := fun _ => none, toFloat := fun _ => none }

theorem lineRuntime_sound : lineRuntime.Sound where
  readsBack _   := rfl
  toInt_arr _   := rfl
  toInt_obj _   := rfl
  toFloat_arr _ := rfl
  toFloat_obj _ := rfl

end Sample

section

variable {rt : LineRuntime}

/-- **A command that is written as a line** is read as that command, unless one of its arguments stands in the place of its
    name. -/
theorem readCommand_toJson (hsound : rt.Sound) {c : JsonlCommand} (hname : c.name ∈ JsonlCommand.knownCommands)
    (hnd : (c.arguments.map Prod.fst).Nodup) (hwell : ∀ m ∈ c.arguments, m.2.WellRead rt.readFloat)
    (hlimit : rt.limit c.toJson = none) :
    readCommand rt c.toJson = .ok (c.command rt) ↔
      ∀ v, c.arguments.lookup (.text "command") = some v → v = .str c.name := by
  have hj : (Json.objectOf (("command", .str c.name) :: c.arguments)).WellRead rt.readFloat :=
    .objectOf (List.forall_mem_cons.mpr ⟨.str _, hwell⟩)
  have hget := Json.get?_objectOf_cons hnd "command" (.str c.name)
  rw [JsonlCommand.toJson] at hlimit ⊢
  rw [readCommand_dumps hsound standard_responseOptions hj hlimit]
  obtain ⟨ms, hms⟩ : ∃ ms, Json.objectOf (("command", .str c.name) :: c.arguments) = .obj ms := ⟨_, rfl⟩
  rw [hms] at hget ⊢
  have hfield : ms.lookup (.text "command") = some ((c.arguments.lookup (.text "command")).getD (.str c.name)) := by
    refine (hget "command").trans ?_
    cases c.arguments.lookup (.text "command") with
    | none => rfl
    | some v => rfl
  have hothers (read : Json → Option Command) (hread : (c.name, read) ∈ JsonlCommand.argumentReaders rt) :
      read (.obj (ms.filter fun m => m.1 ≠ .text "command")) = read (.obj c.arguments) := by
    refine JsonlCommand.argumentReaders_congr (fun k hk => ?_) hread
    have hne : k ≠ "command" := by
      rintro rfl
      exact absurd hk (by decide)
    refine (lookup_filter_ne hne).trans ((hget k).trans ?_)
    rw [if_neg hne, Option.or_none]
    rfl
  constructor
  · intro hsame v hv
    rw [hv, Option.getD_some] at hfield
    dsimp only [JsonlCommand.ofJson] at hsame
    rw [hfield] at hsame
    cases hstr : v.pyStr? with
    | none =>
        rw [show (some v).bind Json.pyStr? = none from hstr] at hsame
        cases hsame
    | some name =>
        rw [show (some v).bind Json.pyStr? = some name from hstr] at hsame
        dsimp only at hsame
        split at hsame
        · cases hsame
        · split at hsame
          · next known hknown =>
              have hcommand := congrArg Command.name (Except.ok.inj hsame)
              rw [JsonlCommand.command_name, JsonlCommand.command_name] at hcommand
              have hequal : name = .text known := by simpa using List.find?_some hknown
              rw [Json.pyStr?_eq_some hstr, hequal]
              exact congrArg (fun name => Json.str (.text name)) hcommand
          · cases hsame
  · intro hname'
    have hvalue : (c.arguments.lookup (.text "command")).getD (.str c.name) = .str c.name := by
      cases hv : c.arguments.lookup (.text "command") with
      | none => rfl
      | some v => exact hname' v hv
    have hnonempty : c.name ≠ "" := by
      intro heq
      rw [heq] at hname
      exact absurd hname (by decide)
    have hknown : (JsonlCommand.knownCommands.find? fun known => c.name = known) = some c.name := by
      obtain ⟨known, hfind⟩ : ∃ known, (JsonlCommand.knownCommands.find? fun known => c.name = known) = some known :=
        Option.isSome_iff_exists.mp (List.find?_isSome.mpr ⟨c.name, hname, decide_eq_true rfl⟩)
      have hequal : c.name = known := by simpa using List.find?_some hfind
      rw [hfind, hequal]
    dsimp only [JsonlCommand.ofJson]
    rw [hfield, hvalue, show (some (Json.str c.name)).bind Json.pyStr? = some (.text c.name) from rfl]
    simp only [PyStr.text.injEq, hnonempty, if_false, hknown]
    exact congrArg Except.ok (JsonlCommand.command_congr rfl hothers)

theorem readCommand_toJson_approve :
    readCommand Sample.lineRuntime (JsonlCommand.toJson
      ⟨"approve", [("quote_id", .str "quote 1"), ("prepared_hash", .str "hash"), ("intent_id", .str "i")]⟩) =
      .ok (.approve "i" "quote 1" "hash") := by
  refine (readCommand_toJson Sample.lineRuntime_sound (by decide) (by decide) ?_ rfl).mpr ?_
  · intro m hm
    simp only [List.mem_cons, List.not_mem_nil, or_false] at hm
    rcases hm with rfl | rfl | rfl
    · exact .str _
    · exact .str _
    · exact .str _
  · intro v hv
    cases hv

end

end HermesPayments
