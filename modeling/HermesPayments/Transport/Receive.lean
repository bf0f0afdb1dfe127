import HermesPayments.Envelope.RoundTrip
import HermesPayments.Lib.Quota
import HermesPayments.Policy.Runs
import HermesPayments.Transport

/-!
# `HermesPayments.Transport.Receive` — what one receive looks at, hands out and remembers

A message is accepted when its event passes five checks (`validateReceivedEvent_eq_ok_iff`). `judge` is what the
transport makes of one event. One call of `receive` looks at the unseen events of the relay, in
order, until its limit is filled (`reached`); it hands out what it makes of them and remembers their ids
(`run_receive`), unless one of them makes it raise (`run_receive_raises`).
-/

namespace HermesPayments

open Lib

/-! ## The cursor file -/

/-- **The ids that were written are read back.** -/
theorem loadCursor_cursorText {rt : Runtime} {ids : List String} (hlimit : rt.limit (cursorText ids) = none) :
    loadCursor rt (some (cursorText ids)) = .ok ids.toFinset := by
  have hloads : Json.loads rt.readFloat (cursorText ids) = _ := Json.loads_dumps (Json.standard_default true true) _
  have hget : (Json.reread rt.readFloat { sortKeys := true }
      (.obj [("event_ids", .arr (ids.map fun id : String => .str id))])).get? "event_ids" = some _ :=
    (Json.carries_reread rt.readFloat _).get?_some (by simp) rfl
  rw [Json.reread_texts] at hget
  rw [Json.reread_obj] at hloads hget
  simp only [loadCursor, jsonLoads, hlimit, hloads, Option.elim_some, Json.objectOf, cursorEventIds] at hget ⊢
  rw [hget]
  simp [List.filterMap_map, Function.comp_def]

/-! ## Validation -/

theorem checkAuthor_eq_ok_iff {event : RawBuzzEvent} {role : String} {identity : AgentIdentity}
    {message m : PaymentMessage} :
    checkAuthor event role identity message = .ok m ↔ message = m ∧ event.pubkey = identity.pubkey := by
  unfold checkAuthor
  by_cases h : event.pubkey = identity.pubkey <;> simp [h]

/-- **What an accepted event is**: of the right kind, on the channel, with a content that decodes, not expired, and
    written by the author of the message. -/
theorem validateReceivedEvent_eq_ok_iff {rt : Runtime} {event : RawBuzzEvent} {channel : String} {now : Int}
    {m : PaymentMessage} : validateReceivedEvent rt event channel now = .ok m ↔
      event.kind = WIRE_KIND ∧ channelFromTags event.tags = channel ∧ decodeContent rt event.content = .ok m ∧
        m.expired now = false ∧ event.pubkey = (messageAuthor m).pubkey := by
  unfold validateReceivedEvent
  by_cases hkind : event.kind = WIRE_KIND
  swap
  · simp [hkind]
  by_cases hchannel : channelFromTags event.tags = channel
  swap
  · simp [hkind, hchannel]
  rw [if_neg (not_not.mpr hkind), if_neg (not_not.mpr hchannel)]
  cases decodeContent rt event.content with
  | error e => cases e <;> simp
  | ok message =>
      by_cases hexp : message.expired now = true
      · simp only [hexp, if_true, Except.ok.injEq]
        constructor
        · nofun
        · rintro ⟨_, _, rfl, hnot, _⟩
          rw [hexp] at hnot
          cases hnot
      · simp only [hexp, Bool.false_eq_true, if_false]
        have hauthor : ∀ identity role, messageAuthor message = identity →
            (checkAuthor event role identity message = .ok m ↔ event.kind = WIRE_KIND ∧
              channelFromTags event.tags = channel ∧ (Except.ok message : Except DecodeError _) = .ok m ∧
              m.expired now = false ∧ event.pubkey = (messageAuthor m).pubkey) := by
          rintro identity role rfl
          rw [checkAuthor_eq_ok_iff]
          constructor
          · rintro ⟨rfl, h⟩
            exact ⟨hkind, hchannel, rfl, by simpa using hexp, h⟩
          · rintro ⟨_, _, h, _, hpub⟩
            cases h
            exact ⟨rfl, hpub⟩
        cases message <;> exact hauthor _ _ rfl

/-- Validation raises anything but its own exception exactly where decoding does, after the first two checks. -/
theorem validateReceivedEvent_raises_iff {rt : Runtime} {event : RawBuzzEvent} {channel : String} (now : Int) :
    (∃ e, validateReceivedEvent rt event channel now = .error e ∧ ∀ cause, e ≠ .envelopeValidation cause) ↔
      event.kind = WIRE_KIND ∧ channelFromTags event.tags = channel ∧ Raises (decodeContent rt event.content) := by
  have hown (cause : EnvelopeCause) : ¬ ∃ e,
      (.error (.envelopeValidation cause) : Except EventError PaymentMessage) = .error e ∧
        ∀ cause, e ≠ .envelopeValidation cause := by
    rintro ⟨e, h, he⟩
    cases h
    exact he cause rfl
  have hauthor (role : String) (identity : AgentIdentity) (message : PaymentMessage) : ¬ ∃ e,
      checkAuthor event role identity message = .error e ∧ ∀ cause, e ≠ .envelopeValidation cause := by
    unfold checkAuthor
    split
    · exact hown _
    · nofun
  unfold validateReceivedEvent
  by_cases hkind : event.kind = WIRE_KIND
  swap
  · rw [if_pos hkind]
    exact iff_of_false (hown _) fun h => hkind h.1
  by_cases hchannel : channelFromTags event.tags = channel
  swap
  · rw [if_neg (not_not.mpr hkind), if_pos hchannel]
    exact iff_of_false (hown _) fun h => hchannel h.2.1
  rw [if_neg (not_not.mpr hkind), if_neg (not_not.mpr hchannel)]
  cases decodeContent rt event.content with
  | error e =>
      cases e with
      | valueError cause => exact iff_of_false (hown _) fun h => not_raises_valueError _ h.2.2
      | typeError | recursionError => exact iff_of_true ⟨_, rfl, nofun⟩ ⟨hkind, hchannel, _, rfl, nofun⟩
  | ok message =>
      refine iff_of_false ?_ fun h => not_raises_ok _ h.2.2
      simp only
      split
      · exact hown _
      · cases message <;> exact hauthor _ _ _

namespace BuzzTransport

variable (rt : Runtime) (cfg : BuzzConfig) (env : BuzzEnv)

/-! ## One event -/

/-- What the transport makes of an event it looks at: nothing, a message to hand out, or an exception. -/
def judge (event : RawBuzzEvent) : Except EventError (Option PeerMessage) :=
  if cfg.localPubkey = some event.pubkey then .ok none
  else
    match validateReceivedEvent rt event cfg.channel (env.clock event) with
    | .error (.envelopeValidation _) => .ok none
    | .error e                       => .error e
    | .ok message                    => .ok (some (peerMessage event message))

/-- The message handed out for an event, if it is a valid one of another author. -/
def handout (event : RawBuzzEvent) : Option PeerMessage := (judge rt cfg env event).toOption.join

/-- Looking at the event raises. -/
def Poisons (event : RawBuzzEvent) : Prop := ∃ e, judge rt cfg env event = .error e

theorem handout_of_judge {event : RawBuzzEvent} {m : Option PeerMessage} (h : judge rt cfg env event = .ok m) :
    handout rt cfg env event = m := by
  rw [handout, h]
  cases m <;> rfl

/-- An event poisons the call that looks at it when another author wrote it, on the channel, with a content that
    decoding raises on. -/
theorem poisons_iff {event : RawBuzzEvent} : Poisons rt cfg env event ↔ cfg.localPubkey ≠ some event.pubkey ∧
    event.kind = WIRE_KIND ∧ channelFromTags event.tags = cfg.channel ∧ Raises (decodeContent rt event.content) := by
  rw [← validateReceivedEvent_raises_iff (env.clock event)]
  unfold Poisons judge
  by_cases hown : cfg.localPubkey = some event.pubkey
  · simp [hown]
  · rw [if_neg hown]
    cases validateReceivedEvent rt event cfg.channel (env.clock event) with
    | ok m => simp
    | error e => cases e <;> simp [hown]

/-- A message handed out was accepted, and is by another author. -/
theorem handout_eq_some_iff {event : RawBuzzEvent} {m : PeerMessage} : handout rt cfg env event = some m ↔
    cfg.localPubkey ≠ some event.pubkey ∧ ∃ message,
      validateReceivedEvent rt event cfg.channel (env.clock event) = .ok message ∧ m = peerMessage event message := by
  unfold handout judge
  by_cases hown : cfg.localPubkey = some event.pubkey
  · simp [hown, Except.toOption]
  · rw [if_neg hown]
    cases validateReceivedEvent rt event cfg.channel (env.clock event) with
    | ok message => simp [hown, Except.toOption, eq_comm]
    | error e => cases e <;> simp [Except.toOption]

/-- A message is handed out under the id of its event. -/
theorem handout_messageId {event : RawBuzzEvent} {m : PeerMessage} (h : handout rt cfg env event = some m) :
    m.messageId = event.id := by
  obtain ⟨_, message, _, rfl⟩ := (handout_eq_some_iff rt cfg env).mp h
  rfl

/-! ## The loop -/

theorem run_receiveLoop_cons (limit : Option Int) (event : RawBuzzEvent) (rest : List RawBuzzEvent)
    (messages : List PeerMessage) (changed : Bool) (seen : Finset String) :
    (receiveLoop rt cfg env limit (event :: rest) messages changed).run seen =
      if event.id ∈ seen then (receiveLoop rt cfg env limit rest messages changed).run seen
      else match judge rt cfg env event with
        | .error e   => ⟨.error (.event e), insert event.id seen, []⟩
        | .ok none   => (receiveLoop rt cfg env limit rest messages true).run (insert event.id seen)
        | .ok (some m) =>
            if limit.any (fun n => n ≤ ((messages ++ [m]).length : Int)) then
              ⟨.ok (messages ++ [m], true), insert event.id seen, []⟩
            else (receiveLoop rt cfg env limit rest (messages ++ [m]) true).run (insert event.id seen) := by
  simp only [receiveLoop, Proc.run_bind, Proc.run_get, Proc.after_nil, Proc.run_ite, Proc.run_modify]
  by_cases hseen : event.id ∈ seen
  · rw [if_pos hseen, if_pos hseen]
  · rw [if_neg hseen, if_neg hseen]
    unfold judge
    by_cases hown : cfg.localPubkey = some event.pubkey
    · rw [if_pos hown, if_pos hown]
    · rw [if_neg hown, if_neg hown]
      cases validateReceivedEvent rt event cfg.channel (env.clock event) with
      | ok message =>
          simp only [Proc.run_ite, Proc.run_pure]
      | error e => cases e <;> rfl

/-- The unseen events. -/
def unseen (events : List RawBuzzEvent) (seen : Finset String) : List RawBuzzEvent :=
  events.filter (fun e => e.id ∉ seen)

/-- The events a call looks at: the unseen ones, until its limit is filled. -/
def reached (quota : Option Nat) (events : List RawBuzzEvent) (seen : Finset String) : List RawBuzzEvent :=
  reach (fun e => (handout rt cfg env e).isSome) quota (unseen events seen)

/-- The ids of some events. -/
def eventIds (events : List RawBuzzEvent) : Finset String := (events.map RawBuzzEvent.id).toFinset

variable {rt : Runtime} {cfg : BuzzConfig} {env : BuzzEnv}

theorem unseen_insert {events : List RawBuzzEvent} {seen : Finset String} {id : String}
    (h : id ∉ events.map RawBuzzEvent.id) : unseen events (insert id seen) = unseen events seen := by
  refine List.filter_congr fun e he => ?_
  have hne : e.id ≠ id := fun heq => h (heq ▸ List.mem_map_of_mem he)
  simp [hne]

theorem unseen_cons_seen {event : RawBuzzEvent} {events : List RawBuzzEvent} {seen : Finset String}
    (h : event.id ∈ seen) : unseen (event :: events) seen = unseen events seen := by
  simp [unseen, h]

theorem unseen_cons_fresh {event : RawBuzzEvent} {events : List RawBuzzEvent} {seen : Finset String}
    (h : event.id ∉ seen) : unseen (event :: events) seen = event :: unseen events seen := by
  simp [unseen, h]

/-- The room a limit leaves after some messages have been collected. -/
def room (limit : Option Int) (messages : List PeerMessage) : Option Nat :=
  limit.map (fun n => (n - (messages.length : Int)).toNat)

/-- A limit is filled by the next message when it has room for one. -/
theorem room_append (limit : Option Int) (messages : List PeerMessage) (m : PeerMessage) :
    room limit (messages ++ [m]) = (room limit messages).map (fun n => n - 1) ∧
      (limit.any (fun n => n ≤ ((messages ++ [m]).length : Int)) = true ↔ room limit (messages ++ [m]) = some 0) := by
  cases limit with
  | none => simp [room]
  | some n =>
      simp only [room, Option.map_some, Option.some.injEq, Option.any_some, decide_eq_true_eq, List.length_append,
        List.length_singleton]
      constructor <;> omega

/-- An unseen event is looked at, and the rest with the room that is left. -/
theorem reached_cons {limit : Option Int} {messages : List PeerMessage} {event : RawBuzzEvent}
    {rest : List RawBuzzEvent} {seen : Finset String} (hseen : event.id ∉ seen)
    (hfresh : event.id ∉ rest.map RawBuzzEvent.id) (hroom : room limit messages ≠ some 0) :
    reached rt cfg env (room limit messages) (event :: rest) seen = event ::
      reached rt cfg env (room limit (messages ++ (handout rt cfg env event).toList)) rest (insert event.id seen) := by
  have hquota : (room limit messages).map (fun n => if (handout rt cfg env event).isSome then n - 1 else n)
      = room limit (messages ++ (handout rt cfg env event).toList) := by
    cases handout rt cfg env event with
    | none   => cases hr : room limit messages <;> simp [hr]
    | some m => exact (room_append _ _ m).1.symm
  unfold reached
  rw [unseen_cons_fresh hseen, reach_cons _ _ hroom, unseen_insert hfresh, hquota]

theorem insert_union_eventIds (seen : Finset String) (event : RawBuzzEvent) (events : List RawBuzzEvent) :
    insert event.id seen ∪ eventIds events = seen ∪ eventIds (event :: events) := by
  unfold eventIds
  rw [List.map_cons, List.toFinset_cons, Finset.insert_union, Finset.union_insert]

/-- What the loop does when nothing it looks at raises. -/
theorem run_receiveLoop {limit : Option Int} {events : List RawBuzzEvent} {messages : List PeerMessage}
    {seen : Finset String} (changed : Bool) (hnd : (events.map RawBuzzEvent.id).Nodup)
    (hroom : room limit messages ≠ some 0)
    (hclean : ∀ e ∈ reached rt cfg env (room limit messages) events seen, ¬ Poisons rt cfg env e) :
    (receiveLoop rt cfg env limit events messages changed).run seen =
      let scan := reached rt cfg env (room limit messages) events seen
      ⟨.ok (messages ++ scan.filterMap (handout rt cfg env), changed || !scan.isEmpty), seen ∪ eventIds scan, []⟩ := by
  induction events generalizing messages seen changed with
  | nil => simp [receiveLoop, reached, unseen, eventIds]
  | cons event rest ih =>
      obtain ⟨hfresh, hnd⟩ := List.nodup_cons.mp hnd
      rw [run_receiveLoop_cons]
      by_cases hseen : event.id ∈ seen
      · rw [if_pos hseen]
        unfold reached at hclean ⊢
        rw [unseen_cons_seen hseen] at hclean ⊢
        exact ih changed hnd hroom hclean
      rw [if_neg hseen]
      rw [reached_cons hseen hfresh hroom] at hclean ⊢
      have hrest := fun e he => hclean e (List.mem_cons_of_mem _ he)
      cases hjudge : judge rt cfg env event with
      | error e => exact absurd ⟨e, hjudge⟩ (hclean event List.mem_cons_self)
      | ok m =>
          have hout := handout_of_judge _ _ _ hjudge
          rw [hout] at hrest ⊢
          cases m with
          | none =>
              rw [Option.toList_none, List.append_nil] at hrest ⊢
              simp only
              rw [ih true hnd hroom hrest]
              simp only [insert_union_eventIds]
              simp [hout]
          | some m =>
              have hfull := (room_append limit messages m).2
              rw [Option.toList_some] at hrest ⊢
              simp only
              by_cases hstop : room limit (messages ++ [m]) = some 0
              · rw [if_pos (hfull.mpr hstop)]
                simp [reached, hstop, hout, eventIds]
              · rw [if_neg (fun h => hstop (hfull.mp h)), ih true hnd hstop hrest]
                simp only [insert_union_eventIds]
                simp [hout]

/-- What the loop does when something it looks at raises. -/
theorem run_receiveLoop_raises {limit : Option Int} {events : List RawBuzzEvent} {messages : List PeerMessage}
    {seen : Finset String} (changed : Bool) (hnd : (events.map RawBuzzEvent.id).Nodup)
    (hroom : room limit messages ≠ some 0)
    (hbad : ∃ e ∈ reached rt cfg env (room limit messages) events seen, Poisons rt cfg env e) :
    ∃ e seen', (receiveLoop rt cfg env limit events messages changed).run seen = ⟨.error (.event e), seen', []⟩ := by
  induction events generalizing messages seen changed with
  | nil => simp [reached, unseen] at hbad
  | cons event rest ih =>
      obtain ⟨hfresh, hnd⟩ := List.nodup_cons.mp hnd
      rw [run_receiveLoop_cons]
      by_cases hseen : event.id ∈ seen
      · rw [if_pos hseen]
        unfold reached at hbad
        rw [unseen_cons_seen hseen] at hbad
        exact ih changed hnd hroom hbad
      rw [if_neg hseen]
      rw [reached_cons hseen hfresh hroom] at hbad
      cases hjudge : judge rt cfg env event with
      | error e => exact ⟨e, _, rfl⟩
      | ok m =>
          -- the event that raises is a later one
          have hlater : ∃ e ∈ reached rt cfg env (room limit (messages ++ m.toList)) rest (insert event.id seen),
              Poisons rt cfg env e := by
            obtain ⟨e, he, hpoison⟩ := hbad
            rw [handout_of_judge _ _ _ hjudge] at he
            rcases List.mem_cons.mp he with rfl | he
            · obtain ⟨x, hx⟩ := hpoison
              rw [hjudge] at hx
              cases hx
            · exact ⟨e, he, hpoison⟩
          cases m with
          | none =>
              rw [Option.toList_none, List.append_nil] at hlater
              exact ih true hnd hroom hlater
          | some m =>
              have hfull := (room_append limit messages m).2
              rw [Option.toList_some] at hlater
              by_cases hstop : room limit (messages ++ [m]) = some 0
              · rw [hstop] at hlater
                simp [reached] at hlater
              · simp only
                rw [if_neg (fun h => hstop (hfull.mp h))]
                exact ih true hnd hstop hlater

/-! ## One call -/

/-- How many messages a call may hand out. -/
def quota (limit : Option Int) : Option Nat := limit.map Int.toNat

/-- The effects of a call that returns. -/
def receiveEffects (cfg : BuzzConfig) (limit : Option Int) (scan : List RawBuzzEvent) (seen : Finset String) :
    List TransportEffect :=
  if limit = some 0 then []
  else .get none :: (if scan ≠ [] ∧ cfg.cursorPath.isSome then [.cursorSave (cursorIds seen)] else [])

theorem run_saveCursor {seen : Finset String} (hsave : env.saveFails = false) :
    (saveCursor cfg env).run seen =
      ⟨.ok (), seen, if cfg.cursorPath.isSome then [.cursorSave (cursorIds seen)] else []⟩ := by
  unfold saveCursor
  cases hpath : cfg.cursorPath with
  | none   => simp
  | some _ => simp [Proc.run_bind, hsave]

/-- A limit that is not negative. -/
theorem limit_any_neg {limit : Option Int} (hlimit : ∀ n, limit = some n → 0 ≤ n) :
    limit.any (fun n => n < 0) = false := by
  cases limit with
  | none => rfl
  | some n =>
      have hn := hlimit n rfl
      simp only [Option.any_some, decide_eq_false_iff_not]
      omega

/-- A limit that is not zero has room at the start. -/
theorem room_nil {limit : Option Int} (hlimit : ∀ n, limit = some n → 0 ≤ n) :
    room limit [] = quota limit ∧ (limit ≠ some 0 → room limit [] ≠ some 0) := by
  cases limit with
  | none => exact ⟨rfl, nofun⟩
  | some n =>
      have hn := hlimit n rfl
      simp only [room, quota, Option.map_some, List.length_nil, Option.some.injEq, ne_eq]
      constructor <;> omega

/-- **What one call does** when nothing it looks at raises and the query and the write succeed. -/
theorem run_receive {limit : Option Int} {events : List RawBuzzEvent} {seen : Finset String}
    (hget : env.get none = .ok events) (hsave : env.saveFails = false) (hnd : (events.map RawBuzzEvent.id).Nodup)
    (hlimit : ∀ n, limit = some n → 0 ≤ n)
    (hclean : ∀ e ∈ reached rt cfg env (quota limit) events seen, ¬ Poisons rt cfg env e) :
    (receive rt cfg env limit).run seen =
      let scan := reached rt cfg env (quota limit) events seen
      ⟨.ok (scan.filterMap (handout rt cfg env)), seen ∪ eventIds scan,
        receiveEffects cfg limit scan (seen ∪ eventIds scan)⟩ := by
  have hneg := limit_any_neg hlimit
  unfold receive receivePeerMessages
  by_cases hzero : limit = some 0
  · subst hzero
    simp [reached, quota, eventIds, receiveEffects]
  · obtain ⟨hquota, hroom⟩ := room_nil hlimit
    rw [← hquota] at hclean ⊢
    have hloop : (receiveLoop rt cfg env limit events [] false).run seen = _ :=
      run_receiveLoop false hnd (hroom hzero) hclean
    simp only [Proc.run_bind, Proc.run_ite, Proc.run_pure, Proc.run_emit, Proc.after_mk, hneg, hzero, hget, hloop,
      if_false, Bool.false_eq_true, receiveEffects]
    generalize reached rt cfg env (room limit []) events seen = scan
    cases scan with
    | nil => simp [eventIds]
    | cons e rest => simp [run_saveCursor hsave]

/-- … and it raises when something it looks at does. -/
theorem run_receive_raises {limit : Option Int} {events : List RawBuzzEvent} {seen : Finset String}
    (hget : env.get none = .ok events) (hnd : (events.map RawBuzzEvent.id).Nodup)
    (hlimit : ∀ n, limit = some n → 0 ≤ n)
    (hbad : ∃ e ∈ reached rt cfg env (quota limit) events seen, Poisons rt cfg env e) :
    ∃ e seen', (receive rt cfg env limit).run seen = ⟨.error (.event e), seen', [.get none]⟩ := by
  have hneg := limit_any_neg hlimit
  have hzero : limit ≠ some 0 := by
    rintro rfl
    simp [reached, quota] at hbad
  obtain ⟨hquota, hroom⟩ := room_nil hlimit
  rw [← hquota] at hbad
  have hraises : ∃ e seen', (receiveLoop rt cfg env limit events [] false).run seen = ⟨.error (.event e), seen', []⟩ :=
    run_receiveLoop_raises false hnd (hroom hzero) hbad
  obtain ⟨e, seen', hloop⟩ := hraises
  refine ⟨e, seen', ?_⟩
  unfold receive receivePeerMessages
  simp only [Proc.run_bind, Proc.run_emit, Proc.after_mk, hneg, hzero, hget, hloop, if_false, Bool.false_eq_true,
    List.append_nil]

/-- A call with a negative limit, or whose query fails, looks at nothing. -/
theorem run_receive_refused {limit : Option Int} {seen : Finset String}
    (h : (∃ n, limit = some n ∧ n < 0) ∨ limit ≠ some 0 ∧ ∃ message, env.get none = .error message) :
    ∃ e es, (receive rt cfg env limit).run seen = ⟨.error e, seen, es⟩ ∧ ∀ w ∈ es, w = .get none := by
  unfold receive receivePeerMessages
  by_cases hneg : limit.any (fun n => n < 0) = true
  · simp only [Proc.run_bind, hneg, if_true, Proc.run_raise]
    exact ⟨_, _, rfl, nofun⟩
  · rcases h with ⟨n, rfl, hn⟩ | ⟨hzero, message, hget⟩
    · exact absurd (decide_eq_true hn) hneg
    · simp only [Proc.run_bind, Proc.run_ite, Proc.run_emit, Proc.after_mk, hneg, hzero, hget, if_false,
        Proc.run_raise]
      exact ⟨_, _, rfl, fun w hw => List.mem_singleton.mp hw⟩

/-! ## What is handed out, over any relay -/

/-- The messages collected by the loop are made of its events. -/
theorem mem_receiveLoop {limit : Option Int} {events : List RawBuzzEvent} {messages ms : List PeerMessage}
    {changed changed' : Bool} {seen : Finset String}
    (h : ((receiveLoop rt cfg env limit events messages changed).run seen).result = .ok (ms, changed')) {m : PeerMessage}
    (hm : m ∈ ms) : m ∈ messages ∨ ∃ event ∈ events, handout rt cfg env event = some m := by
  induction events generalizing messages seen changed with
  | nil =>
      cases h
      exact .inl hm
  | cons event rest ih =>
      have hrest {messages : List PeerMessage} {changed : Bool} {seen : Finset String}
          (h : ((receiveLoop rt cfg env limit rest messages changed).run seen).result = .ok (ms, changed')) :
          m ∈ messages ∨ ∃ event' ∈ event :: rest, handout rt cfg env event' = some m := by
        rcases ih h with hold | ⟨event', he, hout⟩
        · exact .inl hold
        · exact .inr ⟨event', List.mem_cons_of_mem _ he, hout⟩
      have hown (x : PeerMessage) (hx : m ∈ messages ++ [x]) (hjudge : judge rt cfg env event = .ok (some x)) :
          m ∈ messages ∨ ∃ event' ∈ event :: rest, handout rt cfg env event' = some m := by
        rcases List.mem_append.mp hx with hold | hx
        · exact .inl hold
        · rw [List.mem_singleton.mp hx]
          exact .inr ⟨event, List.mem_cons_self, handout_of_judge _ _ _ hjudge⟩
      rw [run_receiveLoop_cons] at h
      split at h
      · exact hrest h
      · cases hjudge : judge rt cfg env event with
        | error e =>
            rw [hjudge] at h
            cases h
        | ok x =>
            rw [hjudge] at h
            cases x with
            | none => exact hrest h
            | some x =>
                simp only at h
                split at h
                · cases h
                  exact hown x hm hjudge
                · rcases hrest h with hx | hlater
                  · exact hown x hx hjudge
                  · exact .inr hlater

/-- **Whatever a call returns was handed out** for an event the relay answered. -/
theorem mem_receive {limit : Option Int} {ms : List PeerMessage} {seen : Finset String}
    (h : ((receive rt cfg env limit).run seen).result = .ok ms) {m : PeerMessage} (hm : m ∈ ms) :
    ∃ events, env.get none = .ok events ∧ ∃ event ∈ events, handout rt cfg env event = some m := by
  unfold receive receivePeerMessages at h
  simp only [Proc.run_bind, Proc.run_ite, Proc.run_pure, Proc.run_emit] at h
  split at h
  · cases h
  · split at h
    · cases h
      cases hm
    · cases hget : env.get none with
      | error e =>
          simp only [hget, Proc.run_raise] at h
          cases h
      | ok events =>
          simp only [hget, Proc.run_bind] at h
          refine ⟨events, rfl, ?_⟩
          rcases hloop : (receiveLoop rt cfg env limit events [] false).run seen with ⟨_ | ⟨ms', changed⟩, seen', es⟩
          · rw [hloop] at h
            cases h
          · rw [hloop] at h
            have hms : ms' = ms := by
              simp only [Proc.after] at h
              split at h
              · rw [Proc.run_bind] at h
                rcases hsave : (saveCursor cfg env).run seen' with ⟨_ | _, seen'', es'⟩
                · rw [hsave] at h
                  cases h
                · rw [hsave] at h
                  cases h
                  rfl
              · cases h
                rfl
            subst hms
            rcases mem_receiveLoop (by rw [hloop]) hm with hnil | hmade
            · cases hnil
            · exact hmade

end BuzzTransport

/-! ## A small channel -/

namespace Sample

def buzz : BuzzConfig := ⟨"channel", none, none, by decide⟩

/-- A channel event with some content, written by the sample party. -/
def event (id content : String) : RawBuzzEvent := ⟨id, party.pubkey, WIRE_KIND, content, [["h", "channel"]], 0⟩

/-- The event that carries the sample intent under an intent id. -/
def intentEvent (eventId intentId : String) : RawBuzzEvent :=
  event eventId (encodeContent (.intent (intent intentId 100)))

theorem validate_intentEvent (eventId intentId : String) :
    validateReceivedEvent runtime (intentEvent eventId intentId) "channel" 0 = .ok (.intent (intent intentId 100)) :=
  validateReceivedEvent_eq_ok_iff.mpr
    ⟨rfl, rfl, decodeContent_encodeContent runtime_readsIntegers rfl, rfl, rfl⟩

end Sample

end HermesPayments
