import HermesPayments.Transport.Correctness.Delivery
import HermesPayments.Transport.Endpoint

/-!
# `HermesPayments.Transport.Correctness.CrashDelivery` — delivery across kills and restarts

The cursor file says which events have been looked at, the inbox in the snapshot holds what they brought. The cursor is
replaced first, so a kill between the two replacements leaves events that no later transport looks at and no inbox
holds. In every run without such a kill, and without a `receive` that meets an event decoding raises on, a `receive`
without a limit leaves every valid message of another author in the durable inbox, once (`nothing_lost`).
-/

namespace HermesPayments

open Lib BuzzTransport

section

variable (rt : Runtime) (buzz : BuzzConfig)

/-! ## The rule and the conditions -/

/-- The durable inbox holds the message of an event, once. -/
def World.Holds (w : World) (event : RawBuzzEvent) : Prop :=
  ∃ message, decodeContent rt event.content = .ok message ∧
    w.inbox.filter (fun m => m.messageId = event.id) = [peerMessage event message]

/-- Nothing is lost: after a `receive` without a limit, whose query is answered, every event of another author that is
    valid when the `receive` reads the clock is in the durable inbox, once. -/
def NothingLost (h : List (Event Endpoint EndpointEvent)) : Prop :=
  ∀ e ∈ h, ∀ env result, e.seen = .handled env (.ok (.receive none)) result → env.buzz.get none = .ok e.before.relay →
    ∀ event ∈ e.after.relay, Deliverable rt buzz event (env.buzz.clock event) = true → e.after.disk.world.Holds rt event

/-- The events a `receive` looks at. -/
def scannedIn (c : Endpoint) (env : EndpointEnv) (limit : Option Int) (event : RawBuzzEvent) : Prop :=
  ∃ s seen, c.proc = some (s, seen) ∧ env.buzz.get none = .ok c.relay ∧
    event ∈ reached rt buzz env.buzz (quota limit) c.relay seen

/-- A `receive` that is not cut short looks at an event that decoding raises on. -/
def PoisonedReceive (e : Event Endpoint EndpointEvent) : Prop :=
  ∃ env limit result event, e.seen = .handled env (.ok (.receive limit)) result ∧ scannedIn rt buzz e.before env limit event ∧
    buzz.localPubkey ≠ some event.pubkey ∧ event.kind = WIRE_KIND ∧ channelFromTags event.tags = buzz.channel ∧
      (rt.limit event.content = some .recursionError ∨
        ∃ data, jsonLoads rt event.content = .ok data ∧ UnhashableType data)

/-- A kill lands after a `receive` has replaced the cursor file and before it replaces the snapshot, and an event it
    looked at is valid and not yet in the durable inbox. -/
def KilledBetween (e : Event Endpoint EndpointEvent) : Prop :=
  ∃ env limit performed event, e.seen = .killed env (.ok (.receive limit)) performed ∧
    (∃ ids, .transport (.cursorSave ids) ∈ performed) ∧ (∀ content, .process (.snapshotSave content) ∉ performed) ∧
      scannedIn rt buzz e.before env limit event ∧ Deliverable rt buzz event (env.buzz.clock event) = true ∧
        event.id ∉ e.before.disk.world.inbox.map PeerMessage.messageId

end

section

variable {rt : Runtime} {buzz : BuzzConfig} {config : ProcessConfig}

/-! ## Time -/

theorem PaymentMessage.expired_of_le {m : PaymentMessage} {now now' : Int} (h : m.expired now' = false) (hle : now ≤ now') :
    m.expired now = false := by
  unfold PaymentMessage.expired at h ⊢
  cases hexp : m.expiresAt? with
  | none => rfl
  | some expiresAt =>
      rw [hexp] at h
      simp only [Option.any_some, decide_eq_false_iff_not] at h ⊢
      intro hlate
      exact h ⟨hlate.1, by omega⟩

/-- What is valid later was valid before. -/
theorem deliverable_of_le {event : RawBuzzEvent} {now now' : Int} (h : Deliverable rt buzz event now' = true)
    (hle : now ≤ now') : Deliverable rt buzz event now = true := by
  simp only [Deliverable, Bool.and_eq_true, decide_eq_true_eq] at h ⊢
  obtain ⟨hown, hok⟩ := h
  refine ⟨hown, ?_⟩
  cases hvalid : validateReceivedEvent rt event buzz.channel now' with
  | error e =>
      rw [hvalid] at hok
      cases hok
  | ok message =>
      obtain ⟨hkind, hchannel, hdecode, hexp, hauthor⟩ := validateReceivedEvent_eq_ok_iff.mp hvalid
      have hvalid' : validateReceivedEvent rt event buzz.channel now = .ok message :=
        validateReceivedEvent_eq_ok_iff.mpr
          ⟨hkind, hchannel, hdecode, PaymentMessage.expired_of_le hexp hle, hauthor⟩
      rw [hvalid']
      rfl

/-! ## The invariant -/

/-- The ids are ids of the relay's events, and the valid messages among them are in the durable inbox. -/
structure Endpoint.Kept (rt : Runtime) (buzz : BuzzConfig) (c : Endpoint) (ids : Finset String) : Prop where
  onRelay : ids ⊆ eventIds c.relay
  held    : ∀ event ∈ c.relay, Deliverable rt buzz event c.now = true → event.id ∈ ids →
    event.id ∈ c.disk.world.inbox.map PeerMessage.messageId

/-- The inbox holds messages of the relay's events. -/
def FromRelay (rt : Runtime) (relay : List RawBuzzEvent) (messages : List PeerMessage) : Prop :=
  ∀ m ∈ messages, ∃ event ∈ relay, ∃ message, decodeContent rt event.content = .ok message ∧ m = peerMessage event message

/-- The cursor, in the file and in memory, is never ahead of the inbox in the snapshot. -/
structure Endpoint.Tracks (rt : Runtime) (buzz : BuzzConfig) (c : Endpoint) : Prop where
  orderly : c.disk.world.Orderly (c.proc.map Prod.fst)
  nodup   : (c.relay.map RawBuzzEvent.id).Nodup
  relay   : FromRelay rt c.relay c.disk.world.inbox
  cursor  : c.Kept rt buzz (cursorSeen c.disk.cursor)
  memory  : ∀ s seen, c.proc = some (s, seen) → c.Kept rt buzz seen

theorem EndpointInit.tracks {c : Endpoint} (h : EndpointInit c) : c.Tracks rt buzz := by
  obtain ⟨hdisk, hproc, hrelay⟩ := h
  obtain ⟨disk, proc, relay, now⟩ := c
  cases hdisk
  cases hproc
  cases hrelay
  refine ⟨Durable.empty, List.nodup_nil, ?_, ⟨?_, ?_⟩, nofun⟩
  · intro m hm
    cases hm
  · exact Finset.empty_subset _
  · intro event hevent
    cases hevent

/-- Fewer ids, later, with at least the messages. -/
theorem Endpoint.Kept.of_le {c c' : Endpoint} {ids ids' : Finset String} (h : c.Kept rt buzz ids)
    (hrelay : c'.relay = c.relay) (hnow : c.now ≤ c'.now) (hids : ids' ⊆ ids)
    (hinbox : ∀ id ∈ c.disk.world.inbox.map PeerMessage.messageId, id ∈ c'.disk.world.inbox.map PeerMessage.messageId) :
    c'.Kept rt buzz ids' := by
  constructor
  · rw [hrelay]
    exact hids.trans h.onRelay
  · intro event hevent hvalid hid
    rw [hrelay] at hevent
    exact hinbox _ (h.held event hevent (deliverable_of_le hvalid hnow) (hids hid))

/-- What a step keeps that leaves the inbox, the cursor file and the memory of the transport alone. -/
theorem Endpoint.Tracks.of_quiet {c c' : Endpoint} (h : c.Tracks rt buzz) (hrelay : c'.relay = c.relay)
    (hnow : c.now ≤ c'.now) (hinbox : c'.disk.world.inbox = c.disk.world.inbox) (hcursor : c'.disk.cursor = c.disk.cursor)
    (horderly : c'.disk.world.Orderly (c'.proc.map Prod.fst))
    (hmemory : ∀ s' seen, c'.proc = some (s', seen) → seen ⊆ cursorSeen c.disk.cursor ∨ ∃ s, c.proc = some (s, seen)) :
    c'.Tracks rt buzz := by
  have hkeep : ∀ id ∈ c.disk.world.inbox.map PeerMessage.messageId,
      id ∈ c'.disk.world.inbox.map PeerMessage.messageId := by
    rw [hinbox]
    exact fun _ hid => hid
  refine ⟨horderly, ?_, ?_, ?_, ?_⟩
  · rw [hrelay]
    exact h.nodup
  · rw [hrelay, hinbox]
    exact h.relay
  · rw [hcursor]
    exact h.cursor.of_le hrelay hnow (Finset.Subset.refl _) hkeep
  · intro s' seen hproc
    rcases hmemory s' seen hproc with hfile | ⟨s, hold⟩
    · exact h.cursor.of_le hrelay hnow hfile hkeep
    · exact (h.memory s seen hold).of_le hrelay hnow (Finset.Subset.refl _) hkeep

/-- New events have new ids. -/
theorem Endpoint.Tracks.published {c : Endpoint} (h : c.Tracks rt buzz) (events : List RawBuzzEvent)
    (hnd : ((c.relay ++ events).map RawBuzzEvent.id).Nodup) :
    Endpoint.Tracks rt buzz { c with relay := c.relay ++ events } := by
  have hkept {ids : Finset String} (hk : c.Kept rt buzz ids) :
      Endpoint.Kept rt buzz { c with relay := c.relay ++ events } ids := by
    constructor
    · intro id hid
      have hold := mem_eventIds.mp (hk.onRelay hid)
      refine mem_eventIds.mpr ?_
      rw [List.map_append]
      exact List.mem_append_left _ hold
    · intro event hevent hvalid hid
      rcases List.mem_append.mp hevent with hold | hnew
      · exact hk.held event hold hvalid hid
      · -- its id would be on the relay twice
        rw [List.map_append] at hnd
        have hold := mem_eventIds.mp (hk.onRelay hid)
        exact absurd rfl ((List.nodup_append.mp hnd).2.2 _ hold _ (List.mem_map_of_mem hnew))
  refine ⟨h.orderly, hnd, ?_, hkept h.cursor, fun s seen hproc => hkept (h.memory s seen hproc)⟩
  intro m hm
  obtain ⟨event, hevent, hrest⟩ := h.relay m hm
  exact ⟨event, List.mem_append_left _ hevent, hrest⟩

/-! ## Commands that are no `receive` -/

theorem transportRun_other {env : EndpointEnv} {seen : Finset String} {parsed : Except Exc Command}
    (hother : ∀ limit, parsed ≠ .ok (.receive limit)) : transportRun rt buzz env seen parsed = (seen, []) := by
  cases parsed with
  | error e => rfl
  | ok command =>
      cases command with
      | receive limit => exact absurd rfl (hother limit)
      | _ => rfl

variable (rt buzz config) in
/-- A command that is no `receive` leaves the inbox and the cursor file alone, wherever it is cut short. -/
theorem handleOver_other (d : Disk) (env : EndpointEnv) {s : ProcessState} (seen : Finset String)
    {parsed : Except Exc Command} (hother : ∀ limit, parsed ≠ .ok (.receive limit))
    (horderly : d.world.Orderly (some s)) (k : Nat) :
    (d.after ((handleOver rt buzz config env (s, seen) parsed).effects.take k)).world.inbox = d.world.inbox ∧
      (d.after ((handleOver rt buzz config env (s, seen) parsed).effects.take k)).cursor = d.cursor := by
  have heffects : (handleOver rt buzz config env (s, seen) parsed).effects =
      interleave [] (s.handle config (env.over rt buzz seen) parsed).effects := by
    unfold handleOver
    rw [transportRun_other hother]
  rw [heffects]
  constructor
  · obtain ⟨j, hj⟩ := after_interleave_take (d := d) [] (s.handle config (env.over rt buzz seen) parsed).effects k
    rw [hj]
    exact (mail_handleLine config (env.over rt buzz seen) horderly.nodup parsed hother s d.world horderly.mail).1 j
  · exact cursor_interleave_nil _ k

/-! ## `receive` -/

/-- What a `receive` makes of the transport: nothing comes of it, or it brings the messages of the events it looked
    at. Only an event that decoding raises on makes it forget what it has looked at. -/
theorem receive_cases {env : BuzzEnv} {relay : List RawBuzzEvent} (hget : env.get none = .ok relay ∨
      ∃ message, env.get none = .error message) (hsave : env.saveFails = false)
    (hnd : (relay.map RawBuzzEvent.id).Nodup) (limit : Option Int) (seen : Finset String) :
    let out := (BuzzTransport.receive rt buzz env limit).run seen
    let scan := reached rt buzz env (quota limit) relay seen
    (out.result.toOption.getD [] = [] ∧ (∀ w ∈ out.effects, w = .get none) ∧
        (out.state = seen ∧ ¬ (env.get none = .ok relay ∧ limit = none) ∨
          env.get none = .ok relay ∧ ∃ event ∈ scan, Poisons rt buzz env event)) ∨
      env.get none = .ok relay ∧ (∀ event ∈ scan, ¬ Poisons rt buzz env event) ∧
        out = ⟨.ok (scan.filterMap (handout rt buzz env)), seen ∪ eventIds scan,
          receiveEffects buzz limit scan (seen ∪ eventIds scan)⟩ := by
  intro out scan
  have hrefused (h : (∃ n, limit = some n ∧ n < 0) ∨ limit ≠ some 0 ∧ ∃ message, env.get none = .error message) :
      out.result.toOption.getD [] = [] ∧ (∀ w ∈ out.effects, w = .get none) ∧ out.state = seen := by
    obtain ⟨e, es, hrun, hes⟩ : ∃ e es, out = ⟨.error e, seen, es⟩ ∧ ∀ w ∈ es, w = .get none := run_receive_refused h
    rw [hrun]
    exact ⟨rfl, hes, rfl⟩
  by_cases hneg : ∃ n, limit = some n ∧ n < 0
  · obtain ⟨hresult, heffects, hstate⟩ := hrefused (.inl hneg)
    refine .inl ⟨hresult, heffects, .inl ⟨hstate, ?_⟩⟩
    rintro ⟨_, rfl⟩
    obtain ⟨n, hn, _⟩ := hneg
    cases hn
  have hlimit : ∀ n, limit = some n → 0 ≤ n := by
    intro n hn
    by_contra hlt
    exact hneg ⟨n, hn, by omega⟩
  rcases hget with hget | hfail
  · by_cases hbad : ∃ event ∈ scan, Poisons rt buzz env event
    · left
      obtain ⟨e, seen', hrun⟩ : ∃ e seen', out = ⟨.error (.event e), seen', [.get none]⟩ :=
        run_receive_raises hget hnd hlimit hbad
      rw [hrun]
      exact ⟨rfl, fun w hw => List.mem_singleton.mp hw, .inr ⟨hget, hbad⟩⟩
    · right
      have hclean : ∀ event ∈ scan, ¬ Poisons rt buzz env event := fun event he hp => hbad ⟨event, he, hp⟩
      exact ⟨hget, hclean, run_receive hget hsave hnd hlimit hclean⟩
  · left
    have hunanswered : ¬ (env.get none = .ok relay ∧ limit = none) := by
      rintro ⟨hget, _⟩
      obtain ⟨message, hmessage⟩ := hfail
      rw [hmessage] at hget
      cases hget
    by_cases hzero : limit = some 0
    · subst hzero
      have hrun : out = ⟨.ok [], seen, []⟩ := rfl
      rw [hrun]
      exact ⟨rfl, nofun, .inl ⟨rfl, hunanswered⟩⟩
    · obtain ⟨hresult, heffects, hstate⟩ := hrefused (.inr ⟨hzero, hfail⟩)
      exact ⟨hresult, heffects, .inl ⟨hstate, hunanswered⟩⟩

/-- The effects of a `receive`: what the transport does, then the replacement of the snapshot. -/
def receiving (es : List TransportEffect) (snap : ProcessSnapshot) : List EndpointEffect :=
  es.map .transport ++ [.process (.snapshotSave snap)]

variable (rt buzz config) in
/-- What a command that is a `receive` does: the effects of the transport, then the snapshot with the new inbox. -/
theorem handleOver_receive (env : EndpointEnv) (s : ProcessState) (seen : Finset String) (limit : Option Int) :
    let out := (BuzzTransport.receive rt buzz env.buzz limit).run seen
    ∃ result, ∃ s' : ProcessState, s'.inbox = s.inbox.afterReceive (out.result.mapError TransportExc.toExc) ∧
      handleOver rt buzz config env (s, seen) (.ok (.receive limit)) = ⟨result, ({ s' with file := some s'.snapshot },
        out.state), receiving out.effects s'.snapshot⟩ := by
  intro out
  obtain ⟨result, hrun⟩ := run_receiveLine config (env.over rt buzz seen) limit s
  refine ⟨result, { s with inbox := s.inbox.afterReceive (out.result.mapError TransportExc.toExc) }, rfl, ?_⟩
  unfold handleOver
  rw [hrun]
  rfl

theorem afterReceive_nothing {i : Inbox} {r : Except TransportExc (List PeerMessage)}
    (h : r.toOption.getD [] = []) : i.afterReceive (r.mapError TransportExc.toExc) = i := by
  cases r with
  | error e => rfl
  | ok ms =>
      have hnil : ms = [] := h
      subst hnil
      rfl

/-- What a kill leaves of a `receive`: a part of what the transport does, or everything. -/
theorem take_receiving (es : List TransportEffect) (snap : ProcessSnapshot) (k : Nat) :
    (receiving es snap).take k = (es.take k).map .transport ∨ (receiving es snap).take k = receiving es snap := by
  unfold receiving
  by_cases hk : k ≤ es.length
  · left
    rw [List.take_append_of_le_length (by rwa [List.length_map]), List.map_take]
  · right
    refine List.take_of_length_le ?_
    rw [List.length_append, List.length_map, List.length_singleton]
    omega

/-- The files after a `receive`: the inbox of the new snapshot, and the cursor of the transport. -/
theorem inbox_after_receiving (d : Disk) (es : List TransportEffect) (snap : ProcessSnapshot) :
    (d.after (receiving es snap)).world.inbox = snap.inbox := by
  rw [receiving, Disk.after, applyAll_append]
  rfl

theorem cursor_after_receiving (d : Disk) (es : List TransportEffect) (snap : ProcessSnapshot) :
    (d.after (receiving es snap)).cursor = (d.after (es.map .transport)).cursor := by
  rw [receiving, Disk.after, applyAll_append]
  rfl

theorem mem_cursorIds {seen : Finset String} {id : String} (h : id ∈ cursorSeen (some (cursorIds seen))) : id ∈ seen := by
  rw [cursorSeen, Option.getD_some, List.mem_toFinset, cursorIds] at h
  have hsorted : id ∈ seen.sort (· ≤ ·) := List.drop_subset _ _ h
  rwa [Finset.mem_sort] at hsorted

/-- **What a `receive` has looked at and the inbox holds**: the valid events among those seen before, and among those
    it looked at. -/
theorem Endpoint.Kept.scan {c : Endpoint} {seen : Finset String} (hk : c.Kept rt buzz seen)
    (hnd : (c.relay.map RawBuzzEvent.id).Nodup) {clock : RawBuzzEvent → Int} (htime : ∀ event, c.now ≤ clock event)
    {scan : List RawBuzzEvent} (hscan : ∀ e ∈ scan, e ∈ c.relay) {ids : List String}
    (hold : ∀ id ∈ c.disk.world.inbox.map PeerMessage.messageId, id ∈ ids)
    (hnew : ∀ e ∈ scan, Deliverable rt buzz e (clock e) = true → e.id ∈ ids) {event : RawBuzzEvent}
    (hevent : event ∈ c.relay) (hvalid : Deliverable rt buzz event (clock event) = true)
    (hid : event.id ∈ seen ∪ eventIds scan) : event.id ∈ ids := by
  rcases Finset.mem_union.mp hid with hseen | hmark
  · exact hold _ (hk.held event hevent (deliverable_of_le hvalid (htime event)) hseen)
  · obtain ⟨e, he, heq⟩ := List.mem_map.mp (mem_eventIds.mp hmark)
    have hsame : e = event := List.inj_on_of_nodup_map hnd (hscan e he) hevent heq
    rw [hsame] at he
    exact hnew event he hvalid

/-- A `receive` that brings nothing leaves the inbox and the cursor file alone, wherever it is cut short. -/
theorem after_nothing {d : Disk} {es : List TransportEffect} {snap : ProcessSnapshot} (hes : ∀ w ∈ es, w = .get none)
    (hinbox : snap.inbox = d.world.inbox) (k : Nat) :
    (d.after ((receiving es snap).take k)).world.inbox = d.world.inbox ∧
      (d.after ((receiving es snap).take k)).cursor = d.cursor := by
  have hpart (xs : List TransportEffect) (hxs : ∀ w ∈ xs, w = .get none) : d.after (xs.map .transport) = d := by
    induction xs with
    | nil => rfl
    | cons x xs ih =>
        obtain rfl := hxs x List.mem_cons_self
        exact ih fun w hw => hxs w (List.mem_cons_of_mem _ hw)
  rcases take_receiving es snap k with htake | htake
  · rw [htake, hpart _ fun w hw => hes w (List.mem_of_mem_take hw)]
    exact ⟨rfl, rfl⟩
  · rw [htake, inbox_after_receiving, cursor_after_receiving, hpart es hes]
    exact ⟨hinbox, rfl⟩

/-- What a `receive` brings: it has looked at events of the relay, and the inbox it leaves holds what it held and the
    messages of those that are valid. -/
theorem takeIn_scan {env : BuzzEnv} {relay scan : List RawBuzzEvent} (hscan : ∀ e ∈ scan, e ∈ relay) {i : Inbox}
    (hfrom : FromRelay rt relay i.messages) :
    let i' := (i.takeIn (scan.filterMap (handout rt buzz env))).1
    (∀ id ∈ i.messages.map PeerMessage.messageId, id ∈ i'.messages.map PeerMessage.messageId) ∧
      (∀ e ∈ scan, Deliverable rt buzz e (env.clock e) = true → e.id ∈ i'.messages.map PeerMessage.messageId) ∧
        FromRelay rt relay i'.messages := by
  intro i'
  obtain ⟨hkeep, hall, honly⟩ := i.takeIn_spec (scan.filterMap (handout rt buzz env))
  refine ⟨?_, ?_, ?_⟩
  · intro id hid
    obtain ⟨m, hm, rfl⟩ := List.mem_map.mp hid
    exact List.mem_map_of_mem (hkeep m hm)
  · intro e he hvalid
    rw [← handout_isSome_iff] at hvalid
    obtain ⟨m, hm⟩ := Option.isSome_iff_exists.mp hvalid
    rw [← handout_messageId rt buzz env hm]
    exact hall m (List.mem_filterMap.mpr ⟨e, he, hm⟩)
  · intro m hm
    rcases honly m hm with hold | hnew
    · exact hfrom m hold
    · obtain ⟨e, he, hout⟩ := List.mem_filterMap.mp hnew
      obtain ⟨_, message, hvalid, rfl⟩ := (handout_eq_some_iff rt buzz env).mp hout
      exact ⟨e, hscan e he, message, (validateReceivedEvent_eq_ok_iff.mp hvalid).2.2.1, rfl⟩

theorem mem_receiveEffects {limit : Option Int} {scan : List RawBuzzEvent} {seen : Finset String} {ids : List String}
    (h : .cursorSave ids ∈ receiveEffects buzz limit scan seen) : ids = cursorIds seen := by
  unfold receiveEffects at h
  split at h
  · cases h
  · rcases List.mem_cons.mp h with h | h
    · cases h
    · split at h
      · have heq := List.mem_singleton.mp h
        injection heq
      · cases h

variable (buzz) in
/-- The cursor file after a `receive`, or after a part of what the transport does. -/
theorem cursor_after_receiveEffects (d : Disk) (limit : Option Int) (scan : List RawBuzzEvent) (seen : Finset String)
    (k : Nat) : let d' := d.after (((receiveEffects buzz limit scan seen).take k).map .transport)
      d'.cursor = d.cursor ∨
        d'.cursor = some (cursorIds seen) ∧ .cursorSave (cursorIds seen) ∈ (receiveEffects buzz limit scan seen).take k :=
  cursor_transport _ fun _ h => mem_receiveEffects (List.mem_of_mem_take h)

theorem cursor_of_received (d : Disk) (limit : Option Int) (scan : List RawBuzzEvent) (seen : Finset String)
    (snap : ProcessSnapshot) : let d' := d.after (receiving (receiveEffects buzz limit scan seen) snap)
      d'.cursor = d.cursor ∨ d'.cursor = some (cursorIds seen) := by
  intro d'
  have hcursor : d'.cursor = _ := cursor_after_receiving d _ snap
  rw [hcursor]
  exact (cursor_transport _ fun _ h => mem_receiveEffects h).imp_right And.left

theorem mem_relay_of_reached {env : BuzzEnv} {quota : Option Nat} {relay : List RawBuzzEvent} {seen : Finset String}
    {e : RawBuzzEvent} (he : e ∈ reached rt buzz env quota relay seen) : e ∈ relay := by
  have hunseen : e ∈ unseen relay seen := (prefix_reach _ _ _).subset he
  exact List.mem_of_mem_filter hunseen

/-- … so the ids it leaves are kept, if the inbox it leaves holds those messages. -/
theorem Endpoint.Kept.scanned {c c' : Endpoint} {seen ids : Finset String} (hk : c.Kept rt buzz seen)
    (hnd : (c.relay.map RawBuzzEvent.id).Nodup) {env : EndpointEnv} (htime : env.During c.now c'.now)
    (hrelay : c'.relay = c.relay) {scan : List RawBuzzEvent} (hscan : ∀ e ∈ scan, e ∈ c.relay)
    (hold : ∀ id ∈ c.disk.world.inbox.map PeerMessage.messageId, id ∈ c'.disk.world.inbox.map PeerMessage.messageId)
    (hnew : ∀ e ∈ scan, Deliverable rt buzz e (env.buzz.clock e) = true →
      e.id ∈ c'.disk.world.inbox.map PeerMessage.messageId)
    (hids : ids ⊆ seen ∪ eventIds scan) : c'.Kept rt buzz ids := by
  constructor
  · intro id hid
    rw [hrelay]
    rcases Finset.mem_union.mp (hids hid) with hseen | hmark
    · exact hk.onRelay hseen
    · obtain ⟨e, he, rfl⟩ := List.mem_map.mp (mem_eventIds.mp hmark)
      exact mem_eventIds.mpr (List.mem_map_of_mem (hscan e he))
  · intro event hevent hvalid hid
    rw [hrelay] at hevent
    have hread := deliverable_of_le hvalid (htime.2 event).2
    exact hk.scan hnd (fun e => (htime.2 e).1) hscan hold hnew hevent hread (hids hid)

section

variable {d : Disk} {s : ProcessState} {seen : Finset String} {relay : List RawBuzzEvent} {now now' : Int}
  {env : EndpointEnv} {limit : Option Int}

/-- The inbox of a process between two commands is the durable one. -/
theorem Endpoint.Tracks.inbox (h : Endpoint.Tracks rt buzz ⟨d, some (s, seen), relay, now⟩) :
    s.inbox.messages = d.world.inbox := (World.Orderly.mail h.orderly).memory

/-- What the inbox of a process holds after it has taken in the messages of events of the relay. -/
theorem Endpoint.Tracks.takeIn (h : Endpoint.Tracks rt buzz ⟨d, some (s, seen), relay, now⟩) (env : EndpointEnv)
    {scan : List RawBuzzEvent} (hscan : ∀ e ∈ scan, e ∈ relay) :
    let inbox := (s.inbox.takeIn (scan.filterMap (handout rt buzz env.buzz))).1.messages
    (∀ id ∈ d.world.inbox.map PeerMessage.messageId, id ∈ inbox.map PeerMessage.messageId) ∧
      (∀ e ∈ scan, Deliverable rt buzz e (env.buzz.clock e) = true → e.id ∈ inbox.map PeerMessage.messageId) ∧
        FromRelay rt relay inbox := by
  have hfrom : FromRelay rt relay s.inbox.messages := by
    rw [h.inbox]
    exact h.relay
  rw [← h.inbox]
  exact takeIn_scan hscan hfrom

/-- **The cursor stays behind the inbox** when the inbox holds the messages of the events looked at. -/
theorem Endpoint.Tracks.scanned {c c' : Endpoint} (h : c.Tracks rt buzz) {s : ProcessState} {seen : Finset String}
    (hproc : c.proc = some (s, seen)) (htime : env.During c.now c'.now) (hrelay : c'.relay = c.relay)
    {scan : List RawBuzzEvent} (hscan : ∀ e ∈ scan, e ∈ c.relay)
    (hold : ∀ id ∈ c.disk.world.inbox.map PeerMessage.messageId, id ∈ c'.disk.world.inbox.map PeerMessage.messageId)
    (hnew : ∀ e ∈ scan, Deliverable rt buzz e (env.buzz.clock e) = true →
      e.id ∈ c'.disk.world.inbox.map PeerMessage.messageId)
    (hfrom : FromRelay rt c.relay c'.disk.world.inbox)
    (hcursor : c'.disk.cursor = c.disk.cursor ∨ c'.disk.cursor = some (cursorIds (seen ∪ eventIds scan)))
    (horderly : c'.disk.world.Orderly (c'.proc.map Prod.fst))
    (hmemory : ∀ s₁ seen₁, c'.proc = some (s₁, seen₁) → seen₁ ⊆ seen ∪ eventIds scan) : c'.Tracks rt buzz := by
  have hknown := h.memory s seen hproc
  have hkept {ids : Finset String} (hids : ids ⊆ seen ∪ eventIds scan) : c'.Kept rt buzz ids :=
    hknown.scanned h.nodup htime hrelay hscan hold hnew hids
  refine ⟨horderly, ?_, ?_, ?_, fun s₁ seen₁ hproc => hkept (hmemory s₁ seen₁ hproc)⟩
  · rw [hrelay]
    exact h.nodup
  · rw [hrelay]
    exact hfrom
  · rcases hcursor with hsame | hsaved
    · rw [hsame]
      exact h.cursor.of_le hrelay htime.1 (Finset.Subset.refl _) hold
    · rw [hsaved]
      exact hkept fun id => mem_cursorIds

theorem Endpoint.Tracks.orderly_handled (h : Endpoint.Tracks rt buzz ⟨d, some (s, seen), relay, now⟩)
    (parsed : Except Exc Command) :
    (d.after (handleOver rt buzz config env (s, seen) parsed).effects).world.Orderly
      (some (handleOver rt buzz config env (s, seen) parsed).state.1) := by
  have hworld : d.world.Orderly (some s) := h.orderly
  unfold handleOver
  simp only
  rw [after_interleave]
  exact hworld.handled _ parsed

variable (config env) in
theorem Endpoint.Tracks.orderly_killed (h : Endpoint.Tracks rt buzz ⟨d, some (s, seen), relay, now⟩)
    (parsed : Except Exc Command) (k : Nat) (left : Remnant) :
    (d.cut (handleOver rt buzz config env (s, seen) parsed).effects k left).world.Orderly none := by
  have hworld : d.world.Orderly (some s) := h.orderly
  obtain ⟨j, hj⟩ := after_interleave_take (d := d) (transportRun rt buzz env seen parsed).2
    (s.handle config (env.over rt buzz seen) parsed).effects k
  obtain ⟨audit, hcut⟩ := d.cut_eq (handleOver rt buzz config env (s, seen) parsed).effects k left
  have hkilled := hworld.killed config (env.over rt buzz seen) parsed j audit
  rw [← hj] at hkilled
  rw [hcut]
  exact hkilled

/-- **A `receive`** that looks at no poison: the cursor stays behind the inbox, and without a limit every valid message
    is in it. -/
theorem Endpoint.Tracks.receive (h : Endpoint.Tracks rt buzz ⟨d, some (s, seen), relay, now⟩)
    (hreads : env.Reads relay) (htime : env.During now now')
    (hclean : ¬ (env.buzz.get none = .ok relay ∧
      ∃ event ∈ reached rt buzz env.buzz (quota limit) relay seen, Poisons rt buzz env.buzz event)) :
    let out := handleOver rt buzz config env (s, seen) (.ok (.receive limit))
    Endpoint.Tracks rt buzz ⟨d.after out.effects, some out.state, relay, now'⟩ ∧
      (env.buzz.get none = .ok relay → limit = none → ∀ event ∈ relay,
        Deliverable rt buzz event (env.buzz.clock event) = true →
          event.id ∈ (d.after out.effects).world.inbox.map PeerMessage.messageId) := by
  intro out
  have horderly : (d.after out.effects).world.Orderly (some out.state.1) := h.orderly_handled (.ok (.receive limit))
  obtain ⟨result, s', hinbox, hrun⟩ : ∃ result, ∃ s' : ProcessState, _ ∧ out = _ :=
    handleOver_receive rt buzz config env s seen limit
  rcases receive_cases hreads.1 hreads.2 h.nodup limit seen with ⟨hresult, hes, hstate⟩ | ⟨hget, _, hok⟩
  · -- nothing comes of it
    obtain ⟨hstate, hunread⟩ := hstate.resolve_right hclean
    have hsaved : s'.snapshot.inbox = d.world.inbox := by
      show s'.inbox.messages = d.world.inbox
      rw [hinbox, afterReceive_nothing hresult]
      exact h.inbox
    obtain ⟨hworld, hcursor⟩ := after_nothing (d := d) hes hsaved (receiving _ s'.snapshot).length
    rw [List.take_length] at hworld hcursor
    rw [hrun] at horderly ⊢
    refine ⟨h.of_quiet rfl htime.1 hworld hcursor horderly ?_, fun hget hnone => absurd ⟨hget, hnone⟩ hunread⟩
    rintro s₁ seen₁ ⟨rfl, rfl⟩
    exact .inr ⟨s, by rw [hstate]⟩
  · -- it brings the messages of what it looked at
    rw [hok] at hinbox hrun
    have hscan : ∀ e ∈ reached rt buzz env.buzz (quota limit) relay seen, e ∈ relay := fun e he => mem_relay_of_reached he
    have hworld : (d.after out.effects).world.inbox = s'.inbox.messages := by
      rw [hrun]
      exact inbox_after_receiving d _ s'.snapshot
    rw [hinbox] at hworld
    obtain ⟨hold, hnew, hfrom⟩ := h.takeIn env hscan
    constructor
    · refine h.scanned rfl htime rfl hscan (hworld ▸ hold) (hworld ▸ hnew) (hworld ▸ hfrom) ?_ horderly ?_
      · show (d.after out.effects).cursor = d.cursor ∨ (d.after out.effects).cursor = _
        rw [hrun]
        exact cursor_of_received d limit _ _ _
      · rw [hrun]
        rintro s₁ seen₁ ⟨rfl, rfl⟩
        exact Finset.Subset.refl _
    · rintro - rfl event hevent hvalid
      have hknown := h.memory s seen rfl
      rw [hworld]
      refine hknown.scan h.nodup (fun e => (htime.2 e).1) hscan hold hnew hevent hvalid ?_
      -- without a limit it has looked at everything
      by_cases hseen : event.id ∈ seen
      · exact Finset.mem_union_left _ hseen
      · refine Finset.mem_union_right _ (mem_eventIds.mpr (List.mem_map_of_mem ?_))
        show event ∈ unseen relay seen
        exact List.mem_filter.mpr ⟨hevent, by simpa using hseen⟩

/-- **A `receive` that is cut short**, not between the two replacements: the cursor stays behind the inbox. -/
theorem Endpoint.Tracks.receiveKilled (h : Endpoint.Tracks rt buzz ⟨d, some (s, seen), relay, now⟩)
    (hreads : env.Reads relay) (htime : env.During now now') (k : Nat) (left : Remnant) {c' : Endpoint}
    (hbetween : ¬ KilledBetween rt buzz ⟨⟨d, some (s, seen), relay, now⟩, .killed env (.ok (.receive limit))
      ((handleOver rt buzz config env (s, seen) (.ok (.receive limit))).effects.take k), c'⟩) :
    Endpoint.Tracks rt buzz
      ⟨d.cut (handleOver rt buzz config env (s, seen) (.ok (.receive limit))).effects k left, none, relay, now'⟩ := by
  have horderly := h.orderly_killed config env (.ok (.receive limit)) k left
  obtain ⟨audit, hcut⟩ := d.cut_eq (handleOver rt buzz config env (s, seen) (.ok (.receive limit))).effects k left
  rw [hcut] at horderly ⊢
  obtain ⟨result, s', hinbox, hrun⟩ := handleOver_receive rt buzz config env s seen limit
  rw [hrun] at hbetween horderly ⊢
  rcases receive_cases hreads.1 hreads.2 h.nodup limit seen with ⟨hresult, hes, _⟩ | ⟨hget, _, hok⟩
  · -- nothing comes of it
    have hsaved : s'.snapshot.inbox = d.world.inbox := by
      show s'.inbox.messages = d.world.inbox
      rw [hinbox, afterReceive_nothing hresult]
      exact h.inbox
    obtain ⟨hworld, hcursor⟩ := after_nothing (d := d) hes hsaved k
    exact h.of_quiet rfl htime.1 hworld hcursor horderly nofun
  rw [hok] at hinbox hbetween horderly ⊢
  have hscan : ∀ e ∈ reached rt buzz env.buzz (quota limit) relay seen, e ∈ relay := fun e he => mem_relay_of_reached he
  generalize hscanned : reached rt buzz env.buzz (quota limit) relay seen = scan at *
  simp only at hinbox hbetween horderly ⊢
  rcases take_receiving (receiveEffects buzz limit scan (seen ∪ eventIds scan)) s'.snapshot k with hpart | hall
  · -- the snapshot is the old one
    rw [hpart] at hbetween horderly ⊢
    have hworld : (d.after (((receiveEffects buzz limit scan (seen ∪ eventIds scan)).take k).map .transport)).world.inbox =
        d.world.inbox := congrArg World.inbox (after_transport _)
    rcases cursor_after_receiveEffects buzz d limit scan (seen ∪ eventIds scan) k with hsame | ⟨hsaved, hmem⟩
    · exact h.of_quiet rfl htime.1 hworld hsame horderly nofun
    · -- the cursor is the new one
      refine h.scanned rfl htime rfl hscan (hworld ▸ fun _ hid => hid) ?_ (hworld ▸ h.relay) (.inr hsaved) horderly nofun
      intro e he hvalid
      by_contra hlost
      rw [← hscanned] at he
      refine hbetween ⟨env, limit, _, e, rfl, ⟨_, List.mem_map_of_mem hmem⟩, ?_, ⟨s, seen, rfl, hget, he⟩, hvalid, ?_⟩
      · intro content hsnap
        obtain ⟨w, _, hw⟩ := List.mem_map.mp hsnap
        cases hw
      · exact hworld ▸ hlost
  · -- nothing is cut off
    rw [hall] at horderly ⊢
    have hworld := inbox_after_receiving d (receiveEffects buzz limit scan (seen ∪ eventIds scan)) s'.snapshot
    have hinbox' : s'.snapshot.inbox = (s.inbox.takeIn (scan.filterMap (handout rt buzz env.buzz))).1.messages :=
      congrArg Inbox.messages hinbox
    rw [hinbox'] at hworld
    obtain ⟨hold, hnew, hfrom⟩ := h.takeIn env hscan
    refine h.scanned rfl htime rfl hscan (hworld ▸ hold) (hworld ▸ hnew) (hworld ▸ hfrom) ?_ horderly nofun
    exact cursor_of_received d limit scan _ _

end

/-! ## Runs -/

variable {c c' : Endpoint} {i : EndpointEvent} {h : List (Event Endpoint EndpointEvent)}

/-- A `receive` that is no `PoisonedReceive` looks at no poison. -/
theorem clean_of_not_poisoned {d : Disk} {s : ProcessState} {seen : Finset String} {relay : List RawBuzzEvent} {now : Int}
    {env : EndpointEnv} {limit : Option Int} {result : Except Exc String}
    (hpoison : ¬ PoisonedReceive rt buzz ⟨⟨d, some (s, seen), relay, now⟩, .handled env (.ok (.receive limit)) result, c'⟩) :
    ¬ (env.buzz.get none = .ok relay ∧
      ∃ event ∈ reached rt buzz env.buzz (quota limit) relay seen, Poisons rt buzz env.buzz event) := by
  rintro ⟨hget, event, hevent, hbad⟩
  obtain ⟨hother, hkind, hchannel, hraises⟩ := (poisons_iff _ _ _).mp hbad
  exact hpoison ⟨env, limit, result, event, rfl, ⟨s, seen, rfl, hget, hevent⟩, hother, hkind, hchannel,
    raises_decodeContent.mp hraises⟩

/-- **Every step** that loses nothing keeps the cursor behind the inbox. -/
theorem EndpointStep.tracks (hstep : EndpointStep rt buzz config EndpointEnv.Reads c i c') (hc : c.Tracks rt buzz)
    (hpoison : ¬ PoisonedReceive rt buzz ⟨c, i, c'⟩) (hkill : ¬ KilledBetween rt buzz ⟨c, i, c'⟩) : c'.Tracks rt buzz := by
  cases hstep with
  | published events hnd => exact hc.published events hnd
  | @handled d p relay now now' env parsed hreads htime =>
      obtain ⟨s, seen⟩ := p
      by_cases hreceive : ∃ limit, parsed = .ok (.receive limit)
      · obtain ⟨limit, rfl⟩ := hreceive
        exact (hc.receive hreads htime (clean_of_not_poisoned hpoison)).1
      · have hother : ∀ limit, parsed ≠ .ok (.receive limit) := fun limit h => hreceive ⟨limit, h⟩
        have hafter := handleOver_other rt buzz config d env seen hother hc.orderly (handleOver rt buzz config env (s, seen) parsed).effects.length
        rw [List.take_length] at hafter
        refine hc.of_quiet rfl htime.1 hafter.1 hafter.2 (hc.orderly_handled parsed) ?_
        have hseen : (handleOver rt buzz config env (s, seen) parsed).state.2 = seen := by
          show (transportRun rt buzz env seen parsed).1 = seen
          rw [transportRun_other hother]
        intro s₁ seen₁ hproc
        have hsame : seen₁ = seen := (congrArg Prod.snd (Option.some.inj hproc)).symm.trans hseen
        exact .inr ⟨s, by rw [hsame]⟩
  | @killed d p relay now now' env parsed hreads htime k left =>
      obtain ⟨s, seen⟩ := p
      by_cases hreceive : ∃ limit, parsed = .ok (.receive limit)
      · obtain ⟨limit, rfl⟩ := hreceive
        exact hc.receiveKilled hreads htime k left hkill
      · have hother : ∀ limit, parsed ≠ .ok (.receive limit) := fun limit h => hreceive ⟨limit, h⟩
        have hafter := handleOver_other rt buzz config d env seen hother hc.orderly k
        have horderly := hc.orderly_killed config env parsed k left
        obtain ⟨audit, hcut⟩ := d.cut_eq (handleOver rt buzz config env (s, seen) parsed).effects k left
        rw [hcut] at horderly ⊢
        exact hc.of_quiet rfl htime.1 hafter.1 hafter.2 horderly nofun
  | @started d relay now pass hopens hok =>
      have hinbox := mail_start config d.world pass (World.Orderly.nodup hc.orderly) (d.world.start config pass).effects.length
      rw [List.take_length] at hinbox
      refine hc.of_quiet rfl (le_refl now) hinbox rfl ?_ ?_
      · exact (NodeStep.started d.world pass hopens hok).sound hc.orderly (fun _ h => h) fun _ _ => trivial
      · rintro s₁ seen₁ ⟨rfl, rfl⟩
        exact .inl (Finset.Subset.refl _)
  | @startCut d relay now pass cut hopens =>
      have hinbox := mail_start config d.world pass (World.Orderly.nodup hc.orderly) cut.performed
      have hnode : NodeStep config ⟨d.world, none⟩ _ _ := .startCut d.world pass cut hopens
      have horderly := hnode.sound hc.orderly (fun _ h => h) fun _ _ => trivial
      obtain ⟨audit, hcut⟩ := cut.world_eq d.world (d.world.start config pass).effects
      rw [hcut] at horderly ⊢
      exact hc.of_quiet rfl (le_refl now) hinbox rfl horderly nofun

/-- The message of an event of the relay that the inbox has a message of. -/
theorem Endpoint.Tracks.holds (hc : c.Tracks rt buzz) {event : RawBuzzEvent} (hevent : event ∈ c.relay)
    (hid : event.id ∈ c.disk.world.inbox.map PeerMessage.messageId) : c.disk.world.Holds rt event := by
  obtain ⟨m, hm, hmid⟩ := List.mem_map.mp hid
  obtain ⟨e, he, message, hdecode, rfl⟩ := hc.relay m hm
  have hsame : e = event := List.inj_on_of_nodup_map hc.nodup he hevent hmid
  subst hsame
  refine ⟨message, hdecode, ?_⟩
  have hnd : (c.disk.world.inbox.map PeerMessage.messageId).Nodup := World.Orderly.nodup hc.orderly
  have honly : ∀ m ∈ c.disk.world.inbox, m.messageId = e.id ↔ m = peerMessage e message :=
    fun m' hm' => ⟨fun h => List.inj_on_of_nodup_map hnd hm' hm h, fun h => h ▸ rfl⟩
  calc c.disk.world.inbox.filter (fun m => m.messageId = e.id)
    _ = c.disk.world.inbox.filter (· = peerMessage e message) :=
      List.filter_congr fun m' hm' => by rw [decide_eq_decide, honly m' hm']
    _ = [peerMessage e message] := by
      rw [List.filter_eq, List.count_eq_one_of_mem hnd.of_map hm, List.replicate_one]

/-- Along a run that loses nothing, the cursor stays behind the inbox. -/
theorem EndpointRun.tracks (hrun : EndpointRun rt buzz config h c) (hpoison : ∀ e ∈ h, ¬ PoisonedReceive rt buzz e)
    (hkill : ∀ e ∈ h, ¬ KilledBetween rt buzz e) : c.Tracks rt buzz := by
  induction hrun with
  | nil hinit => exact hinit.tracks
  | @snoc h c c' i hrun hstep ih =>
      have hlast : (⟨c, i, c'⟩ : Event Endpoint EndpointEvent) ∈ h ++ [⟨c, i, c'⟩] :=
        List.mem_append_right _ (List.mem_singleton_self _)
      refine hstep.tracks ?_ (hpoison _ hlast) (hkill _ hlast)
      exact ih (fun e he => hpoison e (List.mem_append_left _ he)) fun e he => hkill e (List.mem_append_left _ he)

end

namespace Sample

def cursorBuzz : BuzzConfig := ⟨"channel", some "cursor.json", none, buzz.channel_some⟩

def message : RawBuzzEvent := intentEvent "good" "x"

def endpointEnv : EndpointEnv := ⟨penv, channelEnv [message] fun _ => 0, fun _ => .ok "sent"⟩

/-- One message on the relay, no process, and a cursor file. -/
def down (cursor : Option (List String)) : Endpoint := ⟨⟨.empty, cursor⟩, none, [message], 0⟩

/-- … and a process that has just been started. -/
def up (cursor : Option (List String)) : Endpoint :=
  ⟨⟨.empty, cursor⟩, some (World.empty.boot, cursorSeen cursor), [message], 0⟩

/-- What it makes of a `receive`. -/
def received (cursor : Option (List String)) : Outcome EndpointEffect Exc (ProcessState × Finset String) String :=
  handleOver runtime cursorBuzz process endpointEnv (World.empty.boot, cursorSeen cursor) (.ok (.receive none))

/-- The endpoint is killed after some effects of a `receive`, which leave a cursor file, and is started again. -/
def killedAfter (k : Nat) (cursor : Option (List String)) : List (Event Endpoint EndpointEvent) :=
  [⟨⟨⟨.empty, none⟩, none, [], 0⟩, .published [message], down none⟩,
    ⟨down none, .started pass, up none⟩,
    ⟨up none, .killed endpointEnv (.ok (.receive none)) ((received none).effects.take k), down cursor⟩,
    ⟨down cursor, .started pass, up cursor⟩,
    ⟨up cursor, .handled endpointEnv (.ok (.receive none)) (received cursor).result,
      ⟨(up cursor).disk.after (received cursor).effects, some (received cursor).state, [message], 0⟩⟩]

theorem killedAfter_run {k : Nat} {cursor : Option (List String)}
    (hcut : (up none).disk.after ((received none).effects.take k) = (down cursor).disk) :
    ∃ c, EndpointRun runtime cursorBuzz process (killedAfter k cursor) c := by
  have hreads : endpointEnv.Reads [message] := ⟨.inl rfl, rfl⟩
  have htime : endpointEnv.During 0 0 := ⟨le_refl 0, fun _ => ⟨le_refl 0, le_refl 0⟩⟩
  have h0 : EndpointRun runtime cursorBuzz process [] ⟨⟨.empty, none⟩, none, [], 0⟩ := .nil ⟨rfl, rfl, rfl⟩
  have hpublished : EndpointStep runtime cursorBuzz process EndpointEnv.Reads ⟨⟨.empty, none⟩, none, [], 0⟩ (.published [message]) (down none) :=
    .published [message] (List.nodup_singleton _)
  have hstarted (cursor : Option (List String)) :
      EndpointStep runtime cursorBuzz process EndpointEnv.Reads (down cursor) (.started pass) (up cursor) := .started pass rfl rfl
  have hkilled : EndpointStep runtime cursorBuzz process EndpointEnv.Reads (up none)
      (.killed endpointEnv (.ok (.receive none)) ((received none).effects.take k)) (down cursor) := by
    have hstep : EndpointStep runtime cursorBuzz process EndpointEnv.Reads (up none)
        (.killed endpointEnv (.ok (.receive none)) ((received none).effects.take k))
        ⟨(up none).disk.cut (received none).effects k .nothing, none, [message], 0⟩ :=
      .killed endpointEnv (.ok (.receive none)) hreads htime k .nothing
    rwa [Disk.cut_nothing, hcut] at hstep
  exact ⟨_, ((((h0.snoc hpublished).snoc (hstarted none)).snoc hkilled).snoc (hstarted cursor)).snoc
    (.handled endpointEnv (.ok (.receive none)) hreads htime)⟩

theorem message_clean (env : BuzzEnv) (event : RawBuzzEvent) (hevent : event ∈ [message]) :
    ¬ Poisons runtime cursorBuzz env event := by
  obtain rfl := List.mem_singleton.mp hevent
  intro hbad
  have hdecode : decodeContent runtime message.content = _ := decodeContent_encodeContent runtime_readsIntegers rfl
  have hraises := ((poisons_iff _ _ _).mp hbad).2.2.2
  rw [hdecode] at hraises
  exact not_raises_ok _ hraises

theorem message_deliverable : Deliverable runtime cursorBuzz message 0 = true := by
  have hvalid := validate_intentEvent "good" "x"
  change validateReceivedEvent runtime message cursorBuzz.channel 0 = _ at hvalid
  simp only [Deliverable, Bool.and_eq_true, decide_eq_true_eq]
  refine ⟨fun h => ?_, by rw [hvalid]; rfl⟩
  cases h

theorem cursorIds_singleton (id : String) : cursorIds {id} = [id] := by
  simp [cursorIds]

/-- What the endpoint does when it reads the relay for the first time. -/
theorem received_first : ∃ snap, (received none).effects = receiving [.get none, .cursorSave ["good"]] snap := by
  obtain ⟨result, s', _, hrun⟩ := handleOver_receive runtime cursorBuzz process endpointEnv
    World.empty.boot (cursorSeen none) none
  refine ⟨s'.snapshot, ?_⟩
  have hread : (BuzzTransport.receive runtime cursorBuzz endpointEnv.buzz none).run (cursorSeen none) = _ :=
    run_receive (show endpointEnv.buzz.get none = .ok [message] from rfl) rfl (List.nodup_singleton _) nofun
      fun e he => message_clean _ e (mem_relay_of_reached he)
  have hscan : reached runtime cursorBuzz endpointEnv.buzz (quota none) [message] (cursorSeen none) = [message] := rfl
  have hseen : cursorSeen none ∪ eventIds [message] = {"good"} := by decide
  simp only [hscan, hseen] at hread
  rw [hread] at hrun
  have heffects : (received none).effects = _ := congrArg Outcome.effects hrun
  rw [heffects, receiveEffects, cursorIds_singleton]
  rfl

/-- … and what when the cursor file names the event. -/
theorem received_again : ((up (some ["good"])).disk.after (received (some ["good"])).effects).world.inbox = [] := by
  obtain ⟨result, s', hinbox, hrun⟩ := handleOver_receive runtime cursorBuzz process
    endpointEnv World.empty.boot (cursorSeen (some ["good"])) none
  have hread : (BuzzTransport.receive runtime cursorBuzz endpointEnv.buzz none).run (cursorSeen (some ["good"])) = _ :=
    run_receive (show endpointEnv.buzz.get none = .ok [message] from rfl) rfl (List.nodup_singleton _) nofun
      fun e he => message_clean _ e (mem_relay_of_reached he)
  have hscan : reached runtime cursorBuzz endpointEnv.buzz (quota none) [message] (cursorSeen (some ["good"])) = [] := rfl
  simp only [hscan] at hread
  rw [hread] at hrun hinbox
  have heffects : (received (some ["good"])).effects = _ := congrArg Outcome.effects hrun
  rw [heffects, inbox_after_receiving]
  show s'.inbox.messages = []
  rw [hinbox]
  rfl

end Sample

end HermesPayments
