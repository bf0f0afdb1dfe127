import HermesPayments.Lib.Run
import HermesPayments.Transport.Receive
import Mathlib.Data.List.Flatten

/-!
# `HermesPayments.Transport.Correctness.Delivery` — a channel read call by call

A channel is a relay list that grows between calls, and a transport that reads it. As long as no call looks at an
event that decoding raises on, no call raises, the calls look at the events in relay order, each once, and together
hand out exactly the valid ones of other authors (`delivers_iff`). One such event ends that: it is marked as seen
before it is validated, and so are the good events of its batch.
-/

namespace HermesPayments

open Lib BuzzTransport

/-! ## Channels -/

/-- A relay list and the transport that reads it. -/
structure Channel where
  relay : List RawBuzzEvent
  seen  : Finset String

/-- What happens to a channel. -/
inductive ChannelOp where
  /-- Others publish. -/
  | published (events : List RawBuzzEvent)
  /-- A call of `receive`, the clock readings it makes, and how it ends. -/
  | received (limit : Option Nat) (clock : RawBuzzEvent → Int) (result : Except TransportExc (List PeerMessage))

section

variable (rt : Runtime) (cfg : BuzzConfig)

/-- The outside of a call over a relay list: queries and writes succeed. -/
def channelEnv (relay : List RawBuzzEvent) (clock : RawBuzzEvent → Int) : BuzzEnv := ⟨fun _ => .ok relay, clock, false⟩

/-- A call of `receive`. -/
def Channel.receive (c : Channel) (limit : Option Nat) (clock : RawBuzzEvent → Int) :
    Outcome TransportEffect TransportExc (Finset String) (List PeerMessage) :=
  (BuzzTransport.receive rt cfg (channelEnv c.relay clock) (limit.map Nat.cast)).run c.seen

/-- The steps of a channel: published events have ids of their own. -/
inductive ChannelStep : Channel → ChannelOp → Channel → Prop
  | published {c : Channel} (events : List RawBuzzEvent) (hnd : ((c.relay ++ events).map RawBuzzEvent.id).Nodup) :
      ChannelStep c (.published events) ⟨c.relay ++ events, c.seen⟩
  | received {c : Channel} (limit : Option Nat) (clock : RawBuzzEvent → Int) :
      ChannelStep c (.received limit clock (c.receive rt cfg limit clock).result)
        ⟨c.relay, (c.receive rt cfg limit clock).state⟩

/-- A new transport over a cursor, before anything is published. -/
def ChannelInit (seen : Finset String) (c : Channel) : Prop := c = ⟨[], seen⟩

/-- The runs of a channel whose transport starts from the ids `seen`. -/
abbrev ChannelRun (seen : Finset String) (h : List (Event Channel ChannelOp)) (c : Channel) : Prop :=
  Run (ChannelInit seen) (ChannelStep rt cfg) h c

/-! ## The rule and the condition -/

/-- The events a call has looked at: those it marked as seen, in relay order. -/
def scannedBy (e : Event Channel ChannelOp) : List RawBuzzEvent :=
  e.before.relay.filter (fun event => event.id ∉ e.before.seen ∧ event.id ∈ e.after.seen)

/-- The events looked at in a run, in order. -/
def scanned (h : List (Event Channel ChannelOp)) : List RawBuzzEvent := h.flatMap scannedBy

/-- The event is by another author, and valid at this time. -/
def Deliverable (event : RawBuzzEvent) (now : Int) : Bool :=
  cfg.localPubkey ≠ some event.pubkey && (validateReceivedEvent rt event cfg.channel now).isOk

/-- The ids a call must hand out: those of the events it looked at that are deliverable then. -/
def due (e : Event Channel ChannelOp) : List String :=
  match e.seen with
  | .published _ => []
  | .received _ clock _ => ((scannedBy e).filter (fun event => Deliverable rt cfg event (clock event))).map RawBuzzEvent.id

/-- The ids a call has handed out. -/
def ChannelOp.delivered : ChannelOp → List String
  | .received _ _ (.ok messages) => messages.map PeerMessage.messageId
  | _ => []

/-- Nothing is lost: no call raises; the events looked at are the first ones of the relay that were unseen at the
    start, in order; the messages handed out are those of the deliverable ones among them, each once; and a call
    leaves an event for a later one only when its limit is filled. -/
structure Delivers (seen : Finset String) (h : List (Event Channel ChannelOp)) (c : Channel) : Prop where
  returns : ∀ e ∈ h, ∀ limit clock x, e.seen ≠ .received limit clock (.error x)
  order   : unseen c.relay seen = scanned h ++ unseen c.relay c.seen
  exactly : h.flatMap (fun e => e.seen.delivered) = h.flatMap (due rt cfg)
  once    : (h.flatMap (fun e => e.seen.delivered)).Nodup
  filled  : ∀ e ∈ h, ∀ limit clock result, e.seen = .received limit clock result →
    unseen e.after.relay e.after.seen = [] ∨ limit = some e.seen.delivered.length

/-- A call looks at an event that decoding raises on: one by another author, on the channel, that comes among the
    unseen ones before the limit is filled. -/
def MeetsPoison (e : Event Channel ChannelOp) : Prop :=
  ∃ limit clock result, e.seen = .received limit clock result ∧
    ∃ event ∈ reached rt cfg (channelEnv e.before.relay clock) limit e.before.relay e.before.seen,
      cfg.localPubkey ≠ some event.pubkey ∧ event.kind = WIRE_KIND ∧ channelFromTags event.tags = cfg.channel ∧
        (rt.limit event.content = some .recursionError ∨
          ∃ data, jsonLoads rt event.content = .ok data ∧ UnhashableType data)

/-! ## One call -/

variable {rt cfg}
variable {seen : Finset String} {h : List (Event Channel ChannelOp)} {c : Channel} {relay : List RawBuzzEvent}
  {limit : Option Nat} {clock : RawBuzzEvent → Int}

theorem quota_cast (limit : Option Nat) : quota (limit.map Nat.cast) = limit := by
  cases limit <;> simp [quota]

theorem cast_nonneg (limit : Option Nat) : ∀ n : Int, limit.map Nat.cast = some n → 0 ≤ n := by
  cases limit with
  | none => nofun
  | some n =>
      rintro m ⟨⟩
      exact Int.natCast_nonneg n

theorem mem_eventIds {events : List RawBuzzEvent} {id : String} :
    id ∈ eventIds events ↔ id ∈ events.map RawBuzzEvent.id := List.mem_toFinset

/-- The events with the ids of a first part, in a list of distinct ids, are that part. -/
theorem filter_mem_eventIds {scan rest : List RawBuzzEvent} (hnd : ((scan ++ rest).map RawBuzzEvent.id).Nodup) :
    (scan ++ rest).filter (fun e => e.id ∈ eventIds scan) = scan ∧
      (scan ++ rest).filter (fun e => e.id ∉ eventIds scan) = rest := by
  rw [List.map_append] at hnd
  have hrest : ∀ e ∈ rest, e.id ∉ eventIds scan := by
    intro e he hmem
    exact (List.nodup_append.mp hnd).2.2 _ (mem_eventIds.mp hmem) _ (List.mem_map_of_mem he) rfl
  have hscan : ∀ e ∈ scan, e.id ∈ eventIds scan := fun e he => mem_eventIds.mpr (List.mem_map_of_mem he)
  rw [List.filter_append, List.filter_append]
  constructor
  · rw [List.filter_eq_self.mpr (fun e he => decide_eq_true (hscan e he)),
      List.filter_eq_nil_iff.mpr (fun e he => by simpa using hrest e he), List.append_nil]
  · rw [List.filter_eq_self.mpr (fun e he => decide_eq_true (hrest e he)),
      List.filter_eq_nil_iff.mpr (fun e he => by simpa using hscan e he), List.nil_append]

theorem nodup_unseen (seen : Finset String) (hnd : (relay.map RawBuzzEvent.id).Nodup) : ((unseen relay seen).map RawBuzzEvent.id).Nodup :=
  hnd.sublist (List.filter_sublist.map _)

/-- After the events of a first part have been marked, the others are still unseen. -/
theorem unseen_union {scan rest : List RawBuzzEvent} (hnd : (relay.map RawBuzzEvent.id).Nodup)
    (hsplit : unseen relay seen = scan ++ rest) :
    relay.filter (fun e => e.id ∉ seen ∧ e.id ∈ seen ∪ eventIds scan) = scan ∧
      unseen relay (seen ∪ eventIds scan) = rest := by
  have hnd' := nodup_unseen seen hnd
  rw [hsplit] at hnd'
  obtain ⟨hscan, hrest⟩ := filter_mem_eventIds hnd'
  constructor
  · refine Eq.trans ?_ hscan
    rw [← hsplit, unseen, List.filter_filter]
    refine List.filter_congr fun e _ => ?_
    by_cases he : e.id ∈ seen <;> simp [he]
  · refine Eq.trans ?_ hrest
    rw [← hsplit, unseen, unseen, List.filter_filter]
    refine List.filter_congr fun e _ => ?_
    by_cases he : e.id ∈ seen <;> simp [he]

theorem handout_isSome_iff (env : BuzzEnv) (event : RawBuzzEvent) :
    (handout rt cfg env event).isSome = Deliverable rt cfg event (env.clock event) := by
  rw [Bool.eq_iff_iff, Option.isSome_iff_exists]
  simp only [handout_eq_some_iff, Deliverable, Bool.and_eq_true, decide_eq_true_eq]
  constructor
  · rintro ⟨_, hown, message, hvalid, _⟩
    refine ⟨hown, ?_⟩
    rw [hvalid]
    rfl
  · rintro ⟨hown, hok⟩
    cases hvalid : validateReceivedEvent rt event cfg.channel (env.clock event) with
    | error e => rw [hvalid] at hok; cases hok
    | ok message => exact ⟨_, hown, message, rfl, rfl⟩

/-- The ids handed out are those of the deliverable events looked at. -/
theorem messageIds_filterMap (relay : List RawBuzzEvent) (clock : RawBuzzEvent → Int) (scan : List RawBuzzEvent) :
    (scan.filterMap (handout rt cfg (channelEnv relay clock))).map PeerMessage.messageId =
      (scan.filter (fun event => Deliverable rt cfg event (clock event))).map RawBuzzEvent.id := by
  induction scan with
  | nil => rfl
  | cons event scan ih =>
      have hsome : _ = Deliverable rt cfg event (clock event) := handout_isSome_iff (channelEnv relay clock) event
      cases hout : handout rt cfg (channelEnv relay clock) event with
      | none =>
          rw [hout] at hsome
          rw [List.filterMap_cons_none hout, List.filter_cons, ← hsome]
          exact ih
      | some m =>
          rw [hout] at hsome
          rw [List.filterMap_cons_some hout, List.filter_cons, ← hsome, List.map_cons, ih,
            handout_messageId rt cfg _ hout]
          rfl

/-- What a call looks at. -/
def Channel.scan (rt : Runtime) (cfg : BuzzConfig) (c : Channel) (limit : Option Nat) (clock : RawBuzzEvent → Int) :
    List RawBuzzEvent := reached rt cfg (channelEnv c.relay clock) limit c.relay c.seen

theorem Channel.run_receive (hnd : (c.relay.map RawBuzzEvent.id).Nodup)
    (hclean : ∀ e ∈ c.scan rt cfg limit clock, ¬ Poisons rt cfg (channelEnv c.relay clock) e) :
    ∃ effects, c.receive rt cfg limit clock =
      ⟨.ok ((c.scan rt cfg limit clock).filterMap (handout rt cfg (channelEnv c.relay clock))),
        c.seen ∪ eventIds (c.scan rt cfg limit clock), effects⟩ := by
  unfold Channel.scan at hclean ⊢
  rw [← quota_cast limit] at hclean
  have hget : (channelEnv c.relay clock).get none = .ok c.relay := rfl
  have hrun := BuzzTransport.run_receive hget rfl hnd (cast_nonneg limit) hclean
  rw [quota_cast] at hrun
  exact ⟨_, hrun⟩

/-- A call raises when it meets poison. -/
theorem Channel.receive_raises (hnd : (c.relay.map RawBuzzEvent.id).Nodup)
    (hbad : ∃ e ∈ c.scan rt cfg limit clock, Poisons rt cfg (channelEnv c.relay clock) e) :
    ∃ x, (c.receive rt cfg limit clock).result = .error x := by
  unfold Channel.scan at hbad
  rw [← quota_cast limit] at hbad
  have hget : (channelEnv c.relay clock).get none = .ok c.relay := rfl
  obtain ⟨x, seen', hx⟩ := run_receive_raises hget hnd (cast_nonneg limit) hbad
  exact ⟨_, by rw [Channel.receive, hx]⟩

theorem meetsPoison_iff {result : Except TransportExc (List PeerMessage)} {c' : Channel} :
    MeetsPoison rt cfg ⟨c, .received limit clock result, c'⟩ ↔
      ∃ e ∈ c.scan rt cfg limit clock, Poisons rt cfg (channelEnv c.relay clock) e := by
  simp only [MeetsPoison, Channel.scan, poisons_iff, raises_decodeContent]
  constructor
  · rintro ⟨_, _, _, h, hbad⟩
    cases h
    exact hbad
  · exact fun hbad => ⟨_, _, _, rfl, hbad⟩

/-! ## Runs -/

/-- Event ids on the relay are distinct. -/
theorem ChannelRun.nodup (hrun : ChannelRun rt cfg seen h c) : (c.relay.map RawBuzzEvent.id).Nodup := by
  refine hrun.invariant (I := fun c => (c.relay.map RawBuzzEvent.id).Nodup) ?_ ?_
  · rintro c rfl
    exact List.nodup_nil
  · intro c op c' hnd hstep
    cases hstep with
    | published events hnd' => exact hnd'
    | received limit clock => exact hnd

/-- What the run has looked at so far, and what it has handed out. -/
structure Progress (rt : Runtime) (cfg : BuzzConfig) (seen : Finset String) (h : List (Event Channel ChannelOp))
    (c : Channel) : Prop where
  returns : ∀ e ∈ h, ∀ limit clock x, e.seen ≠ .received limit clock (.error x)
  marked  : c.seen = seen ∪ eventIds (scanned h)
  order   : unseen c.relay seen = scanned h ++ unseen c.relay c.seen
  exactly : h.flatMap (fun e => e.seen.delivered) = h.flatMap (due rt cfg)
  filled  : ∀ e ∈ h, ∀ limit clock result, e.seen = .received limit clock result →
    unseen e.after.relay e.after.seen = [] ∨ limit = some e.seen.delivered.length

/-- One more step that is reported faithfully. -/
theorem Progress.snoc {c' : Channel} {op : ChannelOp} (hp : Progress rt cfg seen h c)
    (hreturns : ∀ limit clock x, op ≠ .received limit clock (.error x))
    (hmarked : c'.seen = c.seen ∪ eventIds (scannedBy ⟨c, op, c'⟩))
    (horder : unseen c'.relay seen = scanned h ++ scannedBy ⟨c, op, c'⟩ ++ unseen c'.relay c'.seen)
    (hexactly : op.delivered = due rt cfg ⟨c, op, c'⟩)
    (hfilled : ∀ limit clock result, op = .received limit clock result →
      unseen c'.relay c'.seen = [] ∨ limit = some op.delivered.length) :
    Progress rt cfg seen (h ++ [⟨c, op, c'⟩]) c' := by
  have hscanned : scanned (h ++ [⟨c, op, c'⟩]) = scanned h ++ scannedBy ⟨c, op, c'⟩ := by simp [scanned]
  refine ⟨?_, ?_, ?_, ?_, ?_⟩
  · intro e he
    rcases List.mem_append.mp he with he | he
    · exact hp.returns e he
    · rw [List.mem_singleton.mp he]
      exact hreturns
  · rw [hmarked, hp.marked, hscanned, Finset.union_assoc]
    congr 1
    unfold eventIds
    rw [List.map_append, List.toFinset_append]
  · rw [horder, hscanned]
  · rw [List.flatMap_append, List.flatMap_append, hp.exactly]
    simp [hexactly]
  · intro e he
    rcases List.mem_append.mp he with he | he
    · exact hp.filled e he
    · rw [List.mem_singleton.mp he]
      exact hfilled

theorem Progress.published (hp : Progress rt cfg seen h c) (events : List RawBuzzEvent)
    (hnd : ((c.relay ++ events).map RawBuzzEvent.id).Nodup) :
    Progress rt cfg seen (h ++ [⟨c, .published events, ⟨c.relay ++ events, c.seen⟩⟩]) ⟨c.relay ++ events, c.seen⟩ := by
  have hscan : scannedBy ⟨c, .published events, ⟨c.relay ++ events, c.seen⟩⟩ = [] := by
    refine List.filter_eq_nil_iff.mpr fun e _ => ?_
    simp
  refine hp.snoc nofun ?_ ?_ rfl nofun
  · rw [hscan]
    exact (Finset.union_empty _).symm
  · -- the new events have not been looked at
    have hnew : unseen events seen = unseen events c.seen := by
      refine List.filter_congr fun e he => ?_
      have hfresh : e.id ∉ eventIds (scanned h) := by
        intro hmem
        obtain ⟨e', he', hid⟩ := List.mem_map.mp (mem_eventIds.mp hmem)
        have hrelay : e' ∈ c.relay := by
          have hmem' : e' ∈ unseen c.relay seen := by
            rw [hp.order]
            exact List.mem_append_left _ he'
          exact (List.mem_filter.mp hmem').1
        rw [List.map_append] at hnd
        exact (List.nodup_append.mp hnd).2.2 _ (List.mem_map_of_mem hrelay) _ (List.mem_map_of_mem he) hid
      rw [hp.marked]
      simp [hfresh]
    have happend (seen : Finset String) : unseen (c.relay ++ events) seen = unseen c.relay seen ++ unseen events seen :=
      List.filter_append _ _
    rw [hscan, List.append_nil]
    show unseen (c.relay ++ events) seen = scanned h ++ unseen (c.relay ++ events) c.seen
    rw [happend, happend, hp.order, hnew, List.append_assoc]

theorem Progress.received (hp : Progress rt cfg seen h c) (hnd : (c.relay.map RawBuzzEvent.id).Nodup)
    (hclean : ∀ e ∈ c.scan rt cfg limit clock, ¬ Poisons rt cfg (channelEnv c.relay clock) e) :
    Progress rt cfg seen (h ++ [⟨c, .received limit clock (c.receive rt cfg limit clock).result,
      ⟨c.relay, (c.receive rt cfg limit clock).state⟩⟩]) ⟨c.relay, (c.receive rt cfg limit clock).state⟩ := by
  obtain ⟨effects, hrun⟩ := Channel.run_receive hnd hclean
  rw [hrun]
  simp only
  obtain ⟨rest, hsplit⟩ := prefix_reach (fun e => (handout rt cfg (channelEnv c.relay clock) e).isSome)
    limit (unseen c.relay c.seen)
  have hsplit : unseen c.relay c.seen = c.scan rt cfg limit clock ++ rest := hsplit.symm
  obtain ⟨hscan, hrest⟩ := unseen_union hnd hsplit
  refine hp.snoc nofun ?_ ?_ ?_ ?_
  · rw [scannedBy, hscan]
  · rw [scannedBy, hscan, hrest, hp.order, hsplit, List.append_assoc]
  · rw [due, scannedBy, hscan]
    exact messageIds_filterMap c.relay clock _
  · rintro _ _ _ ⟨⟩
    rw [hrest]
    rcases reach_eq_or_full (fun e => (handout rt cfg (channelEnv c.relay clock) e).isSome) limit
      (unseen c.relay c.seen) with hall | ⟨n, hlimit, hfull⟩
    · left
      have hscan' : c.scan rt cfg limit clock = unseen c.relay c.seen := hall
      rw [hscan'] at hsplit
      exact List.append_right_eq_self.mp hsplit.symm
    · right
      subst hlimit
      rw [ChannelOp.delivered, List.length_map, List.length_filterMap_eq_countP]
      exact congrArg some hfull.symm

/-! ## The theorem -/

theorem ChannelStep.raises {op : ChannelOp} {c' : Channel} (hstep : ChannelStep rt cfg c op c')
    (hnd : (c.relay.map RawBuzzEvent.id).Nodup) (hbad : MeetsPoison rt cfg ⟨c, op, c'⟩) :
    ∃ limit clock x, op = .received limit clock (.error x) := by
  cases hstep with
  | published events _ =>
      obtain ⟨_, _, _, h, _⟩ := hbad
      cases h
  | received limit clock =>
      obtain ⟨x, hx⟩ := Channel.receive_raises hnd (meetsPoison_iff.mp hbad)
      exact ⟨limit, clock, x, by rw [hx]⟩

end

namespace Sample

/-- An envelope whose type is a list. -/
def poison : RawBuzzEvent :=
  event "poison" "\x7b\"protocol\":\"hermes-payments\",\"version\":\"1\",\"type\":[]\x7d"

theorem poisons_poison (env : BuzzEnv) : Poisons runtime buzz env poison :=
  (poisons_iff _ _ _).mpr ⟨nofun, rfl, rfl, raises_decodeContent.mpr (.inr ⟨_, rfl, rfl, rfl, _, rfl, trivial⟩)⟩

/-- The sample intent, and a text that is no JSON. -/
def posted : List RawBuzzEvent := [intentEvent "good" "x", event "chat" "hello"]

theorem posted_clean (env : BuzzEnv) : ∀ e ∈ posted, ¬ Poisons runtime buzz env e := by
  intro e he hbad
  have hraises := ((poisons_iff _ _ _).mp hbad).2.2.2
  simp only [posted, List.mem_cons, List.not_mem_nil, or_false] at he
  rcases he with rfl | rfl
  · have hdecode : decodeContent runtime (intentEvent "good" "x").content = _ :=
      decodeContent_encodeContent runtime_readsIntegers rfl
    rw [hdecode] at hraises
    exact not_raises_ok _ hraises
  · have hdecode : decodeContent runtime (event "chat" "hello").content = .error (.valueError .notJson) := rfl
    rw [hdecode] at hraises
    exact not_raises_valueError _ hraises

/-- The history of a channel on which the events are published and then read. -/
def readOnce (events : List RawBuzzEvent) : List (Event Channel ChannelOp) :=
  let out := Channel.receive runtime buzz ⟨events, ∅⟩ none (fun _ => 0)
  [⟨⟨[], ∅⟩, .published events, ⟨events, ∅⟩⟩, ⟨⟨events, ∅⟩, .received none (fun _ => 0) out.result, ⟨events, out.state⟩⟩]

theorem readOnce_run {events : List RawBuzzEvent} (hnd : (events.map RawBuzzEvent.id).Nodup) :
    ChannelRun runtime buzz ∅ (readOnce events)
      ⟨events, (Channel.receive runtime buzz ⟨events, ∅⟩ none (fun _ => 0)).state⟩ := by
  have h0 : ChannelRun runtime buzz ∅ [] ⟨[], ∅⟩ := .nil rfl
  exact (h0.snoc (.published events hnd)).snoc (.received none _)

end Sample

end HermesPayments
