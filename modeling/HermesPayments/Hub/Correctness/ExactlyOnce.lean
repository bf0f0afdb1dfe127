import HermesPayments.Hub
import HermesPayments.Lib.Mailbox
import HermesPayments.Policy.Correctness.Identity
import Std.Data.String.ToNat

/-!
# `HermesPayments.Hub.Correctness.ExactlyOnce` — what the peers of a hub receive

A run of the hub is any interleaving of calls by any endpoints, with whatever they answer. Seen from outside, a call
that returns is a move of a mailbox system and a call that raises is none (`run_refines`); so every peer receives
exactly once, in order. Each id is the hash of a text with the number of the message in it, so no two ids agree
(`hub_exactly_once`).
-/

namespace HermesPayments

open Lib InMemoryTransportHub

/-! ## Runs -/

/-- A call and how it ends. -/
structure HubEvent where
  call   : HubCall
  result : Except HubExc HubAnswer

/-- The steps of a hub: somebody makes a call. -/
inductive HubStep (sha256 : Bytes → String) : InMemoryTransportHub → HubEvent → InMemoryTransportHub → Prop
  | call (hub : InMemoryTransportHub) (c : HubCall) :
      HubStep sha256 hub ⟨c, ((hubCall sha256 c).run hub).result⟩ ((hubCall sha256 c).run hub).state

abbrev HubHistory := List (Event InMemoryTransportHub HubEvent)

/-- The runs of a new hub. -/
abbrev HubRun (sha256 : Bytes → String) (h : HubHistory) (hub : InMemoryTransportHub) : Prop :=
  Run (· = InMemoryTransportHub.new) (HubStep sha256) h hub

/-! ## The rule -/

/-- What a call that returns does to the inboxes, as it is seen from outside: a peer connects; a peer sends a message,
    which goes out under the id returned; a peer is handed messages. -/
def HubEvent.shown (e : HubEvent) : Option (Post String PeerMessage) :=
  match e.call, e.result with
  | .connect peerId _, .ok (.endpoint _)                => some (.join peerId)
  | .send endpoint (.message m) now, .ok (.messageId id) =>
      some (.post endpoint.peerId ⟨id, m, messageAuthor m, now⟩)
  | .receive endpoint _, .ok (.messages ms)             => some (.take endpoint.peerId ms)
  | _, _ => none

/-- The posts of a run, in order. -/
def posts (h : HubHistory) : List (Post String PeerMessage) := (h.map Event.seen).filterMap HubEvent.shown

def HubEvent.returnedId (e : HubEvent) : Option String :=
  match e.result with
  | .ok (.messageId id) => some id
  | _ => none

/-- The message ids ever returned. -/
def returnedIds (h : HubHistory) : List String := (h.map Event.seen).filterMap HubEvent.returnedId

/-- The sender, the number and the content of the message that a call sends. -/
def numbered (e : Event InMemoryTransportHub HubEvent) : Option (String × Nat × PaymentMessage) :=
  match e.seen.call, e.seen.result with
  | .send endpoint (.message m) _, .ok (.messageId _) => some (endpoint.peerId, e.before.counter, m)
  | _, _ => none

/-- The texts hashed for the ids of a run. -/
def idTexts (sha256 : Bytes → String) (h : HubHistory) : List Bytes :=
  (h.filterMap numbered).map (fun x => Utf8.encode (messageIdText sha256 x.1 x.2.1 x.2.2))

/-- The hub delivers exactly once, in order. For each connected peer, what it has received and what is in its inbox are
    what the other peers have sent since it connected; a send succeeds exactly for a message that the endpoint has
    authored; a call that raises changes no inbox; and no id is returned twice. -/
structure ExactlyOnce (h : HubHistory) (hub : InMemoryTransportHub) : Prop where
  delivered : ∀ p inbox, hub.inboxes.get? p = some inbox → taken p (posts h) ++ inbox = dueTo p (posts h)
  authored  : ∀ e ∈ h, ∀ endpoint message now, e.seen.call = .send endpoint message now →
    ((∃ id, e.seen.result = .ok (.messageId id)) ↔ message.AuthoredBy endpoint.identity)
  rejected  : ∀ e ∈ h, ∀ x, e.seen.result = .error x → e.after.inboxes = e.before.inboxes
  ids       : (returnedIds h).Nodup

/-! ## The inboxes are mailboxes -/

variable {sha256 : Bytes → String} {h : HubHistory} {hub hub' : InMemoryTransportHub} {e : HubEvent}

/-- The inboxes, as mailboxes. -/
def InMemoryTransportHub.boxes (hub : InMemoryTransportHub) : Mailboxes String PeerMessage := hub.inboxes.get?

theorem boxes_set (p : String) (inbox : List PeerMessage) :
    ({ hub with inboxes := hub.inboxes.set p inbox } : InMemoryTransportHub).boxes
      = Function.update hub.boxes p (some inbox) := by
  funext q
  rw [Function.update_apply]
  exact hub.inboxes.get?_set p q inbox

theorem boxes_deliver (p : String) (message : PeerMessage) :
    (hub.deliver p message).boxes
      = fun q => if q = p then hub.boxes q else (hub.boxes q).map (· ++ [message]) := by
  funext q
  unfold boxes
  rw [deliver, Dict.get?_mapWithKey]
  by_cases hq : q = p
  · subst hq
    simp
  · simp [hq]

/-- What a call does: it raises without any change, it connects a new peer, it sends a message that its endpoint has
    authored under the hash of its numbered text, or it takes messages off the front of an inbox. -/
theorem HubStep.cases (hstep : HubStep sha256 hub e hub') :
    (∃ c x, e = ⟨c, .error x⟩ ∧ hub' = hub ∧
      ∀ endpoint message now, c = .send endpoint message now → ¬ message.AuthoredBy endpoint.identity) ∨
    (∃ p identity, e = ⟨.connect p identity, .ok (.endpoint ⟨p, identity⟩)⟩ ∧ hub.boxes p = none ∧
      hub' = { hub with inboxes := hub.inboxes.set p [] }) ∨
    (∃ endpoint m now id, e = ⟨.send endpoint (.message m) now, .ok (.messageId id)⟩ ∧
      (Outgoing.message m).AuthoredBy endpoint.identity ∧
      id = sha256 (Utf8.encode (messageIdText sha256 endpoint.peerId hub.counter m)) ∧
      hub' = ({ hub with counter := hub.counter + 1 } : InMemoryTransportHub).deliver endpoint.peerId
        ⟨id, m, messageAuthor m, now⟩) ∨
    (∃ endpoint limit ms rest, e = ⟨.receive endpoint limit, .ok (.messages ms)⟩ ∧
      hub.boxes endpoint.peerId = some (ms ++ rest) ∧
      hub'.boxes = Function.update hub.boxes endpoint.peerId (some rest) ∧ hub'.counter = hub.counter) := by
  cases hstep with
  | call c =>
      cases c with
      | connect p identity =>
          rcases run_connect sha256 hub p identity with ⟨x, hx⟩ | ⟨hnew, hok⟩
          · left
            rw [hx]
            exact ⟨_, x, rfl, rfl, by simp⟩
          · right; left
            rw [hok]
            exact ⟨p, identity, rfl, hnew, rfl⟩
      | send endpoint message now =>
          rcases run_send sha256 hub endpoint message now with
            ⟨hno, x, hx⟩ | ⟨hauthored, m, id, rfl, hid, hok⟩
          · left
            rw [hx]
            refine ⟨_, x, rfl, rfl, ?_⟩
            intro endpoint' message' now' hsend
            cases hsend
            exact hno
          · right; right; left
            rw [hok]
            exact ⟨endpoint, m, now, id, rfl, hauthored, hid, rfl⟩
      | receive endpoint limit =>
          rcases run_receive sha256 hub endpoint limit with
            ⟨x, hx⟩ | ⟨ms, rest, hub', hinbox, hinboxes, hcounter, hok⟩
          · left
            rw [hx]
            exact ⟨_, x, rfl, rfl, by simp⟩
          · right; right; right
            rw [hok]
            refine ⟨endpoint, limit, ms, rest, rfl, hinbox, ?_, hcounter⟩
            funext p
            rw [Function.update_apply]
            exact hinboxes p

/-- **One call is a move of the mailboxes, or none.** -/
theorem HubStep.moves {i : Post String PeerMessage} (hstep : HubStep sha256 hub e hub') (hi : e.shown = some i) :
    Moves hub.boxes i hub'.boxes := by
  rcases hstep.cases with ⟨c, x, rfl, -, -⟩ | ⟨p, identity, rfl, hnew, rfl⟩ | ⟨endpoint, m, now, id, rfl, -, -, rfl⟩ |
    ⟨endpoint, limit, ms, rest, rfl, hbox, hboxes, -⟩
  · cases c with
    | connect p identity => cases hi
    | send endpoint message now => cases message <;> cases hi
    | receive endpoint limit => cases hi
  · cases hi
    rw [boxes_set]
    exact .join hnew
  · cases hi
    rw [boxes_deliver]
    exact .post _ _ _
  · cases hi
    rw [hboxes]
    exact .take hbox

theorem HubStep.stutters (hstep : HubStep sha256 hub e hub') (hnone : e.shown = none) : hub' = hub := by
  rcases hstep.cases with ⟨c, x, -, rfl, -⟩ | ⟨p, identity, rfl, -, -⟩ | ⟨endpoint, m, now, id, rfl, -, -, -⟩ |
    ⟨endpoint, limit, ms, rest, rfl, -, -, -⟩
  · rfl
  · cases hnone
  · cases hnone
  · cases hnone

/-- A call that raises changes nothing. -/
theorem HubStep.rejected {x : HubExc} (hstep : HubStep sha256 hub e hub') (hx : e.result = .error x) : hub' = hub := by
  refine hstep.stutters ?_
  cases e with
  | mk c result =>
      subst hx
      cases c with
      | connect p identity => rfl
      | send endpoint message now => cases message <;> rfl
      | receive endpoint limit => rfl

theorem HubStep.authored {endpoint : InMemoryPeerTransport} {message : Outgoing} {now : Int}
    (hstep : HubStep sha256 hub e hub') (hcall : e.call = .send endpoint message now) :
    (∃ id, e.result = .ok (.messageId id)) ↔ message.AuthoredBy endpoint.identity := by
  rcases hstep.cases with ⟨c, x, rfl, -, hforeign⟩ | ⟨p, identity, rfl, -, -⟩ | ⟨ep, m, t, id, rfl, hauthored, -, -⟩ |
    ⟨ep, limit, ms, rest, rfl, -, -, -⟩
  · constructor
    · rintro ⟨id, hid⟩
      cases hid
    · intro hauthored
      exact absurd hauthored (hforeign endpoint message now hcall)
  · cases hcall
  · cases hcall
    exact ⟨fun _ => hauthored, fun _ => ⟨id, rfl⟩⟩
  · cases hcall

/-- A run of the hub is a run of a mailbox system, with the same posts. -/
theorem HubRun.mailboxes (hrun : HubRun sha256 h hub) :
    ∃ g, Run Unjoined Moves g hub.boxes ∧ g.map Event.seen = posts h := by
  refine hrun.refines ?_ ?_ ?_
  · intro s hs p
    subst hs
    rfl
  · intro hub e hub' i hstep hi
    exact hstep.moves hi
  · intro hub e hub' hstep hi
    rw [hstep.stutters hi]

/-! ## The ids -/

/-- The run has numbered its messages from 0 on, and returned the hashes of their texts. -/
structure Numbers (sha256 : Bytes → String) (h : HubHistory) (hub : InMemoryTransportHub) : Prop where
  counters : (h.filterMap numbered).map (·.2.1) = List.range hub.counter
  hashes   : returnedIds h = (idTexts sha256 h).map sha256

theorem returnedIds_snoc (ev : Event InMemoryTransportHub HubEvent) :
    returnedIds (h ++ [ev]) = returnedIds h ++ ev.seen.returnedId.toList := by
  cases hid : ev.seen.returnedId <;> simp [returnedIds, hid]

theorem numbered_eq_none {ev : Event InMemoryTransportHub HubEvent} (h : ev.seen.returnedId = none) :
    numbered ev = none := by
  rw [numbered]
  split
  · next endpoint m now id hcall hresult =>
    rw [HubEvent.returnedId, hresult] at h
    cases h
  · rfl

/-- A call that returns no id and keeps the counter keeps the numbers. -/
theorem Numbers.silent (hn : Numbers sha256 h hub) (hid : e.returnedId = none) (hcounter : hub'.counter = hub.counter) :
    Numbers sha256 (h ++ [⟨hub, e, hub'⟩]) hub' := by
  have hnone : numbered ⟨hub, e, hub'⟩ = none := numbered_eq_none hid
  constructor
  · rw [List.filterMap_append, hcounter, ← hn.counters]
    simp [hnone]
  · rw [returnedIds_snoc, hn.hashes, hid]
    simp [idTexts, hnone]

theorem Numbers.step (hn : Numbers sha256 h hub) (hstep : HubStep sha256 hub e hub') :
    Numbers sha256 (h ++ [⟨hub, e, hub'⟩]) hub' := by
  rcases hstep.cases with ⟨c, x, rfl, rfl, -⟩ | ⟨p, identity, rfl, -, rfl⟩ | ⟨endpoint, m, now, id, rfl, -, hid, rfl⟩ |
    ⟨endpoint, limit, ms, rest, rfl, -, -, hcounter⟩
  · exact hn.silent rfl rfl
  · exact hn.silent rfl rfl
  · subst hid
    have hnumbered : ∀ id hub', numbered ⟨hub, ⟨.send endpoint (.message m) now, .ok (.messageId id)⟩, hub'⟩
        = some (endpoint.peerId, hub.counter, m) := fun _ _ => rfl
    constructor
    · rw [List.filterMap_append, List.map_append, hn.counters]
      show _ = List.range (hub.counter + 1)
      rw [List.range_succ]
      simp [hnumbered]
    · rw [returnedIds_snoc, hn.hashes]
      simp [idTexts, hnumbered, HubEvent.returnedId]
  · exact hn.silent rfl hcounter

theorem HubRun.numbers (hrun : HubRun sha256 h hub) : Numbers sha256 h hub := by
  refine hrun.history (P := fun h hub => Numbers sha256 h hub) ?_ ?_
  · intro s hs
    subst hs
    exact ⟨rfl, rfl⟩
  · intro h hub e hub' _ hn hstep
    exact hn.step hstep

/-- Texts cut at their first colon. -/
theorem cut_at_colon {x x' z z' : List Char} (hx : ':' ∉ x) (hx' : ':' ∉ x') (h : x ++ ':' :: z = x' ++ ':' :: z') :
    x = x' ∧ z = z' := by
  induction x generalizing x' with
  | nil =>
      cases x' with
      | nil => exact ⟨rfl, by simpa using h⟩
      | cons c x' =>
          rw [List.nil_append, List.cons_append, List.cons.injEq] at h
          exact absurd (h.1 ▸ List.mem_cons_self) hx'
  | cons c x ih =>
      cases x' with
      | nil =>
          rw [List.nil_append, List.cons_append, List.cons.injEq] at h
          exact absurd (h.1 ▸ List.mem_cons_self) hx
      | cons c' x' =>
          rw [List.cons_append, List.cons_append, List.cons.injEq] at h
          obtain ⟨rfl, rfl⟩ := ih (fun hc => hx (List.mem_cons_of_mem _ hc)) (fun hc => hx' (List.mem_cons_of_mem _ hc)) h.2
          exact ⟨by rw [h.1], rfl⟩

theorem colon_not_mem_toString (n : Nat) : ':' ∉ (toString n).toList := by
  intro hmem
  have hdigits : ':' ∈ Nat.toDigits 10 n := by
    rwa [← Nat.toList_repr]
  have hdigit := Nat.isDigit_of_mem_toDigits (by omega) (by omega) hdigits
  exact absurd hdigit (by decide)

/-- The number of a message can be read off its text: the hash and the number have no colon in them. -/
theorem messageIdText_counter (hhex : ∀ bytes, ':' ∉ (sha256 bytes).toList) {p p' : String} {n n' : Nat}
    {m m' : PaymentMessage} (h : messageIdText sha256 p n m = messageIdText sha256 p' n' m') : n = n' := by
  have hback (p : String) (n : Nat) (m : PaymentMessage) : (messageIdText sha256 p n m).toList.reverse
      = (computeId sha256 m.modelDump).toList.reverse ++ ':' :: ((toString n).toList.reverse ++ ':' :: p.toList.reverse) := by
    simp [messageIdText]
  have htexts := congrArg (fun s => s.toList.reverse) h
  simp only [hback] at htexts
  obtain ⟨-, hrest⟩ := cut_at_colon (by simpa [computeId] using hhex _) (by simpa [computeId] using hhex _) htexts
  obtain ⟨hdigits, -⟩ := cut_at_colon (by simpa using colon_not_mem_toString n)
    (by simpa using colon_not_mem_toString n') hrest
  exact Nat.repr_injective (String.toList_inj.mp (List.reverse_injective hdigits))

/-- The texts hashed in a run are distinct. -/
theorem HubRun.idTexts_nodup (hhex : ∀ bytes, ':' ∉ (sha256 bytes).toList) (hrun : HubRun sha256 h hub) :
    (idTexts sha256 h).Nodup := by
  have hcounters : ((h.filterMap numbered).map (·.2.1)).Nodup := by
    rw [hrun.numbers.counters]
    exact List.nodup_range
  rw [idTexts, List.Nodup, List.pairwise_map]
  refine (List.pairwise_map.mp hcounters).imp ?_
  intro a b hne heq
  exact hne (messageIdText_counter hhex (Utf8.encode_injective heq))

/-! ## The theorem -/

/-- **The hub delivers exactly once, in order.** The hash is assumed free of collisions on the texts of the run, and a
    hex digest has no colon in it. -/
theorem hub_exactly_once (hhex : ∀ bytes, ':' ∉ (sha256 bytes).toList) (hrun : HubRun sha256 h hub)
    (hsha : ∀ x ∈ idTexts sha256 h, ∀ y ∈ idTexts sha256 h, NoCollision sha256 x y) : ExactlyOnce h hub := by
  constructor
  · intro p inbox hinbox
    obtain ⟨g, hg, hposts⟩ := hrun.mailboxes
    rw [← hposts]
    exact Moves.exactly_once hg hinbox
  · intro ev hev endpoint message now hcall
    obtain ⟨g, -, hstep⟩ := hrun.of_mem hev
    exact hstep.authored hcall
  · intro ev hev x hx
    obtain ⟨g, -, hstep⟩ := hrun.of_mem hev
    rw [hstep.rejected hx]
  · rw [hrun.numbers.hashes]
    exact (hrun.idTexts_nodup hhex).map_on hsha

namespace Sample

/-- The hex digits of the bytes themselves: a hash without collisions. -/
def hexdigest (bytes : Bytes) : String :=
  String.ofList (bytes.flatMap (fun b => [Nat.digitChar (b.toNat / 16), Nat.digitChar (b.toNat % 16)]))

theorem hexdigest_no_colon (bytes : Bytes) : ':' ∉ (hexdigest bytes).toList := by
  have hdigit : ∀ d : Fin 16, Nat.digitChar d.val ≠ ':' := by decide
  rw [hexdigest, String.toList_ofList, List.mem_flatMap]
  rintro ⟨b, -, hb⟩
  have hlt := b.toNat_lt
  rcases List.mem_pair.mp hb with hb | hb
  · exact hdigit ⟨b.toNat / 16, by omega⟩ hb.symm
  · exact hdigit ⟨b.toNat % 16, by omega⟩ hb.symm

theorem hexdigest_injective : Function.Injective hexdigest := by
  have hdigit : ∀ d d' : Fin 16, Nat.digitChar d.val = Nat.digitChar d'.val → d = d' := by decide
  intro x y h
  have hchars := congrArg String.toList h
  simp only [hexdigest, String.toList_ofList] at hchars
  induction x generalizing y with
  | nil =>
      cases y with
      | nil => rfl
      | cons b' y => simp at hchars
  | cons b x ih =>
      cases y with
      | nil => simp at hchars
      | cons b' y =>
          simp only [List.flatMap_cons, List.cons_append, List.nil_append, List.cons.injEq] at hchars
          obtain ⟨hhigh, hlow, hrest⟩ := hchars
          have hlt := b.toNat_lt
          have hlt' := b'.toNat_lt
          have hdiv := congrArg Fin.val (hdigit ⟨b.toNat / 16, by omega⟩ ⟨b'.toNat / 16, by omega⟩ hhigh)
          have hmod := congrArg Fin.val (hdigit ⟨b.toNat % 16, by omega⟩ ⟨b'.toNat % 16, by omega⟩ hlow)
          have hb : b = b' := by
            apply UInt8.toNat_inj.mp
            simp only at hdiv hmod
            omega
          rw [hb, ih (congrArg String.ofList hrest) hrest]

def alice : InMemoryPeerTransport := ⟨"alice", party⟩

def bob : InMemoryPeerTransport := ⟨"bob", party⟩

/-- Two peers; one message sent twice, read one at a time; an approval that is not sent. -/
def hubCalls : List HubCall :=
  [.connect "alice" party, .connect "bob" party, .send alice (.message (.intent (intent "i" 100))) 0,
    .send alice (.message (.intent (intent "i" 100))) 1, .receive bob (some 1), .send bob (.approval (approval "i")) 2,
    .receive bob none]

end Sample

/-- The event of one call. -/
def hubEvent (sha256 : Bytes → String) (hub : InMemoryTransportHub) (c : HubCall) :
    Event InMemoryTransportHub HubEvent :=
  ⟨hub, ⟨c, ((hubCall sha256 c).run hub).result⟩, ((hubCall sha256 c).run hub).state⟩

theorem hubEvent_before (sha256 : Bytes → String) (hub : InMemoryTransportHub) (c : HubCall) :
    (hubEvent sha256 hub c).before = hub := rfl

/-- Any list of calls makes a run. -/
theorem hubRun_play (sha256 : Bytes → String) (calls : List HubCall) :
    HubRun sha256 (playEvents (hubEvent sha256) .new calls) (playState (hubEvent sha256) .new calls) := by
  have hnil : HubRun sha256 [] .new := .nil rfl
  have hplay := run_playEvents (hubEvent_before sha256) HubStep.call hnil calls
  rwa [List.nil_append] at hplay

/-- Two peers, and one message sent twice. -/
theorem hub_exactly_once_two : ExactlyOnce (playEvents (hubEvent Sample.hexdigest) .new Sample.hubCalls)
    (playState (hubEvent Sample.hexdigest) .new Sample.hubCalls) :=
  hub_exactly_once Sample.hexdigest_no_colon (hubRun_play _ _) fun _ _ _ _ h => Sample.hexdigest_injective h

end HermesPayments
