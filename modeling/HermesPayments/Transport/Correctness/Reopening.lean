import HermesPayments.Lib.Run
import HermesPayments.Transport.Receive

/-!
# `HermesPayments.Transport.Correctness.Reopening` — what a reopened transport has seen

A transport remembers in its cursor file which events it has looked at, and a new one over the same file starts from
there. The file keeps ten thousand ids, the last in the order of their hashes, and it is written last in a call. So a
reopened transport starts from exactly the ids seen before, and no message comes a second time, along the runs in which no
call looks at something new and then raises, fails to write, or has seen more than ten thousand ids
(`dedup_survives_iff`).
-/

namespace HermesPayments

open Lib BuzzTransport

/-! ## Readers -/

/-- A transport with the ids it has seen, and the text of its cursor file. -/
structure Reader where
  seen : Finset String
  file : Option String

/-- What happens to a reader. -/
inductive ReaderOp where
  /-- A call of `receive`, under what the outside answers during it. -/
  | received (env : BuzzEnv) (limit : Option Int) (result : Except TransportExc (List PeerMessage))
  /-- A new transport is opened over the file. -/
  | reopened

/-- The messages a call returns. -/
def ReaderOp.messages : ReaderOp → List PeerMessage
  | .received _ _ (.ok messages) => messages
  | _ => []

/-- The cursor file after an effect. -/
def cursorAfter (file : Option String) : TransportEffect → Option String
  | .cursorSave eventIds => some (cursorText eventIds)
  | .get _ => file

section

variable (rt : Runtime) (cfg : BuzzConfig)

/-- A call of `receive`. -/
def Reader.receive (s : Reader) (env : BuzzEnv) (limit : Option Int) :
    Outcome TransportEffect TransportExc (Finset String) (List PeerMessage) :=
  (BuzzTransport.receive rt cfg env limit).run s.seen

/-- A transport opened over the file now starts from the ids that have been seen. A file on which the constructor raises
    opens none. -/
def Reader.Kept (s : Reader) : Prop := loadCursor rt s.file = .ok s.seen

/-- The steps of a reader. The relay may answer every call differently. -/
inductive ReaderStep : Reader → ReaderOp → Reader → Prop
  | received {s : Reader} (env : BuzzEnv) (limit : Option Int) :
      ReaderStep s (.received env limit (s.receive rt cfg env limit).result)
        ⟨(s.receive rt cfg env limit).state, (s.receive rt cfg env limit).effects.foldl cursorAfter s.file⟩
  | reopened {s : Reader} {seen : Finset String} (hopens : loadCursor rt s.file = .ok seen) :
      ReaderStep s .reopened ⟨seen, s.file⟩

/-- The runs of readers of one cursor file, whatever it holds at first. -/
abbrev ReaderRun (h : List (Event Reader ReaderOp)) (s : Reader) : Prop :=
  Run (Reader.Kept rt) (ReaderStep rt cfg) h s

end

/-! ## The rule and the condition -/

/-- In every state a new transport opens and starts from the ids seen, and no message is returned by two calls. -/
structure DedupSurvives (rt : Runtime) (h : List (Event Reader ReaderOp)) : Prop where
  kept : ∀ e ∈ h, e.before.Kept rt ∧ e.after.Kept rt
  once : ∀ (j k : Nat) (e e' : Event Reader ReaderOp), j < k → h[j]? = some e → h[k]? = some e' →
    ∀ m ∈ e.seen.messages, ∀ m' ∈ e'.seen.messages, m.messageId ≠ m'.messageId

/-- The first event under each id. -/
def firsts : List RawBuzzEvent → List RawBuzzEvent
  | [] => []
  | event :: rest => event :: (firsts rest).filter (fun e => e.id ≠ event.id)

/-- The events a call looks at, over any answer of the relay. -/
def looksAt (rt : Runtime) (cfg : BuzzConfig) (env : BuzzEnv) (limit : Option Int) (events : List RawBuzzEvent)
    (seen : Finset String) : List RawBuzzEvent :=
  reached rt cfg env (quota limit) (firsts events) seen

/-- A call looks at something new, and raises over it, fails to write the file, or has seen more than the file keeps. -/
def Loses (rt : Runtime) (cfg : BuzzConfig) (e : Event Reader ReaderOp) : Prop :=
  ∃ env limit result events, e.seen = .received env limit result ∧ env.get none = .ok events ∧
    (∀ n, limit = some n → 0 ≤ n) ∧ looksAt rt cfg env limit events e.before.seen ≠ [] ∧
      ((∃ event ∈ looksAt rt cfg env limit events e.before.seen, Poisons rt cfg env event) ∨ env.saveFails = true ∨
        10000 < (e.before.seen ∪ eventIds (looksAt rt cfg env limit events e.before.seen)).card)

section

variable {rt : Runtime} {cfg : BuzzConfig} {env : BuzzEnv} {limit : Option Int} {events : List RawBuzzEvent}
  {seen : Finset String} {s s' : Reader} {op : ReaderOp} {h : List (Event Reader ReaderOp)}

/-! ## The cursor file -/

/-- The file keeps the end of the sorted ids. -/
theorem cursorIds_eq (seen : Finset String) :
    ∃ n, cursorIds seen = (seen.sort (· ≤ ·)).drop n ∧ n = seen.card - 10000 := by
  refine ⟨seen.card - 10000, ?_, rfl⟩
  unfold cursorIds
  simp only [Finset.length_sort]

/-- **The file gives back what was seen** exactly up to ten thousand ids. -/
theorem loadCursor_cursorIds (seen : Finset String) (hlimit : rt.limit (cursorText (cursorIds seen)) = none) :
    loadCursor rt (some (cursorText (cursorIds seen))) = .ok seen ↔ seen.card ≤ 10000 := by
  obtain ⟨n, hids, hn⟩ := cursorIds_eq seen
  rw [loadCursor_cursorText hlimit, hids, Except.ok.injEq]
  constructor
  · intro h
    have hcard := List.toFinset_card_le ((seen.sort (· ≤ ·)).drop n)
    rw [h, List.length_drop, Finset.length_sort] at hcard
    omega
  · intro h
    have hzero : n = 0 := by omega
    rw [hzero, List.drop_zero, Finset.sort_toFinset]

/-! ## Answers with an event twice -/

theorem mem_map_firsts {id : String} : id ∈ (firsts events).map RawBuzzEvent.id ↔ id ∈ events.map RawBuzzEvent.id := by
  induction events with
  | nil => exact Iff.rfl
  | cons e rest ih =>
      rw [firsts, List.map_cons, List.map_cons, List.mem_cons, List.mem_cons, ← ih]
      refine or_congr_right' ?_
      intro hne
      simp only [List.mem_map, List.mem_filter, ne_eq, decide_not, Bool.not_eq_true', decide_eq_false_iff_not]
      constructor
      · rintro ⟨e', ⟨he', -⟩, rfl⟩
        exact ⟨e', he', rfl⟩
      · rintro ⟨e', he', rfl⟩
        exact ⟨e', ⟨he', hne⟩, rfl⟩

theorem nodup_firsts (events : List RawBuzzEvent) : ((firsts events).map RawBuzzEvent.id).Nodup := by
  induction events with
  | nil => exact List.nodup_nil
  | cons e rest ih =>
      rw [firsts, List.map_cons, List.nodup_cons]
      refine ⟨?_, ih.sublist (List.filter_sublist.map _)⟩
      intro hmem
      obtain ⟨e', he', hid⟩ := List.mem_map.mp hmem
      have hne := (List.mem_filter.mp he').2
      simp only [ne_eq, decide_not, Bool.not_eq_true', decide_eq_false_iff_not] at hne
      exact hne hid

/-- The loop passes over the events under an id it has seen. -/
theorem run_receiveLoop_filter {id : String} (hid : id ∈ seen) (messages : List PeerMessage) (changed : Bool) :
    (receiveLoop rt cfg env limit (events.filter (fun e => e.id ≠ id)) messages changed).run seen
      = (receiveLoop rt cfg env limit events messages changed).run seen := by
  induction events generalizing seen messages changed with
  | nil => rfl
  | cons e rest ih =>
      by_cases he : e.id = id
      · rw [List.filter_cons_of_neg (by simp [he]), run_receiveLoop_cons, if_pos (he ▸ hid)]
        exact ih hid messages changed
      · rw [List.filter_cons_of_pos (by simp [he]), run_receiveLoop_cons, run_receiveLoop_cons]
        simp only [ih hid, ih (Finset.mem_insert_of_mem hid)]

/-- **Only the first event under an id counts.** -/
theorem run_receiveLoop_firsts (messages : List PeerMessage) (changed : Bool) :
    (receiveLoop rt cfg env limit (firsts events) messages changed).run seen
      = (receiveLoop rt cfg env limit events messages changed).run seen := by
  induction events generalizing seen messages changed with
  | nil => rfl
  | cons e rest ih =>
      rw [firsts, run_receiveLoop_cons, run_receiveLoop_cons]
      by_cases hseen : e.id ∈ seen
      · rw [if_pos hseen, if_pos hseen, run_receiveLoop_filter hseen, ih]
      · rw [if_neg hseen, if_neg hseen]
        simp only [run_receiveLoop_filter (Finset.mem_insert_self e.id seen), ih]

/-! ## One call -/

/-- A loop that raises has marked something new. -/
theorem receiveLoop_marks {messages : List PeerMessage} {changed : Bool} {x : TransportExc} {seen' : Finset String}
    {es : List TransportEffect}
    (hloop : (receiveLoop rt cfg env limit events messages changed).run seen = ⟨.error x, seen', es⟩) :
    ∃ id ∈ seen', id ∉ seen := by
  induction events generalizing seen messages changed with
  | nil => cases hloop
  | cons e rest ih =>
      rw [run_receiveLoop_cons] at hloop
      by_cases hseen : e.id ∈ seen
      · rw [if_pos hseen] at hloop
        exact ih hloop
      rw [if_neg hseen] at hloop
      have hlater {messages : List PeerMessage}
          (h : (receiveLoop rt cfg env limit rest messages true).run (insert e.id seen) = ⟨.error x, seen', es⟩) :
          ∃ id ∈ seen', id ∉ seen := by
        obtain ⟨id, hmem, hnew⟩ := ih h
        exact ⟨id, hmem, fun hold => hnew (Finset.mem_insert_of_mem hold)⟩
      cases hjudge : judge rt cfg env e with
      | error x' =>
          rw [hjudge] at hloop
          cases hloop
          exact ⟨e.id, Finset.mem_insert_self _ _, hseen⟩
      | ok m =>
          rw [hjudge] at hloop
          cases m with
          | none => exact hlater hloop
          | some m =>
              simp only at hloop
              split at hloop
              · cases hloop
              · exact hlater hloop

/-- How a call ends: it looks at nothing new, it raises over what it looks at, it fails to write, or it returns. -/
inductive Ends (rt : Runtime) (cfg : BuzzConfig) (env : BuzzEnv) (limit : Option Int) (seen : Finset String) :
    Outcome TransportEffect TransportExc (Finset String) (List PeerMessage) → Prop
  | quiet {r : Except TransportExc (List PeerMessage)} {es : List TransportEffect}
      (hnothing : ∀ events, env.get none = .ok events → (∀ n, limit = some n → 0 ≤ n) →
        looksAt rt cfg env limit events seen = [])
      (hnone : ∀ messages, r = .ok messages → messages = []) (hes : ∀ x ∈ es, x = .get none) :
      Ends rt cfg env limit seen ⟨r, seen, es⟩
  | raised {events : List RawBuzzEvent} {x : TransportExc} {seen' : Finset String} (hget : env.get none = .ok events)
      (hlimit : ∀ n, limit = some n → 0 ≤ n)
      (hpoison : ∃ event ∈ looksAt rt cfg env limit events seen, Poisons rt cfg env event)
      (hmarks : ∃ id ∈ seen', id ∉ seen) : Ends rt cfg env limit seen ⟨.error x, seen', [.get none]⟩
  | unsaved {events : List RawBuzzEvent} {x : TransportExc} (hget : env.get none = .ok events)
      (hlimit : ∀ n, limit = some n → 0 ≤ n) (hscan : looksAt rt cfg env limit events seen ≠ [])
      (hsave : env.saveFails = true) :
      Ends rt cfg env limit seen ⟨.error x, seen ∪ eventIds (looksAt rt cfg env limit events seen), [.get none]⟩
  | saved {events : List RawBuzzEvent} (hget : env.get none = .ok events) (hlimit : ∀ n, limit = some n → 0 ≤ n)
      (hscan : looksAt rt cfg env limit events seen ≠ [])
      (hclean : ¬ ∃ event ∈ looksAt rt cfg env limit events seen, Poisons rt cfg env event)
      (hsave : env.saveFails = false) :
      Ends rt cfg env limit seen
        ⟨.ok ((looksAt rt cfg env limit events seen).filterMap (handout rt cfg env)),
          seen ∪ eventIds (looksAt rt cfg env limit events seen),
          [.get none, .cursorSave (cursorIds (seen ∪ eventIds (looksAt rt cfg env limit events seen)))]⟩

/-- What a call looks at is new. -/
theorem mem_looksAt {event : RawBuzzEvent} (h : event ∈ looksAt rt cfg env limit events seen) : event.id ∉ seen := by
  have hunseen := (prefix_reach _ _ _).subset h
  simpa using (List.mem_filter.mp hunseen).2

theorem run_saveCursor_fails (hpath : cfg.cursorPath.isSome = true) (hsave : env.saveFails = true) :
    (saveCursor cfg env).run seen = ⟨.error .osError, seen, []⟩ := by
  unfold saveCursor
  cases hsome : cfg.cursorPath with
  | none =>
      rw [hsome] at hpath
      cases hpath
  | some path => simp [Proc.run_bind, hsave]

/-- A call whose limit asks for events that the relay answers. -/
theorem receive_ends_answered (hpath : cfg.cursorPath.isSome = true) (seen : Finset String) {events : List RawBuzzEvent}
    (hneg : limit.any (fun n => n < 0) = false) (hlimit : ∀ n, limit = some n → 0 ≤ n) (hzero : ¬ limit = some 0)
    (hget : env.get none = .ok events) : Ends rt cfg env limit seen ((BuzzTransport.receive rt cfg env limit).run seen) := by
  unfold BuzzTransport.receive receivePeerMessages
  obtain ⟨hquota, hroom⟩ := room_nil hlimit
  have hloop := @run_receiveLoop_firsts rt cfg env limit events seen [] false
  have hscan : reached rt cfg env (room limit []) (firsts events) seen = looksAt rt cfg env limit events seen := by
    rw [hquota]
    rfl
  by_cases hpoison : ∃ event ∈ looksAt rt cfg env limit events seen, Poisons rt cfg env event
  · have hraises : ∃ e seen', (receiveLoop rt cfg env limit (firsts events) [] false).run seen
        = ⟨.error (.event e), seen', []⟩ :=
      run_receiveLoop_raises false (nodup_firsts events) (hroom hzero) (hscan ▸ hpoison)
    obtain ⟨e, seen', hraised⟩ := hraises
    rw [hraised] at hloop
    simp only [Proc.run_bind, hneg, Bool.false_eq_true, if_false, hzero, hget, Proc.run_emit, Proc.after_mk, ← hloop,
      List.append_nil]
    exact .raised hget hlimit hpoison (receiveLoop_marks hloop.symm)
  · have hclean : ∀ e ∈ reached rt cfg env (room limit []) (firsts events) seen, ¬ Poisons rt cfg env e := by
      rw [hscan]
      exact fun e he hbad => hpoison ⟨e, he, hbad⟩
    have hruns : (receiveLoop rt cfg env limit (firsts events) [] false).run seen = _ :=
      run_receiveLoop false (nodup_firsts events) (hroom hzero) hclean
    rw [hloop, hscan] at hruns
    simp only [Proc.run_bind, hneg, Bool.false_eq_true, if_false, hzero, hget, Proc.run_emit, hruns, List.nil_append,
      Bool.false_or]
    by_cases hidle : looksAt rt cfg env limit events seen = []
    · have hsame : seen ∪ eventIds [] = seen := Finset.union_empty seen
      rw [hidle, hsame]
      refine .quiet ?_ (fun _ h => (Except.ok.inj h).symm) (by simp)
      intro events' hget' _
      obtain rfl := Except.ok.inj (hget.symm.trans hget')
      exact hidle
    · have hsome : (!(looksAt rt cfg env limit events seen).isEmpty) = true := by
        rw [Bool.not_eq_true', List.isEmpty_eq_false_iff]
        exact hidle
      rw [if_pos hsome]
      cases hsave : env.saveFails with
      | true =>
          simp only [Proc.run_bind, run_saveCursor_fails hpath hsave, Proc.after_mk, List.append_nil]
          exact .unsaved hget hlimit hidle hsave
      | false =>
          simp only [Proc.run_bind, run_saveCursor hsave, if_pos hpath, Proc.run_pure, Proc.after_mk, List.append_nil]
          exact .saved hget hlimit hidle hpoison hsave

/-- **Every call ends in one of four ways.** -/
theorem receive_ends (hpath : cfg.cursorPath.isSome = true) (seen : Finset String) :
    Ends rt cfg env limit seen ((BuzzTransport.receive rt cfg env limit).run seen) := by
  by_cases hneg : limit.any (fun n => n < 0) = true
  · unfold BuzzTransport.receive receivePeerMessages
    simp only [Proc.run_bind, hneg, if_true, Proc.run_raise]
    refine .quiet ?_ nofun nofun
    intro events _ hlimit
    rw [limit_any_neg hlimit] at hneg
    cases hneg
  have hlimit : ∀ n, limit = some n → 0 ≤ n := by
    rintro n rfl
    simpa using hneg
  rw [Bool.not_eq_true] at hneg
  by_cases hzero : limit = some 0
  · subst hzero
    unfold BuzzTransport.receive receivePeerMessages
    simp only [hneg, Bool.false_eq_true, if_false, if_true, Proc.run_pure]
    exact .quiet (fun _ _ _ => reach_zero _) (fun _ h => (Except.ok.inj h).symm) nofun
  cases hget : env.get none with
  | ok events => exact receive_ends_answered hpath seen hneg hlimit hzero hget
  | error message =>
      unfold BuzzTransport.receive receivePeerMessages
      simp only [Proc.run_bind, hneg, Bool.false_eq_true, if_false, hzero, hget, Proc.run_emit, Proc.after_mk, Proc.run_raise]
      exact .quiet (fun events h => absurd (hget.symm.trans h) nofun) nofun (by simp)

/-! ## One step -/

/-- Something new has been looked at. -/
theorem exists_new (hscan : looksAt rt cfg env limit events seen ≠ []) :
    ∃ id ∈ seen ∪ eventIds (looksAt rt cfg env limit events seen), id ∉ seen := by
  obtain ⟨event, he⟩ := List.exists_mem_of_ne_nil _ hscan
  refine ⟨event.id, Finset.mem_union_right _ ?_, mem_looksAt he⟩
  exact List.mem_toFinset.mpr (List.mem_map_of_mem he)

/-- Queries leave the file alone. -/
theorem foldl_cursorAfter_get {es : List TransportEffect} (hes : ∀ x ∈ es, x = .get none) (file : Option String) :
    es.foldl cursorAfter file = file := by
  induction es with
  | nil => rfl
  | cons x es ih =>
      obtain rfl := hes x List.mem_cons_self
      exact ih fun x hx => hes x (List.mem_cons_of_mem _ hx)

/-- **A step keeps the file true** unless it loses what was looked at. -/
theorem ReaderStep.kept_iff (hreads : ∀ ids, rt.limit (cursorText ids) = none) (hpath : cfg.cursorPath.isSome = true)
    (hstep : ReaderStep rt cfg s op s') (hs : s.Kept rt) : s'.Kept rt ↔ ¬ Loses rt cfg ⟨s, op, s'⟩ := by
  have hfile {seen' : Finset String} (hnew : ∃ id ∈ seen', id ∉ s.seen) : ¬ Reader.Kept rt ⟨seen', s.file⟩ := by
    intro hkept
    obtain ⟨id, hmem, hnot⟩ := hnew
    have hsame : s.seen = seen' := Except.ok.inj (hs.symm.trans hkept)
    exact hnot (hsame ▸ hmem)
  cases hstep with
  | reopened hopens =>
      refine iff_of_true hopens ?_
      rintro ⟨_, _, _, _, hop, -⟩
      cases hop
  | received env limit =>
      have hends := @receive_ends rt cfg env limit hpath s.seen
      unfold Reader.receive
      generalize (BuzzTransport.receive rt cfg env limit).run s.seen = out at hends ⊢
      cases hends with
      | @quiet r es hnothing hnone hes =>
          refine iff_of_true ?_ ?_
          · show loadCursor rt (es.foldl cursorAfter s.file) = .ok s.seen
            rw [foldl_cursorAfter_get hes]
            exact hs
          · rintro ⟨env', limit', result, events, hop, hget, hlimit, hscan, -⟩
            cases hop
            exact hscan (hnothing events hget hlimit)
      | raised hget hlimit hpoison hmarks =>
          refine iff_of_false (hfile hmarks) (not_not.mpr ?_)
          have hscan : looksAt rt cfg env limit _ s.seen ≠ [] := List.ne_nil_of_mem hpoison.choose_spec.1
          exact ⟨env, limit, _, _, rfl, hget, hlimit, hscan, .inl hpoison⟩
      | unsaved hget hlimit hscan hsave =>
          refine iff_of_false (hfile (exists_new hscan)) (not_not.mpr ?_)
          exact ⟨env, limit, _, _, rfl, hget, hlimit, hscan, .inr (.inl hsave)⟩
      | @saved events hget hlimit hscan hclean hsave =>
          have hkept : Reader.Kept rt ⟨s.seen ∪ eventIds (looksAt rt cfg env limit events s.seen),
              some (cursorText (cursorIds (s.seen ∪ eventIds (looksAt rt cfg env limit events s.seen))))⟩ ↔ _ :=
            loadCursor_cursorIds (s.seen ∪ eventIds (looksAt rt cfg env limit events s.seen)) (hreads _)
          refine hkept.trans ⟨?_, ?_⟩
          · rintro hcard ⟨env', limit', result, events', hop, hget', -, -, hwhy⟩
            cases hop
            obtain rfl := Except.ok.inj (hget.symm.trans hget')
            rcases hwhy with hpoison | hfails | hmany
            · exact hclean hpoison
            · rw [hsave] at hfails
              cases hfails
            · exact absurd hcard (Nat.not_le.mpr hmany)
          · intro hnot
            by_contra hmany
            exact hnot ⟨env, limit, _, events, rfl, hget, hlimit, hscan, .inr (.inr (Nat.not_le.mp hmany))⟩

/-- A new transport over a file that is true has seen the same ids. -/
theorem Reader.Kept.reopened (hs : s.Kept rt) : ReaderStep rt cfg s .reopened s := .reopened hs

/-- The messages a call returns are new, and their ids are seen from then on. -/
theorem ReaderStep.fresh (hpath : cfg.cursorPath.isSome = true) (hstep : ReaderStep rt cfg s op s') {m : PeerMessage}
    (hm : m ∈ op.messages) : m.messageId ∉ s.seen ∧ m.messageId ∈ s'.seen := by
  cases hstep with
  | reopened => cases hm
  | received env limit =>
      have hends := @receive_ends rt cfg env limit hpath s.seen
      unfold Reader.receive at hm ⊢
      generalize (BuzzTransport.receive rt cfg env limit).run s.seen = out at hends hm ⊢
      cases hends with
      | @quiet r es _ hnone _ =>
          cases r with
          | error x => cases hm
          | ok messages =>
              rw [hnone messages rfl] at hm
              cases hm
      | raised _ _ _ _ | unsaved _ _ _ _ => cases hm
      | saved _ _ _ _ _ =>
          obtain ⟨event, he, hout⟩ := List.mem_filterMap.mp hm
          rw [handout_messageId _ _ _ hout]
          exact ⟨mem_looksAt he, Finset.mem_union_right _ (List.mem_toFinset.mpr (List.mem_map_of_mem he))⟩

/-- What has been seen stays seen, when nothing is lost. -/
theorem ReaderStep.grows (hpath : cfg.cursorPath.isSome = true) (hstep : ReaderStep rt cfg s op s') (hs : s.Kept rt)
    (hnot : ¬ Loses rt cfg ⟨s, op, s'⟩) : s.seen ⊆ s'.seen := by
  cases hstep with
  | reopened hopens => exact (Except.ok.inj (hs.symm.trans hopens)).subset
  | received env limit =>
      have hends := @receive_ends rt cfg env limit hpath s.seen
      unfold Reader.receive at hnot ⊢
      generalize (BuzzTransport.receive rt cfg env limit).run s.seen = out at hends hnot ⊢
      cases hends with
      | quiet _ _ _ => exact Finset.Subset.refl _
      | raised hget hlimit hpoison _ =>
          have hscan : looksAt rt cfg env limit _ s.seen ≠ [] := List.ne_nil_of_mem hpoison.choose_spec.1
          exact absurd ⟨env, limit, _, _, rfl, hget, hlimit, hscan, .inl hpoison⟩ hnot
      | unsaved _ _ _ _ | saved _ _ _ _ _ => exact Finset.subset_union_left

/-! ## Runs -/

/-- The file is true in every state of a run in which nothing is lost. -/
theorem ReaderRun.kept (hreads : ∀ ids, rt.limit (cursorText ids) = none) (hpath : cfg.cursorPath.isSome = true)
    (hrun : Run (Reader.Kept rt) (fun s op s' => ReaderStep rt cfg s op s' ∧ ¬ Loses rt cfg ⟨s, op, s'⟩) h s) :
    s.Kept rt := by
  refine hrun.invariant (fun _ hopened => hopened) ?_
  rintro s op s' hs ⟨hstep, hnot⟩
  exact (hstep.kept_iff hreads hpath hs).mpr hnot

end

namespace Sample

/-- A transport with a cursor file. -/
def filedBuzz : BuzzConfig := ⟨"channel", some "cursor.json", none, buzz.channel_some⟩

/-- A relay that always answers these events. -/
def answeringRelay (events : List RawBuzzEvent) : BuzzEnv := ⟨fun _ => .ok events, fun _ => 0, false⟩

/-- A transport without a cursor file so far. -/
def unfiled : Reader := ⟨∅, none⟩

/-- Its first call. -/
def firstCall (events : List RawBuzzEvent) : Event Reader ReaderOp :=
  let out := unfiled.receive runtime filedBuzz (answeringRelay events) none
  ⟨unfiled, .received (answeringRelay events) none out.result, ⟨out.state, out.effects.foldl cursorAfter none⟩⟩

theorem firstCall_step (events : List RawBuzzEvent) :
    ReaderStep runtime filedBuzz unfiled (firstCall events).seen (firstCall events).after :=
  .received (answeringRelay events) none

theorem firstCall_run (events : List RawBuzzEvent) :
    ReaderRun runtime filedBuzz [firstCall events] (firstCall events).after :=
  (Run.nil rfl : ReaderRun runtime filedBuzz [] unfiled).snoc (firstCall_step events)

/-- Events of another kind, with ids of their own. -/
def flood (n : Nat) : List RawBuzzEvent :=
  (List.range n).map fun k => ⟨String.ofList (List.replicate k 'a'), "", 1, "", [], 0⟩

theorem card_flood (n : Nat) : (eventIds (flood n)).card = n := by
  have hids : (flood n).map RawBuzzEvent.id = (List.range n).map fun k => String.ofList (List.replicate k 'a') := by
    rw [flood, List.map_map]
    rfl
  have hinj : Function.Injective fun k => String.ofList (List.replicate k 'a') := by
    intro j k hjk
    have hchars : List.replicate j 'a' = List.replicate k 'a' := String.ofList_injective hjk
    have hlen := congrArg List.length hchars
    rwa [List.length_replicate, List.length_replicate] at hlen
  unfold eventIds
  rw [hids, List.toFinset_card_of_nodup (List.nodup_range.map hinj), List.length_map, List.length_range]

/-- A call without a limit looks at every id. -/
theorem eventIds_looksAt (events : List RawBuzzEvent) :
    eventIds (looksAt runtime filedBuzz (answeringRelay events) none events ∅) = eventIds events := by
  have hall : looksAt runtime filedBuzz (answeringRelay events) none events ∅ = firsts events :=
    List.filter_eq_self.mpr (by simp)
  rw [hall]
  unfold eventIds
  ext id
  rw [List.mem_toFinset, List.mem_toFinset, mem_map_firsts]

/-- The ids seen after the first call are those of the answer. -/
theorem card_firstCall (events : List RawBuzzEvent) :
    ((firstCall events).before.seen ∪
      eventIds (looksAt runtime filedBuzz (answeringRelay events) none events (firstCall events).before.seen)).card
      = (eventIds events).card := by
  have hnone : (firstCall events).before.seen = ∅ := rfl
  rw [hnone, eventIds_looksAt, Finset.empty_union]

def onceEvent : RawBuzzEvent := intentEvent "once" "x"

theorem looksAt_once {event : RawBuzzEvent} {seen : Finset String}
    (h : event ∈ looksAt runtime filedBuzz (answeringRelay [onceEvent]) none [onceEvent] seen) : event = onceEvent := by
  unfold looksAt reached at h
  exact List.mem_singleton.mp (List.mem_of_mem_filter ((prefix_reach _ _ _).subset h))

theorem not_poisons_onceEvent : ¬ Poisons runtime filedBuzz (answeringRelay [onceEvent]) onceEvent := by
  rintro ⟨x, hx⟩
  have hjudge : judge runtime filedBuzz (answeringRelay [onceEvent]) onceEvent
      = .ok (some (peerMessage onceEvent (.intent (intent "x" 100)))) := by
    have hvalid : validateReceivedEvent runtime onceEvent "channel" 0 = _ := validate_intentEvent "once" "x"
    unfold judge
    rw [if_neg nofun, show filedBuzz.channel = "channel" from rfl, show (answeringRelay [onceEvent]).clock onceEvent = 0 from rfl,
      hvalid]
  rw [hjudge] at hx
  cases hx

/-- The one message is neither poison nor more than the file keeps. -/
theorem not_loses_once : ¬ Loses runtime filedBuzz (firstCall [onceEvent]) := by
  rintro ⟨env, limit, result, events, hop, hget, -, -, hwhy⟩
  cases hop
  obtain rfl := Except.ok.inj hget
  rcases hwhy with ⟨event, hlooked, hpoison⟩ | hfails | hmany
  · exact not_poisons_onceEvent (looksAt_once hlooked ▸ hpoison)
  · cases hfails
  · rw [card_firstCall] at hmany
    exact absurd hmany (by decide)

end Sample

end HermesPayments
