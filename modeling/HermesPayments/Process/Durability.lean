import HermesPayments.Policy.Runs
import HermesPayments.Process.Node

/-!
# `HermesPayments.Process.Durability` — what the files hold, at every crash point

Three assertions, each stronger than the one before. `Durable` is about the files alone and holds wherever a
process is cut short: the snapshot holds consistent records of intents the store knows, and a dispatched
intent is past dispatch in the snapshot, unless its dispatch is still pending. `Live` adds the state of a
running process, `Idle` that no dispatch is pending.

They are relative to the intents `lost` so far, those whose dispatch a kill has hidden from the snapshot, and
about those nothing is promised. `unread` are the intents that a recovery has not read back yet.

`crash_call` is the rule of one call of the policy engine, whatever the call is.
-/

namespace HermesPayments

open Lib PaymentState

/-! ## The world, watched -/

/-- The world, with the dispatch that no snapshot has recorded yet. -/
structure Watched where
  world   : World
  pending : Option String

namespace Watched

def apply (t : Watched) (w : ProcessEffect) : Watched := ⟨t.world.apply w, openAfter t.pending w⟩

theorem applyAll_eq (t : Watched) (es : List ProcessEffect) :
    applyAll apply t es = ⟨t.world.after es, applyAll openAfter t.pending es⟩ := by
  induction es generalizing t with
  | nil => rfl
  | cons w es ih => exact ih _

/-- The effects of the policy engine leave the snapshot alone: the store file has the last content saved, and
    the dispatches are counted. -/
theorem applyAll_policy (t : Watched) (es : List Effect) : ∃ audit,
    applyAll (fun t w => apply t (.peer (.policy w))) t es =
      ⟨{ t.world with
          store := (saves es).getLast?.getD t.world.store
          audit := audit
          dispatched := t.world.dispatched ++ (dispatches es).map Prod.fst },
        ((dispatches es).map Prod.fst).getLast?.or t.pending⟩ := by
  induction es generalizing t with
  | nil => exact ⟨t.world.audit, by simp [saves, dispatches]⟩
  | cons w es ih =>
      obtain ⟨audit, heq⟩ := ih (apply t (.peer (.policy w)))
      refine ⟨audit, ?_⟩
      rw [applyAll_cons, heq]
      cases w with
      | storeSave content =>
          have hsaves : saves (.storeSave content :: es) = content :: saves es := rfl
          rw [hsaves, List.getLast?_cons]
          rfl
      | executeCall id payload hash =>
          have hdisp : dispatches (.executeCall id payload hash :: es)
              = (id, payload, hash) :: dispatches es := rfl
          rw [hdisp, List.map_cons, List.getLast?_cons]
          simp only [apply, World.apply, openAfter, List.append_assoc, List.singleton_append, mk.injEq]
          refine ⟨rfl, ?_⟩
          cases ((dispatches es).map Prod.fst).getLast? <;> rfl
      | auditAppend _ | prepareCall _ _ _ _ _ | verifyCall _ _ _ _ | reconcileCall _ _ _ _ => rfl

end Watched

/-- The inbox in the snapshot file. -/
def World.inbox (w : World) : List PeerMessage := w.snapshot.elim [] ProcessSnapshot.inbox

/-! ## The assertions -/

section

variable (lost : String → Prop)

/-- What the files hold at every moment. -/
structure Durable (t : Watched) : Prop where
  records : ∀ id d, t.world.record? id = some d →
    d.restore.Consistent id ∧ t.world.store.hasIntent id = true
  inbox   : (t.world.inbox.map PeerMessage.messageId).Nodup
  once    : ∀ id, ¬ lost id → t.world.dispatched.count id ≤ 1
  known   : ∀ id, ¬ lost id → id ∈ t.world.dispatched → t.world.store.hasIntent id = true
  spent   : ∀ id, ¬ lost id → id ∈ t.world.dispatched →
    t.pending = some id ∨ ∃ d, t.world.record? id = some d ∧ d.state.spent = true

/-- … and what a running process holds in memory. -/
structure Live (unread : String → Prop) (file : Option ProcessSnapshot) (o : PaymentOrchestrator)
    (t : Watched) : Prop extends Durable lost t where
  store      : o.store = t.world.store
  consistent : o.Consistent
  file       : file = t.world.snapshot
  memory     : ∀ id, ¬ lost id → id ∈ t.world.dispatched → ¬ unread id →
    ∃ r, o.record? id = some r ∧ r.state.spent = true

/-- … while no dispatch is pending. -/
structure Idle (unread : String → Prop) (file : Option ProcessSnapshot) (o : PaymentOrchestrator)
    (t : Watched) : Prop extends Live lost unread file o t where
  pending : t.pending = none

end

section

variable {lost unread : String → Prop} {file : Option ProcessSnapshot} {o o' : PaymentOrchestrator}
  {t : Watched}

/-! ## One call -/

/-- The store may grow and one payment be dispatched, if it is the intent's first. -/
theorem Durable.dispatch (h : Durable lost t) (hidle : t.pending = none) (audit : AuditFile)
    {store : IdempotencyStore} (hgrow : ∀ id, t.world.store.hasIntent id = true → store.hasIntent id = true)
    {ids : List String} (hids : ids = [] ∨ ∃ id, ids = [id] ∧ store.hasIntent id = true ∧
      (¬ lost id → id ∉ t.world.dispatched)) :
    Durable lost ⟨{ t.world with store := store, audit := audit, dispatched := t.world.dispatched ++ ids },
      ids.getLast?.or t.pending⟩ := by
  rcases hids with rfl | ⟨id, rfl, hknown, hfirst⟩
  · simp only [List.append_nil, List.getLast?_nil, Option.none_or]
    exact ⟨fun j d hd => ⟨(h.records j d hd).1, hgrow j (h.records j d hd).2⟩, h.inbox, h.once,
      fun j hj hmem => hgrow j (h.known j hj hmem), h.spent⟩
  · refine ⟨fun j d hd => ⟨(h.records j d hd).1, hgrow j (h.records j d hd).2⟩, h.inbox, ?_, ?_, ?_⟩
    · intro j hj
      show (t.world.dispatched ++ [id]).count j ≤ 1
      rw [List.count_append]
      by_cases hji : id = j
      · subst hji
        rw [List.count_eq_zero.mpr (hfirst hj), List.count_singleton_self]
      · rw [List.count_singleton, if_neg (by simpa using hji)]
        exact h.once j hj
    · intro j hj hmem
      rcases List.mem_append.mp hmem with hmem | hmem
      · exact hgrow j (h.known j hj hmem)
      · rw [List.mem_singleton.mp hmem]
        exact hknown
    · intro j hj hmem
      rcases List.mem_append.mp hmem with hmem | hmem
      · rcases h.spent j hj hmem with hpending | hspent
        · rw [hidle] at hpending
          cases hpending
        · exact .inr hspent
      · rw [List.mem_singleton.mp hmem]
        exact .inl rfl

/-- The saves and the dispatches of a prefix of the effects of a call. -/
theorem saves_dispatches_take {cfg : Config} {env : Env} {op : Op} {res : Except Exc Answer} {es : List Effect}
    (h : Step cfg env o op res o' es) (hpath : cfg.storePath.isSome = true) (hsave : env.saves cfg)
    (k : Nat) :
    ((saves (es.take k)).getLast?.getD o.store = o.store ∨
        (saves (es.take k)).getLast?.getD o.store = o'.store) ∧
      (dispatches (es.take k) = [] ∨ dispatches (es.take k) = dispatches es) := by
  have hpre : (es.take k).Sublist es := List.take_sublist k es
  have hsub : (saves (es.take k)).Sublist (saves es) := hpre.filterMap _
  have hsub' : (dispatches (es.take k)).Sublist (dispatches es) := hpre.filterMap _
  constructor
  · rcases h.saves hpath hsave with ⟨hnone, _⟩ | hone
    · rw [hnone] at hsub
      rw [List.sublist_nil.mp hsub]
      exact .inl rfl
    · rw [hone] at hsub
      rcases List.sublist_singleton.mp hsub with hs | hs
      · rw [hs]; exact .inl rfl
      · rw [hs]; exact .inr rfl
  · rcases h.dispatches with hnone | ⟨_, _, _, _, _, _, hone⟩
    · rw [hnone] at hsub'
      exact .inl (List.sublist_nil.mp hsub')
    · rw [hone] at hsub' ⊢
      exact List.sublist_singleton.mp hsub'

/-- **One call of the policy engine**: the files are in order wherever it is cut short, and the process is
    live when it ends. -/
theorem crash_call {cfg : Config} {env : Env} (hpath : cfg.storePath.isSome = true) (hsave : env.saves cfg)
    (op : Op) (hop : (∀ id, ¬ unread id) ∨ op ≠ .execute) :
    Crash (fun t w => Watched.apply t (.peer (.policy w))) (Durable lost) (Idle lost unread file)
      (call cfg env op) (fun _ o t => Live lost unread file o t ∧ (op ≠ .execute → t.pending = none)) := by
  intro o t h
  generalize hrun : (call cfg env op).run o = out
  obtain ⟨res, o', es⟩ := out
  have hcall : Calls cfg o ⟨op, env, res, es⟩ o' := hrun
  have hstep : Step cfg env o op res o' es := hcall.step
  have hstore : t.world.store = o.store := h.store.symm
  have hgrow (id : String) (hid : t.world.store.hasIntent id = true) : o'.store.hasIntent id = true := by
    rw [hstore] at hid
    exact hstep.store_change.hasIntent hid
  -- a call dispatches nothing, or an approved intent, which has not been dispatched before
  have hids : (dispatches es).map Prod.fst = [] ∨ ∃ id, (dispatches es).map Prod.fst = [id] ∧
      t.world.store.hasIntent id = true ∧ (¬ lost id → id ∉ t.world.dispatched) := by
    rcases hstep.dispatches with hnone | ⟨hexec, id, r, prep, hfirst, _, hone⟩
    · rw [hnone]; exact .inl rfl
    · obtain ⟨hr, hstate⟩ := PaymentOrchestrator.record?_of_firstIn hfirst
      refine .inr ⟨id, by rw [hone]; rfl, ?_, fun hlost hmem => ?_⟩
      · rw [hstore]
        exact h.consistent.known id r hr
      · have hread : ¬ unread id := hop.elim (fun hall => hall id) (fun hne => absurd hexec hne)
        obtain ⟨r', hr', hspent⟩ := h.memory id hlost hmem hread
        rw [hr] at hr'
        cases hr'
        rw [hstate] at hspent
        cases hspent
  refine ⟨fun k => ?_, ?_, ?_⟩
  · -- cut short
    obtain ⟨audit, heq⟩ := t.applyAll_policy (es.take k)
    obtain ⟨hsaves, hdisp⟩ := saves_dispatches_take hstep hpath hsave k
    rw [heq, hstore]
    have hgrow' (id : String) (hid : t.world.store.hasIntent id = true) :
        ((saves (es.take k)).getLast?.getD o.store).hasIntent id = true := by
      rcases hsaves with hs | hs
      · rw [hs, ← hstore]; exact hid
      · rw [hs]; exact hgrow id hid
    refine h.toDurable.dispatch h.pending _ hgrow' ?_
    rcases hdisp with hnone | hall
    · rw [hnone]; exact .inl rfl
    · rw [hall]
      rcases hids with hnone | ⟨id, hone, hknown, hfirst⟩
      · exact .inl hnone
      · exact .inr ⟨id, hone, hgrow' id hknown, hfirst⟩
  · -- at the end
    obtain ⟨audit, heq⟩ := t.applyAll_policy es
    have hlast : (saves es).getLast?.getD t.world.store = o'.store := by
      rcases hstep.saves hpath hsave with ⟨hnone, hsame⟩ | hone
      · rw [hnone, hsame, hstore]; rfl
      · rw [hone]; rfl
    rw [heq, hlast]
    have hdurable : Durable lost _ := h.toDurable.dispatch h.pending audit hgrow
      (hids.imp_right fun ⟨id, hone, hknown, hfirst⟩ => ⟨id, hone, hgrow id hknown, hfirst⟩)
    refine ⟨hdurable, rfl, hcall.consistent h.consistent, h.file, ?_⟩
    intro id hlost hmem hread
    rcases List.mem_append.mp hmem with hmem | hmem
    · obtain ⟨r, hr, hspent⟩ := h.memory id hlost hmem hread
      obtain ⟨r', hr', hrec⟩ := hcall.record_step h.consistent hr
      exact ⟨r', hr', hrec.spent hspent⟩
    · obtain ⟨⟨id', payload, hash⟩, hdisp, rfl⟩ := List.mem_map.mp hmem
      exact hstep.dispatch_spent hdisp
  · -- only `execute` dispatches
    intro hne
    obtain ⟨audit, heq⟩ := t.applyAll_policy es
    rw [heq]
    rcases hstep.dispatches with hnone | ⟨hexec, _⟩
    · rw [hnone]; exact h.pending
    · exact absurd hexec hne

end

end HermesPayments
