import HermesPayments.Policy.Runs
import HermesPayments.Store.File

/-!
# `HermesPayments.Store.Correctness.Persistence` — the store in memory against its file

The idempotency store exists to survive a restart: what it answers should be what a new store on the same path would
answer. Each `record_*` method changes the collections in memory first and saves them afterwards, so a save that fails
leaves memory ahead of the file. So the two match at every point of a run exactly when every save that fails is one of a
record that memory held already (`memory_matches_file_iff`).
-/

namespace HermesPayments

open Lib

/-! ## Calls on a store -/

/-- The methods that record something. -/
inductive StoreOp where
  | recordIntent (intentId : String)
  | recordApproval (intentId quoteId preparedHash : String)
  | recordReceipt (intentId settlementRef : String)

/-- The call, as the policy core makes it. -/
def StoreOp.call (cfg : Config) (env : Env) : StoreOp → Policy Unit
  | .recordIntent intentId                         => HermesPayments.recordIntent cfg env intentId
  | .recordApproval intentId quoteId preparedHash => HermesPayments.recordApproval cfg env intentId quoteId preparedHash
  | .recordReceipt intentId settlementRef          => HermesPayments.recordReceipt cfg env intentId settlementRef

/-- What the call makes of the collections in memory. -/
def StoreOp.apply (s : IdempotencyStore) : StoreOp → IdempotencyStore
  | .recordIntent intentId                         => s.addIntent intentId
  | .recordApproval intentId quoteId preparedHash => s.addApproval intentId quoteId preparedHash
  | .recordReceipt intentId settlementRef          => s.addReceipt intentId settlementRef

/-- The store holds the record already. -/
def StoreOp.Held (s : IdempotencyStore) : StoreOp → Prop
  | .recordIntent intentId                         => s.hasIntent intentId = true
  | .recordApproval intentId quoteId preparedHash => s.hasApproval intentId quoteId preparedHash = true
  | .recordReceipt intentId settlementRef          => s.getReceipt intentId = some settlementRef

/-- A store and the content of its file, if that exists. -/
structure OpenStore where
  memory : IdempotencyStore
  file   : Option String

/-- The content of the file after the effects of a call. -/
def fileAfter (file : Option String) : List Effect → Option String
  | []                       => file
  | .storeSave content :: es => fileAfter (some content.fileText) es
  | _ :: es                  => fileAfter file es

/-- What is seen of a step: a call with its result, or a new store on the same path. -/
inductive StoreAct where
  | called (op : StoreOp) (result : Except Exc Unit)
  | reopened

section

variable (cfg : Config) (readFloat : String → PyFloat)

/-- A store that was just opened over its file. -/
def Opened (d : OpenStore) : Prop := IdempotencyStore.load readFloat d.file = some d.memory

/-- The steps of a store. -/
inductive StoreStep : OpenStore → StoreAct → OpenStore → Prop
  | called (d : OpenStore) (env : Env) (op : StoreOp) :
      StoreStep d (.called op ((op.call cfg env).run (.init d.memory 0)).result)
        ⟨((op.call cfg env).run (.init d.memory 0)).state.store,
          fileAfter d.file ((op.call cfg env).run (.init d.memory 0)).effects⟩
  | reopened {d d' : OpenStore} (hfile : d'.file = d.file) (hopened : Opened readFloat d') : StoreStep d .reopened d'

abbrev StoreHistory := List (Event OpenStore StoreAct)

/-- The runs of a store, from whatever file it finds. -/
abbrev StoreRun (h : StoreHistory) (d : OpenStore) : Prop := Run (Opened readFloat) (StoreStep cfg readFloat) h d

/-- The store answers as a new one on the same path would. -/
def OpenStore.MatchesFile (d : OpenStore) : Prop :=
  ∃ fresh, IdempotencyStore.load readFloat d.file = some fresh ∧ d.memory.Agrees fresh

/-- The store matches its file before and after every step. -/
def AlwaysMatches (h : StoreHistory) (d : OpenStore) : Prop :=
  d.MatchesFile readFloat ∧ ∀ e ∈ h, e.before.MatchesFile readFloat ∧ e.after.MatchesFile readFloat

end

/-- The step is no failed call, or one of a record that the store held. -/
def OnlyHeldFails (e : Event OpenStore StoreAct) : Prop :=
  ∀ op x, e.seen = .called op (.error x) → op.Held e.before.memory

section

variable {cfg : Config} {readFloat : String → PyFloat} {d d' : OpenStore} {act : StoreAct} {h : StoreHistory}

/-! ## One call -/

/-- A call whose save succeeds leaves memory and file with the record. -/
theorem StoreOp.run_call_ok {env : Env} {o : PaymentOrchestrator} (op : StoreOp) (hsave : env.saves cfg) :
    (op.call cfg env).run o = ⟨.ok (), o.withStore (op.apply o.store), cfg.saved (op.apply o.store)⟩ := by
  cases op with
  | recordIntent i => exact run_record_ok _ hsave
  | recordApproval i q p => exact run_record_ok _ hsave
  | recordReceipt i ref => exact run_record_ok _ hsave

/-- A call whose save fails leaves the record in memory. -/
theorem StoreOp.run_call_error {env : Env} {o : PaymentOrchestrator} (op : StoreOp) (hsave : ¬ env.saves cfg) :
    (op.call cfg env).run o = ⟨.error .osError, o.withStore (op.apply o.store), []⟩ := by
  cases op with
  | recordIntent i => exact run_record_error _ hsave
  | recordApproval i q p => exact run_record_error _ hsave
  | recordReceipt i ref => exact run_record_error _ hsave

/-- **What a step does**: a saved record, a record that is only in memory, or a new store. -/
theorem StoreStep.cases (hpath : cfg.storePath.isSome = true) (hstep : StoreStep cfg readFloat d act d') :
    (∃ op, act = .called op (.ok ()) ∧ d' = ⟨op.apply d.memory, some (op.apply d.memory).fileText⟩) ∨
    (∃ op, act = .called op (.error .osError) ∧ d' = ⟨op.apply d.memory, d.file⟩) ∨
    (act = .reopened ∧ Opened readFloat d') := by
  cases hstep with
  | called env op =>
      by_cases hsave : env.saves cfg
      · rw [op.run_call_ok hsave, Config.saved, if_pos hpath]
        exact .inl ⟨op, rfl, rfl⟩
      · rw [op.run_call_error hsave]
        exact .inr (.inl ⟨op, rfl, rfl⟩)
  | reopened _ hopened => exact .inr (.inr ⟨rfl, hopened⟩)

/-- A record changes no answer exactly when the store held it. -/
theorem StoreOp.agrees_apply_iff (s : IdempotencyStore) (op : StoreOp) : (op.apply s).Agrees s ↔ op.Held s := by
  cases op with
  | recordIntent i =>
      constructor
      · intro h
        rw [StoreOp.Held, ← h.intent i]
        simp [StoreOp.apply, IdempotencyStore.hasIntent]
      · intro hheld
        have hmem : i ∈ s.intents := by simpa [StoreOp.Held, IdempotencyStore.hasIntent] using hheld
        exact IdempotencyStore.agrees_of_eq (Finset.insert_eq_of_mem hmem) rfl fun _ => rfl
  | recordApproval i q p =>
      constructor
      · intro h
        rw [StoreOp.Held, ← h.approval i q p]
        simp [StoreOp.apply, IdempotencyStore.hasApproval]
      · intro hheld
        have hmem : IdempotencyStore.approvalKey i q p ∈ s.approvals := by
          simpa [StoreOp.Held, IdempotencyStore.hasApproval] using hheld
        exact IdempotencyStore.agrees_of_eq rfl (Finset.insert_eq_of_mem hmem) fun _ => rfl
  | recordReceipt i ref =>
      constructor
      · intro h
        rw [StoreOp.Held, ← h.getReceipt i]
        exact Dict.get?_set_self _ _ _
      · intro hheld
        refine IdempotencyStore.agrees_of_eq rfl rfl fun j => ?_
        show (s.receipts.set i ref).get? j = _
        rw [Dict.get?_set]
        split
        · next hj =>
            subst hj
            exact hheld.symm
        · rfl

/-! ## Memory and file -/

theorem Opened.matches (h : Opened readFloat d) : d.MatchesFile readFloat := ⟨d.memory, h, .refl _⟩

/-- A saved store matches its file. -/
theorem matches_saved (s : IdempotencyStore) : (OpenStore.mk s (some s.fileText)).MatchesFile readFloat := by
  obtain ⟨fresh, hload, hagrees⟩ := s.load_fileText readFloat
  exact ⟨fresh, hload, hagrees.symm⟩

/-- Over a file that matched, other collections match exactly when they answer alike. -/
theorem OpenStore.MatchesFile.change_iff (hmatch : d.MatchesFile readFloat) (s : IdempotencyStore) :
    (OpenStore.mk s d.file).MatchesFile readFloat ↔ s.Agrees d.memory := by
  obtain ⟨fresh, hload, hagrees⟩ := hmatch
  constructor
  · rintro ⟨fresh', hload', hagrees'⟩
    obtain rfl := Option.some.inj (hload.symm.trans hload')
    exact hagrees'.trans hagrees.symm
  · intro h
    exact ⟨fresh, hload, h.trans hagrees⟩

/-- **One step keeps the match** exactly when it is no failed call, or one of a record that the store held. -/
theorem StoreStep.matches_iff (hpath : cfg.storePath.isSome = true) (hstep : StoreStep cfg readFloat d act d')
    (hmatch : d.MatchesFile readFloat) : d'.MatchesFile readFloat ↔ OnlyHeldFails ⟨d, act, d'⟩ := by
  rcases hstep.cases hpath with ⟨op, rfl, rfl⟩ | ⟨op, rfl, rfl⟩ | ⟨rfl, hopened⟩
  · exact iff_of_true (matches_saved _) fun _ _ hseen => by cases hseen
  · rw [hmatch.change_iff, op.agrees_apply_iff]
    constructor
    · rintro hheld op' x hseen
      cases hseen
      exact hheld
    · intro hguard
      exact hguard op .osError rfl
  · exact iff_of_true hopened.matches fun _ _ hseen => by cases hseen

end

/-- **Memory matches the file** at every point of a run exactly when no save fails but that of a record which the store
    held already. -/
theorem memory_matches_file_iff {cfg : Config} {readFloat : String → PyFloat} {h : StoreHistory} {d : OpenStore}
    (hpath : cfg.storePath.isSome = true) (hrun : StoreRun cfg readFloat h d) :
    AlwaysMatches readFloat h d ↔ ∀ e ∈ h, OnlyHeldFails e := by
  induction hrun with
  | nil hopened =>
      exact iff_of_true ⟨hopened.matches, fun _ he => absurd he List.not_mem_nil⟩ fun _ he => absurd he List.not_mem_nil
  | @snoc h d d' act hrun hstep ih =>
      constructor
      · rintro ⟨hlast, hall⟩ e he
        obtain ⟨hbefore, _⟩ := hall ⟨d, act, d'⟩ (List.mem_append_right _ List.mem_cons_self)
        rcases List.mem_append.mp he with hpast | hnow
        · exact ih.mp ⟨hbefore, fun e he => hall e (List.mem_append_left _ he)⟩ e hpast
        · obtain rfl := List.mem_singleton.mp hnow
          exact (hstep.matches_iff hpath hbefore).mp hlast
      · intro hguard
        obtain ⟨hbefore, hpast⟩ := ih.mpr fun e he => hguard e (List.mem_append_left _ he)
        have hafter := (hstep.matches_iff hpath hbefore).mpr (hguard _ (List.mem_append_right _ List.mem_cons_self))
        refine ⟨hafter, fun e he => ?_⟩
        rcases List.mem_append.mp he with hpast' | hnow
        · exact hpast e hpast'
        · obtain rfl := List.mem_singleton.mp hnow
          exact ⟨hbefore, hafter⟩

/-! ## A store with a file -/

namespace Sample

def storedConfig : Config := { config with storePath := some storePath }

/-- One call on a store. -/
def storeCallOn (d : OpenStore) (saveFails : Bool) (op : StoreOp) : Event OpenStore StoreAct :=
  let out := (op.call storedConfig { env 0 paid with saveFails := saveFails }).run (.init d.memory 0)
  ⟨d, .called op out.result, ⟨out.state.store, fileAfter d.file out.effects⟩⟩

/-- … whose file does not exist yet. -/
def storeCall (saveFails : Bool) (op : StoreOp) : Event OpenStore StoreAct := storeCallOn ⟨.empty, none⟩ saveFails op

theorem run_storeCallOn {h : StoreHistory} {d : OpenStore} (hrun : StoreRun storedConfig (fun _ => .nan) h d)
    (saveFails : Bool) (op : StoreOp) :
    StoreRun storedConfig (fun _ => .nan) (h ++ [storeCallOn d saveFails op]) (storeCallOn d saveFails op).after :=
  hrun.snoc (.called d { env 0 paid with saveFails := saveFails } op)

theorem run_storeCall (saveFails : Bool) (op : StoreOp) :
    StoreRun storedConfig (fun _ => .nan) [storeCall saveFails op] (storeCall saveFails op).after := by
  have h0 : StoreRun storedConfig (fun _ => .nan) [] ⟨.empty, none⟩ := .nil rfl
  exact run_storeCallOn h0 saveFails op

end Sample

/-- An intent id whose save fails stays in memory. -/
theorem memory_ahead_of_file : ¬ ∀ (cfg : Config) (readFloat : String → PyFloat) (h : StoreHistory) (d : OpenStore),
    cfg.storePath.isSome = true → StoreRun cfg readFloat h d → d.MatchesFile readFloat := by
  intro hall
  obtain ⟨fresh, hload, hagrees⟩ := hall _ _ _ _ rfl (Sample.run_storeCall true (.recordIntent "i"))
  obtain rfl : IdempotencyStore.empty = fresh := Option.some.inj hload
  exact absurd (hagrees.intent "i") (by decide)

/-- A save that succeeds, one of the same intent id that fails, and a new store on the same path. -/
theorem memory_matches_file_intent : ∃ (h : StoreHistory) (d : OpenStore),
    StoreRun Sample.storedConfig (fun _ => .nan) h d ∧
      h.map Event.seen = [.called (.recordIntent "i") (.ok ()), .called (.recordIntent "i") (.error .osError), .reopened] ∧
      d.memory.hasIntent "i" = true ∧ AlwaysMatches (fun _ => .nan) h d := by
  let saved := Sample.storeCall false (.recordIntent "i")
  let failed := Sample.storeCallOn saved.after true (.recordIntent "i")
  have hrun := Sample.run_storeCallOn (Sample.run_storeCall false (.recordIntent "i")) true (.recordIntent "i")
  obtain ⟨fresh, hload, hagrees⟩ := saved.after.memory.load_fileText fun _ => .nan
  have hopens : StoreStep Sample.storedConfig (fun _ => .nan) failed.after .reopened ⟨fresh, failed.after.file⟩ :=
    .reopened rfl hload
  have hreopened := hrun.snoc hopens
  refine ⟨_, _, hreopened, rfl, ?_, (memory_matches_file_iff rfl hreopened).mpr ?_⟩
  · exact (hagrees.intent "i").trans (by decide)
  · intro e he op x hseen
    rcases List.mem_append.mp he with he | he
    · rcases List.mem_pair.mp he with rfl | rfl
      · cases hseen
      · -- the id is held
        cases hseen
        show saved.after.memory.hasIntent "i" = true
        decide
    · obtain rfl := List.mem_singleton.mp he
      cases hseen

end HermesPayments
