import HermesPayments.Wavelength.Correctness.Agreement

/-!
# `HermesPayments.Wavelength.Correctness.Envelopes` — verification does not depend on the envelope

The wallet's activity comes as a bare list, as an object with the list under one of three keys, or as an `activity`
object around such an object, and each entry may be wrapped under `entry`. Both steps are undone before anything is
compared: every envelope gives the objects of its list (`activityEntries_envelope`), and a wrapped entry is read as the
entry (`parseActivityEntry_wrapped`). The three consumers look at entries only through what is read of them, so they come
to one end over all the forms (`envelope_independent`). An `activity` key with a bare list under it is no such form.
-/

namespace HermesPayments

open Lib

namespace WavelengthAdapter

/-! ## Envelopes -/

/-- The first of the three collection keys that an object has holds these items. An empty collection gives way to an
    object under `entry`. -/
structure Collects (data : Json) (items : List Json) : Prop where
  first    : ["entries", "items", "recent"].findSome? data.get? = some (.arr items)
  fallback : items = [] → (data.getD "entry" .null).isDict = false

/-- The forms in which the wallet's list of entries comes. -/
inductive Envelope (items : List Json) : Json → Prop
  | bare : Envelope items (.arr items)
  | collection {data : Json} (hinner : (data.getD "activity" .null).isDict = false) (h : Collects data items) :
      Envelope items data
  | activity {data : Json} (h : Collects (data.getD "activity" .null) items) : Envelope items data

/-- An entry wrapped on its own. -/
def wrapEntry (entry : Json) : Json := .obj [("entry", entry)]

/-- Some objects of the list are wrapped on their own. -/
def Rewrapped : List Json → List Json → Prop :=
  List.Forall₂ fun entry entry' => entry' = entry ∨ (entry.isDict = true ∧ entry' = wrapEntry entry)

/-- The two answers of the executor make no difference, whatever else the outside answers: each call returns or raises
    the same, after the same commands. -/
def SameVerdicts (w : WavelengthAdapter) (py : PyRuntime) (data data' : Json) : Prop :=
  ∀ env env' : WavecliEnv,
    (∀ kind : ActivityKind, env.executor (w.activityCmd kind.value) = .ok data) →
    (∀ kind : ActivityKind, env'.executor (w.activityCmd kind.value) = .ok data') →
    (∀ ref amountSat, (w.verifyReceipt py env ref amountSat).run () = (w.verifyReceipt py env' ref amountSat).run ()) ∧
    (∀ ref amountSat, (w.verifySenderSettlement py env ref amountSat).run ()
      = (w.verifySenderSettlement py env' ref amountSat).run ()) ∧
    ∀ payload preparedHash amountSat, (w.reconcileSettlement py env payload preparedHash amountSat).run ()
      = (w.reconcileSettlement py env' payload preparedHash amountSat).run ()

section

variable {w : WavelengthAdapter} {py : PyRuntime} {data data' : Json} {items items' : List Json}

theorem isDict_of_get? {key : String} {value : Json} (h : data.get? key = some value) : ∃ ms, data = .obj ms := by
  cases data with
  | obj ms => exact ⟨ms, rfl⟩
  | null | bool _ | int _ | float _ | str _ | arr _ => cases h

theorem Collects.isDict (h : Collects data items) : ∃ ms, data = .obj ms := by
  obtain ⟨key, -, hkey⟩ := List.exists_of_findSome?_eq_some h.first
  exact isDict_of_get? hkey

/-- The nested defaults of the lookup take the first key there is. -/
theorem Collects.candidate (h : Collects data items) :
    data.getD "entries" (data.getD "items" (data.getD "recent" (.arr []))) = .arr items := by
  have hfirst := h.first
  simp only [List.findSome?_cons, List.findSome?_nil] at hfirst
  unfold Json.getD
  cases hentries : data.get? "entries" with
  | some value =>
      rw [hentries] at hfirst
      exact Option.some.inj hfirst
  | none =>
      rw [hentries] at hfirst
      cases hitems : data.get? "items" with
      | some value =>
          rw [hitems] at hfirst
          exact Option.some.inj hfirst
      | none =>
          rw [hitems] at hfirst
          cases hrecent : data.get? "recent" with
          | some value =>
              rw [hrecent] at hfirst
              exact Option.some.inj hfirst
          | none =>
              rw [hrecent] at hfirst
              cases hfirst

/-- An object's collection is taken, be it empty. -/
theorem Collects.taken (h : Collects data items) :
    (if !(Json.arr items).truthy && (data.getD "entry" .null).isDict then .arr [data.getD "entry" .null]
      else Json.arr items) = .arr items := by
  cases items with
  | nil => rw [h.fallback rfl, Bool.and_false, if_neg Bool.false_ne_true]
  | cons item items => rfl

/-- **Every envelope gives the objects of its list.** -/
theorem activityEntries_envelope (h : Envelope items data) : activityEntries data = items.filter Json.isDict := by
  cases h with
  | bare => rfl
  | collection hinner hcollects =>
      obtain ⟨ms, rfl⟩ := hcollects.isDict
      unfold activityEntries
      simp only [hinner, Bool.false_eq_true, if_false, hcollects.candidate, hcollects.taken]
  | activity hcollects =>
      obtain ⟨ms, hactivity⟩ := hcollects.isDict
      obtain ⟨ns, rfl⟩ : ∃ ns, data = .obj ns := by
        cases data with
        | obj ns => exact ⟨ns, rfl⟩
        | null | bool _ | int _ | float _ | str _ | arr _ => cases hactivity
      have hdict : ((Json.obj ns).getD "activity" .null).isDict = true := by
        rw [hactivity]
        rfl
      unfold activityEntries
      simp only [hdict, if_true, hcollects.candidate, hcollects.taken]

/-! ## Wrapped entries -/

/-- Two entries are read alike. -/
def ReadAlike (py : PyRuntime) (entry entry' : Json) : Prop :=
  parseActivityEntry py entry = parseActivityEntry py entry'

/-- **A wrapped entry is read as the entry**, when that has no object under `entry` itself. -/
theorem parseActivityEntry_wrapped {entry : Json} (hdict : entry.isDict = true)
    (hinner : (entry.getD "entry" .null).isDict = false) : ReadAlike py entry (wrapEntry entry) := by
  have hentry : (wrapEntry entry).getD "entry" .null = entry := rfl
  have hobject : (wrapEntry entry).isDict = true := rfl
  unfold ReadAlike parseActivityEntry
  simp only [hentry, hobject, hdict, hinner, if_true, Bool.false_eq_true, if_false]
  rfl

/-- What is no object is left out, wrapped or not, and what is left is read alike. -/
theorem Rewrapped.readAlike (h : Rewrapped items items')
    (hinner : ∀ entry ∈ items, (entry.getD "entry" .null).isDict = false) :
    List.Forall₂ (ReadAlike py) (items.filter Json.isDict) (items'.filter Json.isDict) := by
  induction h with
  | nil => exact .nil
  | @cons entry entry' items items' hhead _ ih =>
      have hrest := ih fun e he => hinner e (List.mem_cons_of_mem _ he)
      rcases hhead with rfl | ⟨hdict, rfl⟩
      · cases hdict : entry'.isDict with
        | true =>
            rw [List.filter_cons_of_pos hdict, List.filter_cons_of_pos hdict]
            exact .cons rfl hrest
        | false =>
            rw [List.filter_cons_of_neg (by simp [hdict]), List.filter_cons_of_neg (by simp [hdict])]
            exact hrest
      · rw [List.filter_cons_of_pos hdict, List.filter_cons_of_pos rfl]
        exact .cons (parseActivityEntry_wrapped hdict (hinner entry List.mem_cons_self)) hrest

/-! ## The consumers -/

/-- Receipt verification sees of the entries only what is read of them. -/
theorem verifyScan_alike (kind : ActivityKind) (ref : PyStr) (amountSat : Int)
    (h : List.Forall₂ (ReadAlike py) items items') :
    verifyScan py kind ref amountSat items = verifyScan py kind ref amountSat items' := by
  induction h with
  | nil => rfl
  | cons hhead _ ih =>
      have hread : parseActivityEntry py _ = parseActivityEntry py _ := hhead
      rw [verifyScan, verifyScan, hread, ih]

/-- … and so does recovery. -/
theorem reconcileScan_alike (ref : PyStr) (amountSat : Int) (h : List.Forall₂ (ReadAlike py) items items') :
    reconcileScan py ref amountSat items = reconcileScan py ref amountSat items' := by
  induction h with
  | nil => rfl
  | cons hhead _ ih =>
      have hread : parseActivityEntry py _ = parseActivityEntry py _ := hhead
      rw [reconcileScan, reconcileScan, hread, ih]

theorem run_verifyActivity (env : WavecliEnv) (kind : ActivityKind) (ref : PyStr) (amountSat : Int) :
    (w.verifyActivity py env kind ref amountSat).run ()
      = ⟨verifyAnswer py kind ref amountSat (env.executor (w.activityCmd kind.value)), (), [w.activityCmd kind.value]⟩ := by
  have hasked : (env.run (w.activityCmd kind.value)).run () =
      ⟨.ok (env.executor (w.activityCmd kind.value)), (), [w.activityCmd kind.value]⟩ := rfl
  rw [verifyActivity, Proc.run_bind_ok hasked]
  cases env.executor (w.activityCmd kind.value) with
  | ok data => rfl
  | error e => cases e <;> rfl

/-- The calls over two answers whose entries are read alike. -/
theorem sameVerdicts_of_alike
    (h : List.Forall₂ (ReadAlike py) (activityEntries data) (activityEntries data')) : SameVerdicts w py data data' := by
  intro env env' henv henv'
  have hverify : ∀ (kind : ActivityKind) (ref : PyStr) (amountSat : Int),
      (w.verifyActivity py env kind ref amountSat).run () = (w.verifyActivity py env' kind ref amountSat).run () := by
    intro kind ref amountSat
    rw [run_verifyActivity, run_verifyActivity, henv, henv', verifyAnswer, verifyAnswer, verifyScan_alike kind ref amountSat h]
  refine ⟨hverify .recv, hverify .send, ?_⟩
  intro payload preparedHash amountSat
  by_cases hprepared : ∃ ref, Prepared py payload preparedHash ref amountSat
  · obtain ⟨ref, hprepared⟩ := hprepared
    have hsend : env.executor (w.activityCmd "send") = .ok data := henv .send
    have hsend' : env'.executor (w.activityCmd "send") = .ok data' := henv' .send
    rw [run_reconcileSettlement_prepared hprepared, run_reconcileSettlement_prepared hprepared, hsend, hsend',
      reconcileAnswer, reconcileAnswer, reconcileScan_alike ref amountSat h]
  · obtain ⟨_, _, hrun⟩ := reconcileSettlement_unprepared hprepared
    rw [hrun env, hrun env']

end

end WavelengthAdapter

namespace Sample

/-- The entry of a completed send. -/
def completedSend : Json := .obj [("payment_hash", .str "aa"), ("status", .str "COMPLETE"), ("amount_sat", .int (-1000))]

theorem completedSend_plain : (completedSend.getD "entry" .null).isDict = false := by decide

end Sample

namespace WavelengthAdapter

/-- **Verification does not depend on the envelope**, nor on which entries are wrapped on their own, nor on members that
    are no objects. -/
theorem envelope_independent (w : WavelengthAdapter) (py : PyRuntime) {items items' : List Json} {data : Json}
    (hinner : ∀ entry ∈ items, (entry.getD "entry" .null).isDict = false) (hwrapped : Rewrapped items items')
    (hdata : Envelope items' data) :
    SameVerdicts w py data (.arr items) ∧ SameVerdicts w py data (.arr (items.filter Json.isDict)) := by
  have hread : List.Forall₂ (ReadAlike py) (activityEntries data) (items.filter Json.isDict) := by
    rw [activityEntries_envelope hdata]
    exact (hwrapped.readAlike hinner).flip.imp fun _ _ h => Eq.symm h
  refine ⟨sameVerdicts_of_alike hread, sameVerdicts_of_alike ?_⟩
  have hobjects : activityEntries (.arr (items.filter Json.isDict)) = items.filter Json.isDict := by
    show (items.filter Json.isDict).filter Json.isDict = _
    rw [List.filter_filter]
    simp only [Bool.and_self]
  rw [hobjects]
  exact hread

/-- The sample payment, one entry wrapped on its own, in an `activity` object. -/
theorem envelope_independent_recent :
    SameVerdicts Sample.wavelength Sample.py
      (.obj [("activity", .obj [("count", .int 2), ("recent", .arr [wrapEntry Sample.completedSend, .str "total"])])])
      (.arr [Sample.completedSend, .str "total"]) := by
  refine (@envelope_independent Sample.wavelength Sample.py _ [wrapEntry Sample.completedSend, .str "total"] _ ?_ ?_ ?_).1
  · intro entry hentry
    rcases List.mem_cons.mp hentry with rfl | hentry
    · exact Sample.completedSend_plain
    · rw [List.mem_singleton.mp hentry]
      rfl
  · exact .cons (.inr ⟨rfl, rfl⟩) (.cons (.inl rfl) .nil)
  · exact .activity ⟨rfl, by simp⟩

/-- A bare list in an `activity` object is not looked into. -/
theorem bare_activity_ignored :
    ¬ ∀ (w : WavelengthAdapter) (py : PyRuntime) (items items' : List Json) (data : Json),
      (∀ entry ∈ items, (entry.getD "entry" .null).isDict = false) → Rewrapped items items' →
      (Envelope items' data ∨ ∃ inner, Envelope items' inner ∧ data = .obj [("activity", inner)]) →
      SameVerdicts w py data (.arr items) := by
  intro h
  have hsame := h Sample.wavelength Sample.py [Sample.completedSend] [Sample.completedSend]
    (.obj [("activity", .arr [Sample.completedSend])])
    (fun entry hentry => (List.mem_singleton.mp hentry).symm ▸ Sample.completedSend_plain) (.cons (.inl rfl) .nil) (.inr ⟨_, .bare, rfl⟩)
    ⟨0, fun _ => .ok (.obj [("activity", .arr [Sample.completedSend])])⟩ ⟨0, fun _ => .ok (.arr [Sample.completedSend])⟩
    (fun _ => rfl) (fun _ => rfl)
  have hverified := congrArg (fun o => o.result.toOption.map ReceiptVerifyResult.verified) (hsame.2.1 "aa" 1000)
  have hfalse : some false = some true := hverified
  cases hfalse

end WavelengthAdapter
end HermesPayments
