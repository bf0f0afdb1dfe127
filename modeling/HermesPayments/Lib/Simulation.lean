import HermesPayments.Lib.Run
import Mathlib.Data.List.Forall2

/-!
# `Lib.Simulation` — forward simulation between transition systems

A system simulates another when related states stay related: each step of the one is matched by a step of the other.
The relation, unlike the view of `Run.refines`, may leave the second state underdetermined, so that the second system may
remember what the first has forgotten. A run is then matched event by event (`Simulates.run`), and what events have in
common is kept (`Matched`).
-/

namespace Lib

variable {σ ι σ' ι' : Type}

/-- The events of two histories correspond, in order. -/
abbrev Matched (same : Event σ ι → Event σ' ι' → Prop) (h : List (Event σ ι)) (g : List (Event σ' ι')) : Prop :=
  List.Forall₂ same h g

/-- Each step from related states is matched by a step, to related states, that has the same event. -/
structure Simulates (init : σ → Prop) (step : σ → ι → σ → Prop) (init' : σ' → Prop) (step' : σ' → ι' → σ' → Prop)
    (related : σ → σ' → Prop) (same : Event σ ι → Event σ' ι' → Prop) : Prop where
  start  : ∀ s, init s → ∃ t, init' t ∧ related s t
  follow : ∀ s t i s', related s t → step s i s' →
    ∃ j t', step' t j t' ∧ related s' t' ∧ same ⟨s, i, s'⟩ ⟨t, j, t'⟩

variable {init : σ → Prop} {step : σ → ι → σ → Prop} {init' : σ' → Prop} {step' : σ' → ι' → σ' → Prop}
  {related : σ → σ' → Prop} {same : Event σ ι → Event σ' ι' → Prop}

/-- **A run is matched by a run**, event by event. -/
theorem Simulates.run (hsim : Simulates init step init' step' related same) {h : List (Event σ ι)} {s : σ}
    (hrun : Run init step h s) : ∃ g t, Run init' step' g t ∧ related s t ∧ Matched same h g := by
  induction hrun with
  | nil hinit =>
      obtain ⟨t, ht, hrelated⟩ := hsim.start _ hinit
      exact ⟨[], t, .nil ht, hrelated, .nil⟩
  | @snoc h s s' i _ hstep ih =>
      obtain ⟨g, t, hg, hrelated, hmatched⟩ := ih
      obtain ⟨j, t', hstep', hrelated', hsame⟩ := hsim.follow s t i s' hrelated hstep
      exact ⟨g ++ [⟨t, j, t'⟩], t', hg.snoc hstep', hrelated', List.rel_append hmatched (.cons hsame .nil)⟩

/-- The events of another system that are seen in a history. -/
def project (view : σ → σ') (shown : ι → Option ι') (h : List (Event σ ι)) : List (Event σ' ι') :=
  h.filterMap fun e => (shown e.seen).map fun j => ⟨view e.before, j, view e.after⟩

/-- **A run is seen as a run**, event by event, where each step that is seen is a step, and any other leaves the view. -/
theorem Run.project {view : σ → σ'} {shown : ι → Option ι'} (hinit : ∀ s, init s → init' (view s))
    (hstep : ∀ s i s' j, step s i s' → shown i = some j → step' (view s) j (view s'))
    (hstutter : ∀ s i s', step s i s' → shown i = none → view s' = view s) {h : List (Event σ ι)} {s : σ}
    (hrun : Run init step h s) : Run init' step' (project view shown h) (view s) := by
  induction hrun with
  | nil h0 => exact .nil (hinit _ h0)
  | @snoc h s s' i _ hone ih =>
      rw [Lib.project, List.filterMap_append]
      cases hi : shown i with
      | none =>
          rw [List.filterMap_cons_none (by rw [hi]; rfl), List.filterMap_nil, List.append_nil, hstutter s i s' hone hi]
          exact ih
      | some j =>
          rw [List.filterMap_cons_some (by rw [hi]; rfl), List.filterMap_nil]
          exact ih.snoc (hstep s i s' j hone hi)

end Lib
