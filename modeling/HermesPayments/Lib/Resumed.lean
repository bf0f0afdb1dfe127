import Mathlib.Data.List.Basic

/-!
# `Lib.Resumed` — the log of an automaton that is interrupted

An automaton starts in a fixed state, moves along a relation and logs every state it moves to. When it is interrupted it
goes on from its start state or from a state that it has logged before. `Resumed moves start log s` says that it has
logged `log` and is in `s`.
-/

namespace Lib

variable {σ : Type}

inductive Resumed (moves : σ → σ → Prop) (start : σ) : List σ → σ → Prop
  | start : Resumed moves start [] start
  | move {log : List σ} {s t : σ} (h : Resumed moves start log s) (hmove : moves s t) :
      Resumed moves start (log ++ [t]) t
  | resume {log : List σ} {s t : σ} (h : Resumed moves start log s) (hback : t ∈ start :: log) :
      Resumed moves start log t

namespace Resumed

variable {moves : σ → σ → Prop} {start s t : σ} {log : List σ}

/-- The state is one that was logged, unless nothing has moved since the start. -/
theorem mem (h : Resumed moves start log s) : s ∈ start :: log := by
  cases h with
  | start => exact List.mem_cons_self
  | move _ _ => exact List.mem_cons_of_mem _ (List.mem_append_right _ (List.mem_singleton_self _))
  | resume _ hback => exact hback

/-- **The way into a set of states**: where every move into the set starts in one state, no state of the set is logged
    before that state is. -/
theorem passes {T : σ → Prop} {u : σ} (hinto : ∀ s t, moves s t → T t → T s ∨ s = u) (hstart : ¬ T start)
    (hne : u ≠ start) (h : Resumed moves start log s) (ht : t ∈ log) (hT : T t) : u ∈ log := by
  induction h generalizing t with
  | start => cases ht
  | @move log s t' h hmove ih =>
      refine List.mem_append_left _ ?_
      rcases List.mem_append.mp ht with ht | ht
      · exact ih ht hT
      · rw [List.mem_singleton.mp ht] at hT
        rcases hinto s t' hmove hT with hs | rfl
        · rcases List.mem_cons.mp h.mem with rfl | hs'
          · exact absurd hs hstart
          · exact ih hs' hs
        · exact (List.mem_cons.mp h.mem).resolve_left hne
  | resume _ _ ih => exact ih ht hT

end Resumed

end Lib
