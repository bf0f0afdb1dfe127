import HermesPayments.Lib.Worklist
import HermesPayments.StateMachine
import Mathlib.Data.Fintype.Defs

/-!
# `HermesPayments.StateMachine.Reachable` — the states the automaton can get to

`can_transition` asks the table, and `reachable_states` searches it from `DRAFT`. The search is that of `Lib.Worklist`: it
takes its next state out of a set, which hands out any element it holds.
-/

namespace HermesPayments

open Lib PaymentState

instance : Fintype PaymentState where
  elems := {DRAFT, SUBMITTED, QUOTED, PREPARED, APPROVED, EXECUTING, SETTLED, FAILED, REJECTED, EXPIRED, CANCELLED,
    RECONCILIATION_REQUIRED}
  complete s := by cases s <;> decide

/-- Check if a transition is valid without mutating state. -/
def canTransition (current : PaymentState) (trigger : String) : Bool := (current, trigger) ∈ TRANSITIONS.map Prod.fst

/-- What the loop over the table adds to the frontier. -/
def nextStates (s : PaymentState) : Finset PaymentState := ((TRANSITIONS.filter (·.1.1 = s)).map Prod.snd).toFinset

/-- All states reachable from `DRAFT`; `pop` is the order in which the frontier hands out its elements. -/
def reachableStates (pop : Nat → Finset PaymentState → PaymentState) (fuel : Nat) : Option (Finset PaymentState) :=
  explore nextStates pop fuel ∅ {DRAFT}

/-- A trigger takes the automaton from `s` to `t`. -/
def PaymentState.StepsTo (s t : PaymentState) : Prop :=
  ∃ trigger, canTransition s trigger = true ∧ (transition s trigger).newState = t

/-- No row of the table leaves a terminal state. -/
theorem not_terminal_of_transition : ∀ e ∈ TRANSITIONS, e.1.1 ∉ TERMINAL_STATES := by decide

/-- The table is a dictionary: what is looked up under the key of a row is that row. -/
theorem lookup_of_transition : ∀ e ∈ TRANSITIONS, TRANSITIONS.lookup e.1 = some e.2 := by decide

theorem canTransition_iff {s : PaymentState} {trigger : String} :
    canTransition s trigger = true ↔ ∃ e ∈ TRANSITIONS, e.1 = (s, trigger) := by
  rw [canTransition, decide_eq_true_iff, List.mem_map]

/-- A row of the table is what its trigger does. -/
theorem transition_of_row {e : (PaymentState × String) × PaymentState} (he : e ∈ TRANSITIONS) :
    transition e.1.1 e.1.2 = ⟨true, e.2, none⟩ := by
  unfold transition
  rw [if_neg (not_terminal_of_transition e he), Prod.mk.eta, lookup_of_transition e he]

/-- **`can_transition` says what `transition` will do**, for every trigger. -/
theorem canTransition_eq (s : PaymentState) (trigger : String) : canTransition s trigger = (transition s trigger).ok := by
  by_cases hcan : canTransition s trigger = true
  · obtain ⟨e, he, hkey⟩ := canTransition_iff.mp hcan
    have hrow := transition_of_row he
    rw [hkey] at hrow
    rw [hcan, hrow]
  · -- no row has this key, so `transition` refuses whether or not the state is terminal
    have hnone : TRANSITIONS.lookup (s, trigger) = none := by
      rw [List.lookup_eq_none_iff]
      intro e he
      rw [bne_iff_ne]
      intro hkey
      exact hcan (canTransition_iff.mpr ⟨e, he, hkey.symm⟩)
    rw [Bool.not_eq_true] at hcan
    rw [hcan]
    unfold transition
    split
    · rfl
    · rw [hnone]

/-- The successors that the search adds are those that a trigger leads to. -/
theorem mem_nextStates {s t : PaymentState} : t ∈ nextStates s ↔ s.StepsTo t := by
  simp only [nextStates, List.mem_toFinset, List.mem_map, List.mem_filter, decide_eq_true_iff]
  constructor
  · rintro ⟨e, ⟨he, rfl⟩, rfl⟩
    exact ⟨e.1.2, canTransition_iff.mpr ⟨e, he, rfl⟩, by rw [transition_of_row he]⟩
  · rintro ⟨trigger, hcan, rfl⟩
    obtain ⟨e, he, hkey⟩ := canTransition_iff.mp hcan
    have hrow := transition_of_row he
    rw [hkey] at hrow
    exact ⟨e, ⟨he, by rw [hkey]⟩, by rw [hrow]⟩

/-- **`reachable_states` returns**, and what it returns are the states that triggers lead to from `DRAFT`, whatever the
    order in which the set hands them out. -/
theorem reachableStates_spec {pop : Nat → Finset PaymentState → PaymentState} (hpop : ∀ k f, f.Nonempty → pop k f ∈ f)
    {fuel : Nat} (hfuel : 158 ≤ fuel) :
    ∃ found, reachableStates pop fuel = some found ∧ ∀ s, s ∈ found ↔ Relation.ReflTransGen PaymentState.StepsTo DRAFT s := by
  have hrounds : Fintype.card PaymentState * (Fintype.card PaymentState + 1) + 1 < fuel := by
    rw [show Fintype.card PaymentState = 12 from rfl]
    omega
  obtain ⟨found, hfound, hiff⟩ := explore_eq nextStates DRAFT hpop hrounds
  have hsteps : (fun s t => t ∈ nextStates s) = PaymentState.StepsTo := by
    funext s t
    exact propext mem_nextStates
  rw [hsteps] at hiff
  exact ⟨found, hfound, hiff⟩

/-- Every state of the automaton can be reached. -/
theorem PaymentState.reachable (s : PaymentState) : Relation.ReflTransGen PaymentState.StepsTo DRAFT s := by
  have hnext {s t : PaymentState} (hs : Relation.ReflTransGen PaymentState.StepsTo DRAFT s) (ht : t ∈ nextStates s) :
      Relation.ReflTransGen PaymentState.StepsTo DRAFT t := hs.tail (mem_nextStates.mp ht)
  -- along the happy path, and off it
  have hsubmitted := hnext .refl (show SUBMITTED ∈ nextStates DRAFT by decide)
  have hquoted := hnext hsubmitted (show QUOTED ∈ nextStates SUBMITTED by decide)
  have hprepared := hnext hquoted (show PREPARED ∈ nextStates QUOTED by decide)
  have happroved := hnext hprepared (show APPROVED ∈ nextStates PREPARED by decide)
  have hexecuting := hnext happroved (show EXECUTING ∈ nextStates APPROVED by decide)
  cases s with
  | DRAFT => exact .refl
  | SUBMITTED => exact hsubmitted
  | QUOTED => exact hquoted
  | PREPARED => exact hprepared
  | APPROVED => exact happroved
  | EXECUTING => exact hexecuting
  | SETTLED => exact hnext hexecuting (by decide)
  | RECONCILIATION_REQUIRED => exact hnext hexecuting (by decide)
  | CANCELLED => exact hnext hsubmitted (by decide)
  | REJECTED => exact hnext hsubmitted (by decide)
  | EXPIRED => exact hnext hsubmitted (by decide)
  | FAILED => exact hnext hquoted (by decide)

end HermesPayments
